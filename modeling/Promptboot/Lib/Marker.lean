import Mathlib.Data.List.Infix
import Mathlib.Data.List.Sort
import Mathlib.Tactic.Common

/-!
# Markers in a stream

Finding a pattern in a text that is put together out of pieces: where a piece is quiet the search
moves on, and an unbordered marker begins nowhere but where it was put.

`Quiet` is kept by `Quiet.append` and got from what a text lacks (`Quiet.of_head`,
`Quiet.of_absent`, `Quiet.of_length`). The headline `Quiet.find_append` moves the search on to the
first piece that is not quiet.
-/

namespace Marker

variable {α : Type} {pattern marker before rest : List α}

/-- The pattern does not begin within `before`, even when it goes on in `rest`. -/
def Quiet (pattern : List α) : List α → List α → Prop
  | [], _ => True
  | a :: before, rest => ¬pattern <+: a :: (before ++ rest) ∧ Quiet pattern before rest

/-- Two quiet parts are quiet together. -/
lemma Quiet.append {more : List α} (first : Quiet pattern before (more ++ rest))
    (second : Quiet pattern more rest) : Quiet pattern (before ++ more) rest := by
  induction before with
  | nil => exact second
  | cons a before ih =>
    rw [Quiet] at first
    refine ⟨?_, ih first.2⟩
    show ¬pattern <+: a :: (before ++ more ++ rest)
    rw [List.append_assoc]
    exact first.1

/-- What a longer pattern begins with decides. -/
lemma Quiet.longer (quiet : Quiet marker before rest) (front : marker <+: pattern) :
    Quiet pattern before rest := by
  induction before with
  | nil => trivial
  | cons a before ih => exact ⟨fun begins => quiet.1 (front.trans begins), ih quiet.2⟩

/-- A pattern begins nowhere in a text without its first element. -/
lemma Quiet.of_head {a : α} {tail : List α} (absent : a ∉ before) :
    Quiet (a :: tail) before rest := by
  induction before with
  | nil => trivial
  | cons b before ih =>
    rw [List.mem_cons, not_or] at absent
    exact ⟨fun begins => absent.1 (List.cons_prefix_cons.1 begins).1, ih absent.2⟩

/-- No proper end of the marker is its beginning. -/
def Unbordered (marker : List α) : Prop :=
  ∀ k < marker.length, 0 < k → ¬marker.drop k <+: marker

instance [DecidableEq α] (marker : List α) : Decidable (Unbordered marker) :=
  inferInstanceAs (Decidable (∀ k < marker.length, 0 < k → ¬marker.drop k <+: marker))

/-- Behind the text comes the marker, a beginning of it, or an element that it has not. -/
def Breaks (marker rest : List α) : Prop :=
  marker <+: rest ∨ rest <+: marker ∨ ∀ a ∈ rest.head?, a ∉ marker

/-- A text without the marker is quiet before what breaks the marker off. -/
lemma Quiet.of_absent (unbordered : Unbordered marker) (absent : ¬marker <:+: before)
    (breaks : Breaks marker rest) : Quiet marker before rest := by
  induction before with
  | nil => trivial
  | cons a before ih =>
    refine ⟨fun begins => ?_, ih fun inside => absent (inside.trans (List.suffix_cons a _).isInfix)⟩
    -- the marker is longer than what is left of the text
    have longer : (a :: before).length < marker.length := by
      by_contra fits
      exact absent ((List.prefix_of_prefix_length_le begins (List.prefix_append (a :: before) rest)
        (Nat.not_lt.1 fits)).isInfix)
    obtain ⟨tail, rfl⟩ := List.prefix_of_prefix_length_le (List.prefix_append (a :: before) rest)
      begins (Nat.le_of_lt longer)
    have goes_on : tail <+: rest := (List.prefix_append_right_inj (a :: before)).1 begins
    have some : tail ≠ [] := by
      rintro rfl
      rw [List.append_nil] at longer
      exact Nat.lt_irrefl _ longer
    have border : ¬tail <+: a :: before ++ tail := by
      have no := unbordered _ longer (Nat.succ_pos _)
      rwa [List.drop_left] at no
    rcases breaks with again | part | other
    · refine border (List.prefix_of_prefix_length_le goes_on again ?_)
      rw [List.length_append]
      exact Nat.le_add_left ..
    · exact border (goes_on.trans part)
    · obtain ⟨b, tail, rfl⟩ := List.exists_cons_of_ne_nil some
      obtain ⟨more, rfl⟩ := goes_on
      exact other b rfl (List.mem_append_right _ List.mem_cons_self)

/-- A pattern begins nowhere in a text that is too short for it. -/
lemma Quiet.of_length (short : before.length + rest.length < pattern.length) :
    Quiet pattern before rest := by
  induction before with
  | nil => trivial
  | cons a before ih =>
    rw [List.length_cons] at short
    refine ⟨fun begins => ?_, ih (by omega)⟩
    have fits := begins.length_le
    rw [List.length_cons, List.length_append] at fits
    omega

/-- A part of a quiet text is quiet when nothing follows it. -/
lemma Quiet.take (quiet : Quiet pattern before rest) (n : Nat) :
    Quiet pattern (before.take n) [] := by
  induction before generalizing n with
  | nil =>
    rw [List.take_nil]
    trivial
  | cons a before ih =>
    cases n with
    | zero => trivial
    | succ n =>
      refine ⟨fun begins => quiet.1 (begins.trans ?_), ih quiet.2 n⟩
      rw [List.append_nil, List.cons_prefix_cons]
      exact ⟨rfl, (List.take_prefix n before).trans (List.prefix_append before rest)⟩

/-- The pattern does not begin in a quiet text. -/
lemma Quiet.not_here (quiet : Quiet pattern before rest) (some : before ≠ []) :
    ¬pattern <+: before ++ rest := by
  obtain ⟨a, before, rfl⟩ := List.exists_cons_of_ne_nil some
  exact quiet.1

/-- A beginning of two texts ends in the first or goes on in the second. -/
lemma prefix_append_cases {text first second : List α} (front : text <+: first ++ second) :
    text <+: first ∨ ∃ rest, text = first ++ rest ∧ rest <+: second := by
  rcases List.prefix_or_prefix_of_prefix front (List.prefix_append first second) with less | more
  · exact .inl less
  · obtain ⟨rest, rfl⟩ := more
    exact .inr ⟨rest, rfl, (List.prefix_append_right_inj first).1 front⟩

section Find
variable [DecidableEq α]

/-- The first place where the pattern begins. -/
def find (pattern : List α) : List α → Option Nat
  | [] => if pattern = [] then some 0 else none
  | a :: text => if pattern <+: a :: text then some 0 else (find pattern text).map (· + 1)

/-- A text that begins with the pattern has it at the start. -/
lemma find_here (some : pattern ≠ []) (rest : List α) : find pattern (pattern ++ rest) = .some 0 := by
  obtain ⟨a, tail, rfl⟩ := List.exists_cons_of_ne_nil some
  rw [List.cons_append, find]
  exact if_pos (List.prefix_append (a :: tail) rest)

/-- A text that does not begin with the pattern has it one place on from the rest. -/
lemma find_cons {a : α} {text : List α} (no : ¬pattern <+: a :: text) :
    find pattern (a :: text) = (find pattern text).map (· + 1) := if_neg no

/-- The pattern is found behind a quiet text. -/
lemma Quiet.find_append (quiet : Quiet pattern before rest) :
    find pattern (before ++ rest) = (find pattern rest).map (· + before.length) := by
  induction before with
  | nil =>
    rw [List.nil_append]
    cases find pattern rest <;> rfl
  | cons a before ih =>
    rw [List.cons_append, find_cons quiet.1, ih quiet.2, Option.map_map]
    rfl

end Find

end Marker
