import Mathlib.Data.List.Basic
import Mathlib.Tactic.Common

/-!
# Backtracking regular expressions

Regular expressions as a backtracking matcher reads them. `rests r text` lists what `r` may leave
of `text`, in the order in which the matcher tries: the left alternative first, the longer
repetition first. The match is the first of them, and `scan` repeats it from where it ended.

`rests` has a lemma for every constructor, from which the `first_seq` and `first_star` lemmas bring
a sequence into a form where its head decides. The helper `lastEnd_concat` follows the scan over a
text that grows, and the headline `flatten_scan` says that the matches of a pattern that always
matches are the text.
-/

inductive Regex (α : Type) where
  | empty
  | set (p : α → Bool)
  | seq (r s : Regex α)
  | alt (r s : Regex α)
  | star (r : Regex α)
  | notAhead (r : Regex α)

namespace Regex

variable {α : Type}

/-- Repetitions of a step, each of which consumes something, the longest first. -/
def repeats (step : List α → List (List α)) : Nat → List α → List (List α)
  | 0, text => [text]
  | fuel + 1, text =>
    ((step text).filter (·.length < text.length)).flatMap (repeats step fuel) ++ [text]

def rests : Regex α → List α → List (List α)
  | empty, text => [text]
  | set _, [] => []
  | set p, a :: text => if p a then [text] else []
  | seq r s, text => (rests r text).flatMap (rests s)
  | alt r s, text => rests r text ++ rests s text
  | star r, text => repeats (rests r) text.length text
  | notAhead r, text => if (rests r text).isEmpty then [text] else []

/-- `r?`, greedy. -/
def opt (r : Regex α) : Regex α := alt r empty

/-- `r+`, greedy. -/
def plus (r : Regex α) : Regex α := seq r (star r)

/-- What the match leaves. -/
def first (r : Regex α) (text : List α) : Option (List α) := (rests r text).head?

/-- The length of the match at the start of a text. -/
def matchLength (r : Regex α) (text : List α) : Option Nat :=
  (first r text).map (text.length - ·.length)

/-- The matches one after another, as long as each consumes something. -/
def scanFrom (r : Regex α) : Nat → List α → List (List α)
  | 0, _ => []
  | fuel + 1, text =>
    match matchLength r text with
    | some (n + 1) => text.take (n + 1) :: scanFrom r fuel (text.drop (n + 1))
    | _ => []

def scan (r : Regex α) (text : List α) : List (List α) := scanFrom r text.length text

variable {r s : Regex α} {p q : α → Bool} {a : α} {text : List α}

/-- A set takes one character, if it is a member. -/
lemma rests_set_cons : rests (set p) (a :: text) = if p a then [text] else [] := rfl

/-- Of a sequence the second part goes on where the first ended. -/
lemma rests_seq : rests (seq r s) text = (rests r text).flatMap (rests s) := rfl

/-- The first alternative is tried before the second. -/
lemma rests_alt : rests (alt r s) text = rests r text ++ rests s text := rfl

/-- A repetition takes at most as many turns as there are characters. -/
lemma rests_star : rests (star r) text = repeats (rests r) text.length text := rfl

/-- A look-ahead takes nothing. -/
lemma rests_notAhead :
    rests (notAhead r) text = if (rests r text).isEmpty then [text] else [] := rfl

/-- A repetition tries one more turn before it stops. -/
lemma repeats_succ (step : List α → List (List α)) (fuel : Nat) :
    repeats step (fuel + 1) text =
      ((step text).filter (·.length < text.length)).flatMap (repeats step fuel) ++ [text] := rfl

/-- The empty pattern takes nothing. -/
lemma first_empty : first empty text = some text := rfl

/-- A set takes one character, if it is a member. -/
lemma first_set_cons : first (set p) (a :: text) = if p a then some text else none := by
  rw [first, rests_set_cons]
  split <;> rfl

/-- The second alternative counts where the first fails. -/
lemma first_alt : first (alt r s) text = (first r text).or (first s text) :=
  List.head?_append

/-- The first way through a sequence. -/
lemma first_seq : first (seq r s) text = (rests r text).findSome? (first s) :=
  List.head?_flatMap

/-- How a sequence is grouped does not matter. -/
lemma first_seq_assoc {t : Regex α} :
    first (seq (seq r s) t) text = first (seq r (seq s t)) text := by
  rw [first, first, rests_seq, rests_seq, rests_seq, List.flatMap_assoc]
  rfl

/-- A look-ahead succeeds where its pattern fails. -/
lemma first_notAhead :
    first (notAhead r) text = if (first r text).isNone then some text else none := by
  rw [first, first, rests_notAhead]
  cases rests r text <;> rfl

/-- A class in front takes one element. -/
lemma first_seq_set_nil : first (seq (set p) s) [] = none := rfl

/-- A sequence that begins with a set takes one character and goes on. -/
lemma first_seq_set_cons :
    first (seq (set p) s) (a :: text) = if p a then first s text else none := by
  rw [first_seq, rests_set_cons]
  split
  · rw [List.findSome?_singleton]
  · rfl

/-- An optional class in front is tried first and given back if what follows fails. -/
lemma first_seq_opt_cons :
    first (seq (opt (set p)) s) (a :: text) =
      if p a then (first s text).or (first s (a :: text)) else first s (a :: text) := by
  have split : first (seq (opt (set p)) s) (a :: text) =
      (first (seq (set p) s) (a :: text)).or (first s (a :: text)) := by
    rw [first_seq, opt, rests_alt, List.findSome?_append, ← first_seq]
    exact congrArg _ List.findSome?_singleton
  rw [split, first_seq_set_cons]
  split_ifs
  · rfl
  · exact Option.none_or

/-- A repeated set takes what it can first, and nothing last. -/
lemma rests_star_cons :
    rests (star (set p)) (a :: text) =
      if p a then rests (star (set p)) text ++ [a :: text] else [a :: text] := by
  rw [rests_star, List.length_cons, repeats_succ, rests_set_cons]
  split_ifs <;> simp [rests_star]

/-- At the end a repetition takes nothing. -/
lemma first_seq_star_nil : first (seq (star (set p)) s) [] = first s [] := by
  rw [first_seq]
  exact List.findSome?_singleton

/-- A repeated class in front takes an element more if what follows can still match behind it. -/
lemma first_seq_star_cons :
    first (seq (star (set p)) s) (a :: text) =
      if p a then (first (seq (star (set p)) s) text).or (first s (a :: text))
      else first s (a :: text) := by
  rw [first_seq, rests_star_cons]
  split_ifs
  · rw [List.findSome?_append, ← first_seq, List.findSome?_singleton]
  · rw [List.findSome?_singleton]

/-- Before something that always matches, a repeated class takes its whole run. -/
lemma first_seq_star_of_isSome (h : ∀ text, (first s text).isSome) :
    first (seq (star (set p)) s) text = first s (text.dropWhile p) := by
  induction text with
  | nil => exact first_seq_star_nil
  | cons a text ih =>
    rw [first_seq_star_cons, List.dropWhile_cons]
    split_ifs
    · rw [ih]
      exact Option.or_of_isSome (h _)
    · rfl

/-- A repeated set takes all members in front. -/
lemma first_star : first (star (set p)) text = some (text.dropWhile p) := by
  have unit : first (star (set p)) text = first (seq (star (set p)) empty) text := by
    rw [first, first, rests_seq]
    exact congrArg List.head? (List.flatMap_singleton' _).symm
  rw [unit, first_seq_star_of_isSome fun _ => rfl, first_empty]

/-- A set once or more needs one member in front. -/
lemma first_plus_cons :
    first (plus (set p)) (a :: text) = if p a then some (text.dropWhile p) else none := by
  rw [plus, first_seq_set_cons, first_star]

/-- A sequence that begins with a set once or more needs one member in front. -/
lemma first_seq_plus_cons :
    first (seq (plus (set p)) s) (a :: text) =
      if p a then first (seq (star (set p)) s) text else none := by
  rw [plus, first_seq_assoc, first_seq_set_cons]

/-- Where the last element of a class ends, 0 if there is none. -/
def lastEnd (q : α → Bool) : List α → Nat
  | [] => 0
  | a :: text => if lastEnd q text ≠ 0 then lastEnd q text + 1 else if q a then 1 else 0

/-- The last end is within the text. -/
lemma lastEnd_le {text : List α} : lastEnd q text ≤ text.length := by
  induction text with
  | nil => exact Nat.le_refl 0
  | cons a text ih =>
    rw [lastEnd, List.length_cons]
    split_ifs <;> omega

/-- A member at the end is the last; another leaves the last end. -/
lemma lastEnd_concat {text : List α} :
    lastEnd q (text ++ [a]) = if q a then text.length + 1 else lastEnd q text := by
  induction text with
  | nil => simp [lastEnd]
  | cons b text ih =>
    rw [List.cons_append, lastEnd, ih, lastEnd]
    split_ifs <;> first | rfl | omega

/-- A run that has to end in a narrower class ends at the last element of that class. -/
lemma first_star_plus (sub : ∀ a, q a → p a) :
    first (seq (star (set p)) (plus (set q))) text =
      if lastEnd q (text.takeWhile p) ≠ 0 then some (text.drop (lastEnd q (text.takeWhile p)))
      else none := by
  induction text with
  | nil => exact first_seq_star_nil
  | cons a text ih =>
    rw [first_seq_star_cons, List.takeWhile_cons, ih, first_plus_cons]
    by_cases out : p a = true
    · rw [if_pos out, if_pos out, lastEnd]
      by_cases later : lastEnd q (text.takeWhile p) ≠ 0
      · rw [if_pos later, if_pos later, if_pos (Nat.succ_ne_zero _)]
        rfl
      -- no later element of the class: what follows the head does not start with one
      · rw [if_neg later, if_neg later, Option.none_or]
        have stop : text.dropWhile q = text := by
          cases text with
          | nil => rfl
          | cons b rest =>
            refine List.dropWhile_cons_of_neg fun hb => later ?_
            rw [List.takeWhile_cons_of_pos (sub b hb), lastEnd, if_pos hb]
            split <;> omega
        rw [stop]
        split_ifs <;> first | rfl | omega
    · rw [if_neg out, if_neg out, if_neg fun h => out (sub a h)]
      rfl

/-- A run that must not end in front of an element outside its class gives one element back,
unless it reaches the end of the text. -/
lemma first_star_notAhead :
    first (seq (star (set p)) (notAhead (set fun a => !p a))) text =
      if (text.takeWhile p).length = text.length then some []
      else if (text.takeWhile p).length = 0 then none
      else some (text.drop ((text.takeWhile p).length - 1)) := by
  induction text with
  | nil => exact first_seq_star_nil
  | cons a text ih =>
    rw [first_seq_star_cons, List.takeWhile_cons, ih, first_notAhead, first_set_cons]
    by_cases out : p a = true
    · simp only [out, if_true, Bool.not_true, Bool.false_eq_true, if_false, Option.isNone_none,
        List.length_cons, Nat.add_right_cancel_iff, Nat.add_one_ne_zero, Nat.add_sub_cancel]
      split_ifs with whole none
      · rfl
      · rw [Option.none_or, none, List.drop_zero]
      · obtain ⟨n, hn⟩ := Nat.exists_eq_succ_of_ne_zero none
        rw [hn]
        rfl
    · simp [out]

/-- The matches cover the text if there is always one. -/
lemma flatten_scan (h : ∀ text, text ≠ [] → ∃ n, matchLength r text = some (n + 1)) :
    (scan r text).flatten = text := by
  have cover : ∀ fuel text, text.length ≤ fuel → (scanFrom r fuel text).flatten = text := by
    intro fuel
    induction fuel with
    | zero =>
      intro text hl
      rw [List.eq_nil_of_length_eq_zero (Nat.le_zero.mp hl)]
      rfl
    | succ fuel ih =>
      intro text hl
      by_cases done : text = []
      · subst done
        rw [scanFrom]
        split
        · next n _ =>
          rw [List.flatten_cons, ih _ (by simp)]
          simp
        · rfl
      · obtain ⟨n, hn⟩ := h text done
        rw [scanFrom, hn, List.flatten_cons, ih _ (by rw [List.length_drop]; omega)]
        exact List.take_append_drop _ _
  exact cover _ _ (Nat.le_refl _)

end Regex
