import Mathlib.Data.List.TakeWhile
import Promptboot.Repl.Screen

/-!
# What the console draws

A run of the console's routines that ends well has made its calls, and each call has done what it
does to the screen: `Draws` says what that was. The wrapped output of `write_content_with_wrap` is
the text with a new line behind each last column.

The `_ok` lemmas go up from a call (`conoutCall_ok`) to the raw outputs. `wrapLoop_ok` is the
induction over the units of a text, with the column as its invariant, and the headline
`rawContentUtf16_ok` says what an output comes to on the screen.
-/

namespace Promptboot
open TextScreen (Plain console)

/-- The screen is changed by `f`, and nothing else is. -/
def Draws (f : TextScreen → TextScreen) (s t : ScreenState) : Prop :=
  ∃ calls, t = { s with screen := f s.screen, calls }

section Calls
variable {conout : Nat → ConoutReply TextScreen} {s t u : ScreenState}
  {f g : TextScreen → TextScreen}
  {units : List UInt16}

/-- Nothing drawn leaves the screen. -/
lemma Draws.refl (s : ScreenState) : Draws (fun screen => screen) s s := ⟨s.calls, rfl⟩

/-- Drawings follow each other. -/
lemma Draws.trans (first : Draws f s t) (rest : Draws g t u) :
    Draws (fun screen => g (f screen)) s u := by
  obtain ⟨_, rfl⟩ := first
  obtain ⟨calls, rfl⟩ := rest
  exact ⟨calls, rfl⟩

/-- A call that succeeds draws what it says. -/
lemma conoutCall_ok (run : conoutCall conout f s = (efiSuccess, t)) : Draws f s t := by
  unfold conoutCall at run
  obtain ⟨status, rfl⟩ := Prod.mk.inj run
  rw [if_pos status]
  exact ⟨_, rfl⟩

/-- A checked call that succeeds is a call that succeeds. -/
lemma checkedCall_ok {σ : Type} {call : ConsoleState σ → Nat × ConsoleState σ} {s t : ConsoleState σ}
    (run : checkedCall call s = (.ok (), t)) : call s = (efiSuccess, t) := by
  unfold checkedCall at run
  rcases made : call s with ⟨status, left⟩
  rw [made] at run
  dsimp only at run
  split_ifs at run with success
  · cases run
    rw [success]
  · cases run

/-- Setting the cursor moves it. -/
lemma setConsoleCursor_ok {column row : Nat}
    (run : setConsoleCursor console conout column row s = (.ok (), t)) :
    Draws (fun screen => screen.moveTo column row) s t :=
  conoutCall_ok (checkedCall_ok run)

/-- Clearing clears the screen. -/
lemma clearScreen_ok (run : checkedCall (clearScreen console conout) s = (.ok (), t)) :
    Draws TextScreen.clear s t :=
  conoutCall_ok (checkedCall_ok run)

/-- A text without a zero is written whole. -/
lemma outputString_ok (whole : 0 ∉ units)
    (run : outputString console conout units s = (efiSuccess, t)) :
    Draws (fun screen => screen.write units) s t := by
  have all : units.takeWhile (· ≠ 0) = units := by
    rw [List.takeWhile_eq_self_iff]
    intro unit mem
    exact decide_eq_true fun zero => whole (zero ▸ mem)
  unfold outputString at run
  rw [all] at run
  exact conoutCall_ok run

/-- Chunks are written one behind the other. -/
lemma outputChunks_ok {chunks : List (List UInt16)} (whole : ∀ chunk ∈ chunks, 0 ∉ chunk)
    (run : outputChunks console conout chunks s = (efiSuccess, t)) :
    Draws (fun screen => screen.write chunks.flatten) s t := by
  induction chunks generalizing s with
  | nil =>
    cases run
    exact .refl _
  | cons chunk chunks ih =>
    obtain ⟨first, rest⟩ := List.forall_mem_cons.1 whole
    unfold outputChunks at run
    rcases made : outputString console conout chunk s with ⟨status, left⟩
    rw [made] at run
    dsimp only at run
    split_ifs at run with success
    · rw [success] at made
      have drawn := (outputString_ok first made).trans (ih rest run)
      simp only [← TextScreen.write_append, ← List.flatten_cons] at drawn
      exact drawn
    · exact absurd (congrArg Prod.fst run) success

/-- Cutting a list into chunks loses nothing. -/
lemma flatten_toChunks_go {α : Type} (n : Nat) (rest : List α) (chunk : Array α)
    (chunks : Array (List α)) :
    (List.toChunks.go n rest chunk chunks).flatten =
      chunks.toList.flatten ++ chunk.toList ++ rest := by
  induction rest generalizing chunk chunks with
  | nil => simp [List.toChunks.go]
  | cons x rest ih =>
    unfold List.toChunks.go
    split
    · simp [ih]
    · simp [ih]

/-- The chunks make up the list. -/
lemma flatten_toChunks {α : Type} (n : Nat) (l : List α) : (l.toChunks (n + 1)).flatten = l := by
  cases l with
  | nil => rfl
  | cons x l =>
    show (List.toChunks.go (n + 1) l #[x] #[]).flatten = x :: l
    rw [flatten_toChunks_go]
    rfl

/-- A text is written. -/
lemma rawConoutUtf16_ok (whole : 0 ∉ units)
    (run : rawConoutUtf16 console conout units s = (efiSuccess, t)) :
    Draws (fun screen => screen.write units) s t := by
  have chunks : (units.toChunks 256).flatten = units := flatten_toChunks 255 units
  have nonzero : ∀ chunk ∈ units.toChunks 256, 0 ∉ chunk := by
    intro chunk mem zero
    exact whole (chunks ▸ List.mem_flatten_of_mem mem zero)
  have drawn := outputChunks_ok nonzero run
  rw [chunks] at drawn
  exact drawn

end Calls

section StatusRow
variable {σ : Type} {firmware : TextOutput σ} {conout : Nat → ConoutReply σ} {s t : ConsoleState σ}
  {attr column row statusRow : Nat} {units : List UInt16}

/-- There is no first error as long as every status is success. -/
lemma firstError_eq_none {first : Option Nat} {status : Nat} :
    firstError first status = none ↔ first = none ∧ status = 0 := by
  unfold firstError
  cases first with
  | some first => simp
  | none => simp

/-- A status row that is rendered without an error has made its five calls. -/
lemma renderStatusRow_calls
    (run : renderStatusRow firmware conout attr column row statusRow units s = (.ok (), t)) :
    ∃ s₁ s₂ s₃ s₄, setCursorPosition firmware conout 0 statusRow s = (efiSuccess, s₁) ∧
      setAttribute firmware conout (invertedAttribute attr) s₁ = (efiSuccess, s₂) ∧
      rawConoutUtf16 firmware conout units s₂ = (efiSuccess, s₃) ∧
      setAttribute firmware conout attr s₃ = (efiSuccess, s₄) ∧
      setCursorPosition firmware conout column row s₄ = (efiSuccess, t) := by
  -- a call is made only if the ones before it have succeeded
  unfold renderStatusRow at run
  dsimp only at run
  rcases first : setCursorPosition firmware conout 0 statusRow s with ⟨status, s₁⟩
  rw [first] at run
  dsimp only at run
  by_cases failed : status = 0
  case neg =>
    have error : firstError none status = some status := if_neg failed
    rw [error] at run
    dsimp only [Option.isNone_some, Bool.false_eq_true, if_false] at run
    simp only [firstError, Bool.false_eq_true, if_false] at run
    cases run
  obtain rfl := failed
  have calm : firstError none 0 = none := rfl
  rw [calm] at run
  simp only [Option.isNone_none, if_true] at run
  rcases second : setAttribute firmware conout (invertedAttribute attr) s₁ with ⟨status, s₂⟩
  rw [second] at run
  dsimp only at run
  by_cases failed : status = 0
  case neg =>
    have error : firstError none status = some status := if_neg failed
    rw [error] at run
    simp only [Option.isNone_some, firstError, Bool.false_eq_true, if_false] at run
    cases run
  obtain rfl := failed
  rw [calm] at run
  simp only [Option.isNone_none, if_true] at run
  -- from here on every call is made, and the first error is kept
  rcases third : rawConoutUtf16 firmware conout units s₂ with ⟨status, s₃⟩
  rw [third] at run
  dsimp only at run
  rcases fourth : setAttribute firmware conout attr s₃ with ⟨status', s₄⟩
  rw [fourth] at run
  dsimp only at run
  rcases fifth : setCursorPosition firmware conout column row s₄ with ⟨status'', s₅⟩
  rw [fifth] at run
  dsimp only at run
  rcases ended : firstError (firstError (firstError none status) status') status'' with _ | error
  case some =>
    rw [ended] at run
    cases run
  rw [ended] at run
  cases run
  obtain ⟨ended4, rfl⟩ := firstError_eq_none.1 ended
  obtain ⟨ended3, rfl⟩ := firstError_eq_none.1 ended4
  obtain ⟨-, rfl⟩ := firstError_eq_none.1 ended3
  exact ⟨s₁, s₂, s₃, s₄, rfl, second, third, fourth, fifth⟩

/-- Five calls that succeed render the status row without an error. -/
lemma renderStatusRow_of_calls {s₁ s₂ s₃ s₄ : ConsoleState σ}
    (first : setCursorPosition firmware conout 0 statusRow s = (efiSuccess, s₁))
    (second : setAttribute firmware conout (invertedAttribute attr) s₁ = (efiSuccess, s₂))
    (third : rawConoutUtf16 firmware conout units s₂ = (efiSuccess, s₃))
    (fourth : setAttribute firmware conout attr s₃ = (efiSuccess, s₄))
    (fifth : setCursorPosition firmware conout column row s₄ = (efiSuccess, t)) :
    renderStatusRow firmware conout attr column row statusRow units s = (.ok (), t) := by
  have calm : firstError none efiSuccess = none := rfl
  unfold renderStatusRow
  simp only [first, calm, Option.isNone_none, if_true, second, third, fourth, fifth]

end StatusRow

section Wrap
variable {σ : Type} {output : σ → List UInt16 → σ × Nat} {units : List UInt16} {width : Nat}

/-- Whether a unit fills the last column. -/
def fillsRow (width column : Nat) (unit : UInt16) : Bool :=
  unit ≠ 0x0008 ∧ unit ≠ 0x000d ∧ unit ≠ 0x000a ∧ column + 1 = width

/-- The column that `write_content_with_wrap` keeps. -/
def nextColumn (width column : Nat) (unit : UInt16) : Nat :=
  if unit = 0x0008 then column - 1
  else if unit = 0x000d then 0
  else if unit = 0x000a then column
  else if column + 1 = width then 0
  else column + 1

/-- A unit as it is sent, with the new line that follows a last column. -/
def wrapUnit (width column : Nat) (unit : UInt16) : List UInt16 :=
  if fillsRow width column unit then [unit, 0x000d, 0x000a] else [unit]

def wrapped (width : Nat) : Nat → List UInt16 → List UInt16
  | _, [] => []
  | column, unit :: units =>
    wrapUnit width column unit ++ wrapped width (nextColumn width column unit) units

/-- The wrapped text of two parts, the second where the first ended. -/
lemma wrapped_append (column : Nat) (units more : List UInt16) :
    wrapped width column (units ++ more) = wrapped width column units ++
      wrapped width (units.foldl (nextColumn width) column) more := by
  induction units generalizing column with
  | nil => rfl
  | cons unit units ih =>
    rw [List.cons_append, wrapped, wrapped, ih, List.append_assoc, List.foldl_cons]

/-- Wrapping brings no zero in. -/
lemma zero_notMem_wrapped (whole : 0 ∉ units) (column : Nat) : 0 ∉ wrapped width column units := by
  induction units generalizing column with
  | nil => exact whole
  | cons unit units ih =>
    rw [List.mem_cons, not_or] at whole
    rw [wrapped, List.mem_append, not_or]
    refine ⟨?_, ih whole.2 _⟩
    unfold wrapUnit
    split
    · rw [List.mem_cons, not_or]
      exact ⟨whole.1, by decide⟩
    · rw [List.mem_singleton]
      exact whole.1

variable {Sent : List UInt16 → σ → σ → Prop}

/-- What is sent one piece at a time is sent. -/
structure Sends (output : σ → List UInt16 → σ × Nat) (Sent : List UInt16 → σ → σ → Prop) : Prop where
  nothing : ∀ s, Sent [] s s
  more : ∀ p q s t u, Sent p s t → Sent q t u → Sent (p ++ q) s u
  piece : ∀ p s t, output s p = (t, 0) → Sent p s t

/-- The loop has sent what lies before the place where it starts again. -/
lemma wrapLoop_ok (sends : Sends output Sent) {front rest : List UInt16} {column column' start stop : Nat}
    {s t : σ} (whole : front ++ rest = units) (start_le : start ≤ front.length)
    (run : wrapLoop units width output rest front.length column start s = (t, .ok (column', stop))) :
    column' = rest.foldl (nextColumn width) column ∧ ∃ sent, Sent sent s t ∧
      sent ++ units.drop stop = front.drop start ++ wrapped width column rest := by
  induction rest generalizing front column start s with
  | nil =>
    rw [List.append_nil] at whole
    cases run
    exact ⟨rfl, [], sends.nothing _, by rw [whole, wrapped, List.append_nil]; rfl⟩
  | cons unit rest ih =>
    have on : front ++ [unit] ++ rest = units := by rw [List.append_assoc, ← whole]; rfl
    have length : (front ++ [unit]).length = front.length + 1 := List.length_append
    -- a unit that is held back goes out with what follows it
    have hold (plain : fillsRow width column unit = false)
        (run : wrapLoop units width output rest (front.length + 1) (nextColumn width column unit)
          start s = (t, .ok (column', stop))) :
        column' = (unit :: rest).foldl (nextColumn width) column ∧ ∃ sent, Sent sent s t ∧
          sent ++ units.drop stop = front.drop start ++ wrapped width column (unit :: rest) := by
      rw [← length] at run
      obtain ⟨columns, sent, made, eq⟩ := ih on (by omega) run
      refine ⟨columns, sent, made, ?_⟩
      rw [eq, List.drop_append_of_le_length start_le, wrapped, wrapUnit, plain, List.append_assoc]
      rfl
    rw [wrapLoop] at run
    by_cases backspace : unit = 0x0008
    · rw [if_pos backspace] at run
      have next : nextColumn width column unit = column - 1 := if_pos backspace
      exact hold (decide_eq_false fun fills => fills.1 backspace) (next ▸ run)
    by_cases carriage : unit = 0x000d
    · rw [if_neg backspace, if_pos carriage] at run
      have next : nextColumn width column unit = 0 := by
        rw [nextColumn, if_neg backspace, if_pos carriage]
      exact hold (decide_eq_false fun fills => fills.2.1 carriage) (next ▸ run)
    by_cases feed : unit = 0x000a
    · rw [if_neg backspace, if_neg carriage, if_pos feed] at run
      have next : nextColumn width column unit = column := by
        rw [nextColumn, if_neg backspace, if_neg carriage, if_pos feed]
      exact hold (decide_eq_false fun fills => fills.2.2.1 feed) (next.symm ▸ run)
    rw [if_neg backspace, if_neg carriage, if_neg feed] at run
    by_cases ends : column + 1 = width
    · rw [if_pos ends] at run
      have fills : fillsRow width column unit = true :=
        decide_eq_true ⟨backspace, carriage, feed, ends⟩
      have next : nextColumn width column unit = 0 := by
        rw [nextColumn, if_neg backspace, if_neg carriage, if_neg feed, if_pos ends]
      have piece : (units.take (front.length + 1)).drop start = front.drop start ++ [unit] := by
        rw [← on, ← length, List.take_left, List.drop_append_of_le_length start_le]
      rw [piece] at run
      rcases first : output s (front.drop start ++ [unit]) with ⟨left, status⟩
      rw [first] at run
      dsimp only at run
      by_cases failed : status ≠ 0
      · rw [if_pos failed] at run
        cases run
      rw [if_neg failed] at run
      obtain rfl : status = 0 := not_not.1 failed
      rcases second : output left [0x000d, 0x000a] with ⟨left', status'⟩
      rw [second] at run
      dsimp only at run
      by_cases failed' : status' ≠ 0
      · rw [if_pos failed'] at run
        cases run
      rw [if_neg failed'] at run
      obtain rfl : status' = 0 := not_not.1 failed'
      rw [← length] at run
      obtain ⟨columns, sent, made, eq⟩ := ih on (Nat.le_refl _) run
      refine ⟨?_, _, sends.more _ _ _ _ _ (sends.piece _ _ _ first)
        (sends.more _ _ _ _ _ (sends.piece _ _ _ second) made), ?_⟩
      · rw [columns, List.foldl_cons, next]
      · rw [List.drop_length, List.nil_append] at eq
        rw [wrapped, wrapUnit, fills, next, ← eq]
        simp
    · rw [if_neg ends] at run
      have next : nextColumn width column unit = column + 1 := by
        rw [nextColumn, if_neg backspace, if_neg carriage, if_neg feed, if_neg ends]
      exact hold (decide_eq_false fun fills => ends fills.2.2.2) (next.symm ▸ run)

/-- A wrapped output sends the wrapped text. -/
lemma writeContentWithWrap_ok (sends : Sends output Sent) {column column' : Nat} {s t : σ}
    (run : writeContentWithWrap units width output column s = (t, .ok column')) :
    column' = units.foldl (nextColumn width) column ∧ Sent (wrapped width column units) s t := by
  unfold writeContentWithWrap at run
  by_cases outside : width = 0 ∨ width ≤ column
  · rw [if_pos outside] at run
    cases run
  rw [if_neg outside] at run
  rcases looped : wrapLoop units width output units 0 column 0 s with ⟨left, error | ⟨last, stop⟩⟩
  · rw [looped] at run
    cases run
  rw [looped] at run
  obtain ⟨columns, sent, made, eq⟩ := wrapLoop_ok sends (List.nil_append units) (Nat.le_refl 0) looped
  rw [List.drop_nil, List.nil_append] at eq
  dsimp only at run
  by_cases more : stop < units.length
  · rw [if_pos more] at run
    rcases final : output left (units.drop stop) with ⟨left', status⟩
    rw [final] at run
    dsimp only at run
    by_cases failed : status ≠ 0
    · rw [if_pos failed] at run
      cases run
    rw [if_neg failed] at run
    obtain rfl : status = 0 := not_not.1 failed
    cases run
    rw [← eq]
    exact ⟨columns, sends.more _ _ _ _ _ made (sends.piece _ _ _ final)⟩
  · rw [if_neg more] at run
    cases run
    rw [List.drop_eq_nil_of_le (Nat.not_lt.1 more), List.append_nil] at eq
    rw [← eq]
    exact ⟨columns, made⟩

end Wrap

section Content
variable {conout : Nat → ConoutReply TextScreen} {s t : ScreenState} {units : List UInt16}
  {column column' width : Nat}

/-- The wrapped text is drawn. -/
lemma rawContentUtf16_ok (whole : 0 ∉ units)
    (run : rawContentUtf16 console conout units column width s = (.ok column', t)) :
    column' = units.foldl (nextColumn width) column ∧
      Draws (fun screen => screen.write (wrapped width column units)) s t := by
  unfold rawContentUtf16 at run
  have sends : Sends (fun s rendered =>
      ((rawConoutUtf16 console conout rendered s).2, (rawConoutUtf16 console conout rendered s).1))
      fun sent s t => 0 ∉ sent → Draws (fun screen => screen.write sent) s t := by
    constructor
    case nothing => exact fun s _ => .refl s
    case more =>
      intro p q s t u first rest whole
      rw [List.mem_append, not_or] at whole
      have drawn := (first whole.1).trans (rest whole.2)
      simp only [← TextScreen.write_append] at drawn
      exact drawn
    case piece =>
      intro p s t made whole
      obtain ⟨left, status⟩ := Prod.mk.inj made
      exact rawConoutUtf16_ok whole (Prod.ext status left)
  dsimp only at run
  rcases wrote : writeContentWithWrap units width (fun s rendered =>
      ((rawConoutUtf16 console conout rendered s).2,
        (rawConoutUtf16 console conout rendered s).1)) column s with
    ⟨left, error | last⟩
  · rw [wrote] at run
    cases run
  · rw [wrote] at run
    cases run
    obtain ⟨columns, sent⟩ := writeContentWithWrap_ok sends wrote
    exact ⟨columns, sent (zero_notMem_wrapped whole column)⟩

end Content

end Promptboot
