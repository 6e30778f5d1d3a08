import Promptboot.Repl.Console

/-!
# Rendering into a buffer

`render_console_text` as it writes: the counting pass with its checked sum, then the writing pass,
unit by unit into the caller's buffer, where an index past the end would panic. Over it the laws of
the rendered text, for any way of cutting the input into pieces.

The helper `writeUnits_eq` says that the writing pass never runs over what the counting pass has
found, from `length_le_neededUnits`; `withReturns_idem` and `withReturns_adds` are the laws of the
rendered text alone. The headline `renderInto_normalises` has them for the pieces of any cut.
-/

namespace Promptboot

/-- A buffer and the units written to it. -/
structure UnitWriter where
  output : List UInt16
  written : Nat

/-- `output[written] = unit` and `written += 1`; `none` is the panic of an index past the end. -/
def UnitWriter.put (writer : UnitWriter) (unit : UInt16) : Option UnitWriter :=
  if writer.written < writer.output.length then
    some ⟨writer.output.set writer.written unit, writer.written + 1⟩
  else
    none

/-- The counting pass; `none` is the overflow of `checked_add`. -/
def countUnits (needed : Nat) (precedingCr : Bool) : List UInt16 → Option Nat
  | [] => some needed
  | unit :: rest =>
    if unit = lineFeed ∧ precedingCr = false then
      if needed + 1 < 2 ^ 64 then countUnits (needed + 1) (unit == carriageReturn) rest else none
    else
      countUnits needed (unit == carriageReturn) rest

/-- The writing pass. -/
def writeUnits (writer : UnitWriter) (precedingCr : Bool) :
    List UInt16 → Option (UnitWriter × Bool)
  | [] => some (writer, precedingCr)
  | unit :: rest =>
    let returned := if unit = lineFeed ∧ precedingCr = false then writer.put carriageReturn
      else some writer
    (returned.bind (·.put unit)).bind (writeUnits · (unit == carriageReturn) rest)

/-- A call of `render_console_text`: its result, and what it leaves in the flag and the buffer. -/
structure RenderCall where
  result : Except Utf8Error Nat
  previousWasCr : Bool
  output : List UInt16

/-- `render_console_text`; `none` is a panic. -/
def renderInto (input : List UInt16) (previousWasCr : Bool) (output : List UInt16) :
    Option RenderCall :=
  match countUnits input.length previousWasCr input with
  | none => some ⟨.error .capacity, previousWasCr, output⟩
  | some needed =>
    if output.length < needed then
      some ⟨.error .capacity, previousWasCr, output⟩
    else
      (writeUnits ⟨output, 0⟩ previousWasCr input).map fun (writer, precedingCr) =>
        ⟨.ok writer.written, precedingCr, writer.output⟩

/-- The units written by calls on one piece after the other, each with a buffer of its own, and the
last flag; `none` when a call fails. -/
def renderPieces (previousWasCr : Bool) :
    List (List UInt16 × List UInt16) → Option (List UInt16 × Bool)
  | [] => some ([], previousWasCr)
  | (piece, output) :: pieces =>
    (renderInto piece previousWasCr output).bind fun call =>
      match call.result with
      | .error _ => none
      | .ok written =>
        (renderPieces call.previousWasCr pieces).map fun (units, flag) =>
          (call.output.take written ++ units, flag)

/-- Every line feed comes right after a carriage return; one before the text counts by the flag. -/
def Returned (previousWasCr : Bool) (units : List UInt16) : Prop :=
  ∀ i, units[i]? = some lineFeed →
    (i = 0 ∧ previousWasCr = true) ∨ ∃ j, i = j + 1 ∧ units[j]? = some carriageReturn

/-- The text is `input` with carriage returns in it, each marked and in front of a line feed of
`input`. -/
def AddsReturns (input units : List UInt16) : Prop :=
  ∃ marks : List (UInt16 × Bool), marks.map Prod.fst = units ∧
    (marks.filter fun mark => !mark.2).map Prod.fst = input ∧
    ∀ i unit, marks[i]? = some (unit, true) →
      unit = carriageReturn ∧ marks[i + 1]? = some (lineFeed, false)

/-- What the console gets for `input`. -/
structure Normalises (previousWasCr : Bool) (input units : List UInt16) (flag : Bool) : Prop where
  /-- One call or many. -/
  pieces : ∀ pieces : List (List UInt16 × List UInt16), (pieces.map Prod.fst).flatten = input →
    (∀ result, renderPieces previousWasCr pieces = some result → result = (units, flag)) ∧
      ((∀ piece ∈ pieces, 2 * piece.1.length ≤ piece.2.length ∧ piece.2.length < 2 ^ 64) →
        renderPieces previousWasCr pieces = some (units, flag))
  returned : Returned previousWasCr units
  again : ∀ output, units.length ≤ output.length → output.length < 2 ^ 64 →
    renderInto units previousWasCr output =
      some ⟨.ok units.length, flag, units ++ output.drop units.length⟩
  adds : AddsReturns input units
  short : units.length ≤ 2 * input.length

section Passes

/-- The units counted, behind those counted before. -/
lemma countUnits_some {needed n : Nat} {cr : Bool} {input : List UInt16}
    (h : countUnits needed cr input = some n) :
    n + input.length = needed + neededUnits cr input := by
  induction input generalizing needed cr with
  | nil =>
    cases h
    rfl
  | cons unit rest ih =>
    rw [countUnits] at h
    rw [neededUnits, List.length_cons]
    split_ifs at h ⊢ <;>
    · have rest_eq := ih h
      omega

/-- A text needs at least its own units. -/
lemma length_le_neededUnits (cr : Bool) (input : List UInt16) :
    input.length ≤ neededUnits cr input := by
  induction input generalizing cr with
  | nil => exact Nat.le_refl 0
  | cons unit rest ih =>
    have more := ih (unit == carriageReturn)
    rw [neededUnits, List.length_cons]
    split_ifs <;> omega

/-- The count succeeds if it fits a word. -/
lemma countUnits_isSome {needed : Nat} {cr : Bool} {input : List UInt16}
    (fits : needed + neededUnits cr input < 2 ^ 64 + input.length) :
    ∃ n, countUnits needed cr input = some n := by
  induction input generalizing needed cr with
  | nil => exact ⟨needed, rfl⟩
  | cons unit rest ih =>
    have more := length_le_neededUnits (unit == carriageReturn) rest
    rw [neededUnits, List.length_cons] at fits
    rw [countUnits]
    split_ifs at fits ⊢ with returns room
    · exact ih (by omega)
    · omega
    · exact ih (by omega)

/-- A unit is put behind those written. -/
lemma put_append (front rest : List UInt16) (old unit : UInt16) :
    UnitWriter.put ⟨front ++ old :: rest, front.length⟩ unit =
      some ⟨(front ++ [unit]) ++ rest, (front ++ [unit]).length⟩ := by
  have inside : front.length < (front ++ old :: rest).length := by
    rw [List.length_append, List.length_cons]
    omega
  rw [UnitWriter.put, if_pos inside, List.set_append_right _ _ (Nat.le_refl _), Nat.sub_self,
    List.set_cons_zero, List.append_assoc, List.singleton_append, List.length_append,
    List.length_singleton]

/-- The writing pass fills what the counting pass counted, and never indexes past it. -/
lemma writeUnits_eq (front : List UInt16) (cr : Bool) (input old : List UInt16)
    (room : neededUnits cr input ≤ old.length) :
    writeUnits ⟨front ++ old, front.length⟩ cr input =
      some (⟨front ++ withReturns cr input ++ old.drop (neededUnits cr input),
        (front ++ withReturns cr input).length⟩, endsInReturn cr input) := by
  induction input generalizing front cr old with
  | nil =>
    show some _ = some _
    rw [withReturns, List.append_nil, neededUnits, List.drop_zero]
    rfl
  | cons unit rest ih =>
    rw [neededUnits] at room
    rw [writeUnits, withReturns, neededUnits]
    split_ifs at room ⊢ with returns
    · obtain ⟨first, old, rfl⟩ := List.exists_cons_of_length_pos (l := old) (by omega)
      rw [List.length_cons] at room
      obtain ⟨second, old, rfl⟩ := List.exists_cons_of_length_pos (l := old) (by omega)
      rw [List.length_cons] at room
      have drops : (first :: second :: old).drop (2 + neededUnits (unit == carriageReturn) rest) =
          old.drop (neededUnits (unit == carriageReturn) rest) := by
        rw [Nat.add_comm]
        rfl
      rw [put_append, Option.bind_some, put_append, Option.bind_some, ih _ _ _ (by omega), drops,
        List.append_assoc front, List.append_assoc front]
      rfl
    · obtain ⟨first, old, rfl⟩ := List.exists_cons_of_length_pos (l := old) (by omega)
      rw [List.length_cons] at room
      have drops : (first :: old).drop (1 + neededUnits (unit == carriageReturn) rest) =
          old.drop (neededUnits (unit == carriageReturn) rest) := by
        rw [Nat.add_comm]
        rfl
      rw [Option.bind_some, put_append, Option.bind_some, ih _ _ _ (by omega), drops,
        List.append_assoc front]
      rfl

/-- A call has room for all of the text, or it leaves everything as it was. -/
lemma renderInto_cases (input : List UInt16) (cr : Bool) (output : List UInt16) :
    renderInto input cr output = some ⟨.error .capacity, cr, output⟩ ∨
      neededUnits cr input ≤ output.length ∧
        renderInto input cr output = some ⟨.ok (withReturns cr input).length,
          endsInReturn cr input,
          withReturns cr input ++ output.drop (withReturns cr input).length⟩ := by
  rw [renderInto]
  cases counted : countUnits input.length cr input with
  | none => exact .inl rfl
  | some needed =>
    have same : needed = neededUnits cr input := by
      have sum := countUnits_some counted
      omega
    subst same
    by_cases short : output.length < neededUnits cr input
    · left
      show (if _ then _ else _) = _
      rw [if_pos short]
    · right
      have wrote := writeUnits_eq [] cr input output (Nat.not_lt.mp short)
      rw [List.nil_append, List.nil_append] at wrote
      refine ⟨Nat.not_lt.mp short, ?_⟩
      show (if _ then _ else _) = _
      rw [if_neg short]
      change writeUnits ⟨output, 0⟩ cr input = _ at wrote
      rw [wrote, Option.map_some, neededUnits_eq]

/-- With room the text is written with its returns. -/
lemma renderInto_room {input : List UInt16} {cr : Bool} {output : List UInt16}
    (room : neededUnits cr input ≤ output.length) (fits : output.length < 2 ^ 64) :
    renderInto input cr output = some ⟨.ok (withReturns cr input).length, endsInReturn cr input,
      withReturns cr input ++ output.drop (withReturns cr input).length⟩ := by
  rcases renderInto_cases input cr output with failed | ⟨-, wrote⟩
  · obtain ⟨needed, counted⟩ : ∃ n, countUnits input.length cr input = some n :=
      countUnits_isSome (by omega)
    have sum := countUnits_some counted
    rw [renderInto, counted] at failed
    change (if _ then _ else _) = _ at failed
    rw [if_neg (by omega)] at failed
    cases wrote : writeUnits ⟨output, 0⟩ cr input with
    | none =>
      rw [wrote] at failed
      cases failed
    | some result =>
      rw [wrote] at failed
      cases failed
  · exact wrote

end Passes

section Laws

/-- Whether a text ends in a return is decided by its last part. -/
lemma endsInReturn_append (cr : Bool) (units more : List UInt16) :
    endsInReturn cr (units ++ more) = endsInReturn (endsInReturn cr units) more :=
  List.foldl_append

/-- Whatever the pieces, the units are those of the whole text. -/
lemma renderPieces_some {cr : Bool} {pieces : List (List UInt16 × List UInt16)}
    {result : List UInt16 × Bool} (h : renderPieces cr pieces = some result) :
    result = (withReturns cr (pieces.map Prod.fst).flatten,
      endsInReturn cr (pieces.map Prod.fst).flatten) := by
  induction pieces generalizing cr result with
  | nil =>
    cases h
    rfl
  | cons piece pieces ih =>
    obtain ⟨piece, output⟩ := piece
    rw [renderPieces] at h
    rcases renderInto_cases piece cr output with failed | ⟨-, wrote⟩
    · rw [failed] at h
      cases h
    · rw [wrote, Option.bind_some] at h
      obtain ⟨⟨units, flag⟩, later, rfl⟩ := Option.map_eq_some_iff.mp h
      cases ih later
      rw [List.map_cons, List.flatten_cons, withReturns_append, endsInReturn_append]
      show (List.take _ (_ ++ _) ++ _, _) = _
      rw [List.take_left]

/-- Pieces with room are rendered one after another. -/
lemma renderPieces_room (cr : Bool) {pieces : List (List UInt16 × List UInt16)}
    (room : ∀ piece ∈ pieces, 2 * piece.1.length ≤ piece.2.length ∧ piece.2.length < 2 ^ 64) :
    ∃ result, renderPieces cr pieces = some result := by
  induction pieces generalizing cr with
  | nil => exact ⟨_, rfl⟩
  | cons piece pieces ih =>
    obtain ⟨piece, output⟩ := piece
    obtain ⟨twice, fits⟩ := room _ List.mem_cons_self
    have enough : neededUnits cr piece ≤ output.length := by
      rw [neededUnits_eq]
      exact (length_withReturns cr piece).trans twice
    obtain ⟨result, later⟩ :=
      ih (endsInReturn cr piece) fun p mem => room p (List.mem_cons_of_mem _ mem)
    rw [renderPieces, renderInto_room enough fits, Option.bind_some]
    show ∃ result, Option.map _ (renderPieces (endsInReturn cr piece) pieces) = some result
    rw [later]
    exact ⟨_, rfl⟩

/-- A unit in front of a text with returns. -/
lemma returned_cons {cr : Bool} {unit : UInt16} {units : List UInt16}
    (first : unit = lineFeed → cr = true) (rest : Returned (unit == carriageReturn) units) :
    Returned cr (unit :: units) := by
  intro i there
  cases i with
  | zero => exact .inl ⟨rfl, first (Option.some.inj there)⟩
  | succ i =>
    right
    refine ⟨i, rfl, ?_⟩
    rcases rest i there with ⟨rfl, ends⟩ | ⟨j, rfl, before⟩
    · rw [beq_iff_eq.mp ends]
      rfl
    · exact before

/-- Behind the rendering every line feed has its return. -/
lemma withReturns_returned (cr : Bool) (input : List UInt16) :
    Returned cr (withReturns cr input) := by
  induction input generalizing cr with
  | nil => exact nofun
  | cons unit rest ih =>
    rw [withReturns]
    split_ifs with returns
    · refine returned_cons (fun eq => absurd eq (by decide)) (returned_cons (fun _ => rfl) (ih _))
    · refine returned_cons (fun eq => ?_) (ih _)
      cases cr with
      | true => rfl
      | false => exact absurd ⟨eq, rfl⟩ returns

/-- A text whose line feeds have their returns gets no more. -/
lemma withReturns_idem (cr : Bool) (input : List UInt16) :
    withReturns cr (withReturns cr input) = withReturns cr input ∧
      endsInReturn cr (withReturns cr input) = endsInReturn cr input := by
  induction input generalizing cr with
  | nil => exact ⟨rfl, rfl⟩
  | cons unit rest ih =>
    obtain ⟨same, flag⟩ := ih (unit == carriageReturn)
    by_cases returns : unit = lineFeed ∧ cr = false
    · obtain ⟨rfl, rfl⟩ := returns
      have kept : withReturns true (lineFeed :: withReturns false rest) =
          lineFeed :: withReturns false (withReturns false rest) := rfl
      have out : withReturns false (lineFeed :: rest) =
          carriageReturn :: lineFeed :: withReturns false rest := rfl
      rw [out]
      exact ⟨congrArg (carriageReturn :: lineFeed :: ·) same, flag⟩
    · have out : withReturns cr (unit :: rest) =
          unit :: withReturns (unit == carriageReturn) rest := by
        rw [withReturns, if_neg returns, List.singleton_append]
      rw [out, withReturns, if_neg returns, List.singleton_append, same]
      exact ⟨rfl, flag⟩

/-- A unit that is kept in front. -/
lemma AddsReturns.cons {input units : List UInt16} (h : AddsReturns input units) (unit : UInt16) :
    AddsReturns (unit :: input) (unit :: units) := by
  obtain ⟨marks, rfl, rfl, marked⟩ := h
  refine ⟨(unit, false) :: marks, rfl, rfl, fun i added there => ?_⟩
  cases i with
  | zero => cases there
  | succ i => exact marked i added there

/-- A return goes in front of a line feed. -/
lemma AddsReturns.add {input units : List UInt16} (h : AddsReturns input units) :
    AddsReturns (lineFeed :: input) (carriageReturn :: lineFeed :: units) := by
  obtain ⟨marks, rfl, rfl, marked⟩ := h
  refine ⟨(carriageReturn, true) :: (lineFeed, false) :: marks, rfl, rfl, fun i added there => ?_⟩
  match i, there with
  | 0, there =>
    cases there
    exact ⟨rfl, rfl⟩
  | i + 2, there => exact marked i added there

/-- The rendering adds returns only. -/
lemma withReturns_adds (cr : Bool) (input : List UInt16) :
    AddsReturns input (withReturns cr input) := by
  induction input generalizing cr with
  | nil => exact ⟨[], rfl, rfl, nofun⟩
  | cons unit rest ih =>
    rw [withReturns]
    split_ifs with returns
    · rw [returns.1]
      exact (ih _).add
    · exact (ih _).cons unit

/-- The rendering normalises its input. -/
lemma withReturns_normalises (cr : Bool) (input : List UInt16) :
    Normalises cr input (withReturns cr input) (endsInReturn cr input) where
  pieces pieces whole := by
    subst whole
    refine ⟨fun result run => renderPieces_some run, fun room => ?_⟩
    obtain ⟨result, run⟩ := renderPieces_room cr room
    rw [run, renderPieces_some run]
  returned := withReturns_returned cr input
  again output room fits := by
    obtain ⟨same, flag⟩ := withReturns_idem cr input
    rw [renderInto_room (by rwa [neededUnits_eq, same]) fits, same, flag]
  adds := withReturns_adds cr input
  short := length_withReturns cr input

end Laws

/-- A call never panics: it fails and changes nothing, or it normalises its input; and it does the
latter when the buffer is long enough. -/
theorem renderInto_normalises (input : List UInt16) (previousWasCr : Bool)
    (output : List UInt16) :
    (renderInto input previousWasCr output = some ⟨.error .capacity, previousWasCr, output⟩ ∨
      ∃ units flag, Normalises previousWasCr input units flag ∧
        renderInto input previousWasCr output =
          some ⟨.ok units.length, flag, units ++ output.drop units.length⟩) ∧
    (2 * input.length ≤ output.length → output.length < 2 ^ 64 →
      renderInto input previousWasCr output ≠ some ⟨.error .capacity, previousWasCr, output⟩) := by
  refine ⟨?_, fun twice fits => ?_⟩
  · rcases renderInto_cases input previousWasCr output with failed | ⟨-, wrote⟩
    · exact .inl failed
    · exact .inr ⟨_, _, withReturns_normalises previousWasCr input, wrote⟩
  · have enough : neededUnits previousWasCr input ≤ output.length := by
      rw [neededUnits_eq]
      exact (length_withReturns previousWasCr input).trans twice
    rw [renderInto_room enough fits]
    intro same
    cases Option.some.inj same

/-- A line feed in a buffer of three units. -/
theorem renderInto_normalises_lineFeed :
    ∃ units flag, Normalises false [lineFeed] units flag ∧
      renderInto [lineFeed] false [0, 0, 7] =
        some ⟨.ok units.length, flag, units ++ [0, 0, 7].drop units.length⟩ :=
  (renderInto_normalises [lineFeed] false [0, 0, 7]).1.resolve_left
    ((renderInto_normalises [lineFeed] false [0, 0, 7]).2 (by decide) (by decide))

end Promptboot
