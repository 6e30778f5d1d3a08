import Mathlib.Tactic.Common
import Mathlib.Data.List.Basic
import Mathlib.Algebra.Group.Int.Defs
import Mathlib.Algebra.Group.Nat.Defs

/-!
# The line editor

`Editor::process_key` (`editor.rs`) over its fixed buffer, and the line discipline it implements: a
line as a list, an index that never ends, and the terminator with which the last key ended a line.
The editor's calls are those of the discipline as long as the index fits.

`keyCase` splits the keys once for all, and `Follows` relates the editor to the discipline;
`Follows.terminated`, `Follows.backspaced`, `Follows.printed` and `Follows.ignored` are its cases
and `Follows.processKey` the step. `Numbered` is the invariant of the indices. The headline
`editor_follows_discipline` is the run.
-/

namespace Promptboot

def lineCapacity : Nat := 512

inductive Flow where
  | proceed | promptIndexOverflow
  deriving DecidableEq

/-- A call of the editor's output. -/
inductive EditorCall where
  | live (byte : UInt8)
  | erase
  | accepted (promptIndex : Nat) (line : List UInt8)
  | rejected (promptIndex : Nat)
  | prompt (promptIndex : Nat)
  deriving DecidableEq

structure Editor where
  buffer : Vector UInt8 lineCapacity
  length : Nat
  promptIndex : Nat
  discardUntilEnter : Bool
  pendingTerminator : UInt8

/-- What a key, or a sequence of keys, makes of the editor. -/
structure EditorStep where
  flow : Flow
  calls : List EditorCall
  editor : Editor

/-- `checked_add(1)` on 64 bits -/
def checkedNext (promptIndex : Nat) : Option Nat :=
  if promptIndex + 1 < 2 ^ 64 then some (promptIndex + 1) else none

namespace Editor

/-- A new editor; `new` starts at index 1. -/
def startingAt (promptIndex : Nat) : Editor := ⟨Vector.replicate _ 0, 0, promptIndex, false, 0⟩

def new : Editor := startingAt 1

def clear (e : Editor) : Editor := { e with buffer := Vector.replicate _ 0, length := 0 }

def line (e : Editor) : List UInt8 := e.buffer.toList.take e.length

def processKey (e : Editor) (unicodeChar : UInt16) : EditorStep :=
  let current : UInt8 := if unicodeChar ≤ 255 then unicodeChar.toUInt8 else 0
  if (e.pendingTerminator = 13 ∧ current = 10) ∨ (e.pendingTerminator = 10 ∧ current = 13) then
    ⟨.proceed, [], { e with pendingTerminator := 0 }⟩
  else
    let e := { e with pendingTerminator := 0 }
    if e.discardUntilEnter then
      if current = 13 ∨ current = 10 then
        let e := { e with pendingTerminator := current, discardUntilEnter := false }
        match checkedNext e.promptIndex with
        | none => ⟨.promptIndexOverflow, [], e⟩
        | some next => ⟨.proceed, [.prompt next], { e with promptIndex := next }⟩
      else
        ⟨.proceed, [], e⟩
    else if current = 13 ∨ current = 10 then
      match checkedNext e.promptIndex with
      | none => ⟨.promptIndexOverflow, [], e.clear⟩
      | some next =>
        ⟨.proceed, [.accepted e.promptIndex e.line, .prompt next],
          { e.clear with promptIndex := next, pendingTerminator := current }⟩
    else if current = 8 then
      if e.length ≠ 0 then
        ⟨.proceed, [.erase], { e with
          length := e.length - 1
          buffer := e.buffer.setIfInBounds (e.length - 1) 0 }⟩
      else
        ⟨.proceed, [], e⟩
    else if (0x20 ≤ current ∧ current ≤ 0x7e) ∧ unicodeChar ≤ 255 then
      if e.length = lineCapacity then
        if (checkedNext e.promptIndex).isNone then ⟨.promptIndexOverflow, [], e.clear⟩
        else ⟨.proceed, [.rejected e.promptIndex], { e.clear with discardUntilEnter := true }⟩
      else
        ⟨.proceed, [.live current], { e with
          buffer := e.buffer.setIfInBounds e.length current
          length := e.length + 1 }⟩
    else
      ⟨.proceed, [], e⟩

/-- The keys of a session, up to the one at which the index overflows. -/
def feed (e : Editor) : List UInt16 → EditorStep
  | [] => ⟨.proceed, [], e⟩
  | key :: keys =>
    let step := e.processKey key
    match step.flow with
    | .promptIndexOverflow => step
    | .proceed =>
      let rest := step.editor.feed keys
      ⟨rest.flow, step.calls ++ rest.calls, rest.editor⟩

end Editor

/-- What a key means. -/
inductive LineKey where
  | terminator (byte : UInt8)
  | backspace
  | printable (byte : UInt8)
  | other

def lineKey (key : UInt16) : LineKey :=
  if key = 13 ∨ key = 10 then .terminator key.toUInt8
  else if key = 8 then .backspace
  else if 0x20 ≤ key ∧ key ≤ 0x7e then .printable key.toUInt8
  else .other

/-- The reference: the line so far, whether it was too long, its index, and the terminator if the
key before ended a line. -/
structure Discipline where
  line : List UInt8
  discarding : Bool
  index : Nat
  ended : Option UInt8

namespace Discipline

def new : Discipline := ⟨[], false, 1, none⟩

def opposite (byte : UInt8) : UInt8 := if byte = 13 then 10 else 13

def key (d : Discipline) : LineKey → List EditorCall × Discipline
  | .terminator byte =>
    if d.ended = some (opposite byte) then ([], { d with ended := none })
    else
      ((if d.discarding then [] else [.accepted d.index d.line]) ++ [.prompt (d.index + 1)],
        ⟨[], false, d.index + 1, some byte⟩)
  | .backspace =>
    if d.discarding ∨ d.line = [] then ([], { d with ended := none })
    else ([.erase], { d with line := d.line.dropLast, ended := none })
  | .printable byte =>
    if d.discarding then ([], { d with ended := none })
    else if d.line.length = lineCapacity then
      ([.rejected d.index], ⟨[], true, d.index, none⟩)
    else ([.live byte], { d with line := d.line ++ [byte], ended := none })
  | .other => ([], { d with ended := none })

def feed (d : Discipline) : List UInt16 → List EditorCall × Discipline
  | [] => ([], d)
  | k :: keys =>
    let (calls, next) := d.key (lineKey k)
    let (rest, last) := next.feed keys
    (calls ++ rest, last)

end Discipline

/-- The indices of the lines that were accepted or rejected. -/
def resolvedLines (calls : List EditorCall) : List Nat :=
  calls.filterMap fun
    | .accepted promptIndex _ | .rejected promptIndex => some promptIndex
    | _ => none

/-- The indices of the prompts. -/
def prompts (calls : List EditorCall) : List Nat :=
  calls.filterMap fun
    | .prompt promptIndex => some promptIndex
    | _ => none

/-- Every accepted line is what is shown: the live characters since the last prompt without those
erased. -/
def Echoes : List UInt8 → List EditorCall → Prop
  | _, [] => True
  | shown, .live byte :: calls => Echoes (shown ++ [byte]) calls
  | shown, .erase :: calls => Echoes shown.dropLast calls
  | shown, .accepted _ line :: calls => line = shown ∧ Echoes shown calls
  | shown, .rejected _ :: calls => Echoes shown calls
  | _, .prompt _ :: calls => Echoes [] calls

namespace Editor

/-- The editor and the discipline are at one point of one line. -/
structure Follows (e : Editor) (d : Discipline) : Prop where
  buffer : e.buffer.toList = d.line ++ List.replicate (lineCapacity - d.line.length) 0
  length : e.length = d.line.length
  short : d.line.length ≤ lineCapacity
  index : e.promptIndex = d.index
  discarding : e.discardUntilEnter = d.discarding
  pending : d.ended = if e.pendingTerminator = 0 then none else some e.pendingTerminator
  terminator : e.pendingTerminator = 0 ∨ e.pendingTerminator = 13 ∨ e.pendingTerminator = 10
  fits : d.discarding = true → d.line = [] ∧ d.index + 1 < 2 ^ 64

/-- The byte that `process_key` reads off a key. -/
def keyByte (key : UInt16) : UInt8 := if key ≤ 255 then key.toUInt8 else 0

/-- The tests of `process_key` on the byte of a key, and what the key means. -/
inductive KeyCase (key : UInt16) : Prop where
  | terminator : keyByte key = 13 ∨ keyByte key = 10 → lineKey key = .terminator (keyByte key) →
    KeyCase key
  | backspace : keyByte key = 8 → lineKey key = .backspace → KeyCase key
  | printable : (0x20 ≤ keyByte key ∧ keyByte key ≤ 0x7e) ∧ key ≤ 255 →
    lineKey key = .printable (keyByte key) → KeyCase key
  | other : keyByte key ≠ 13 → keyByte key ≠ 10 → keyByte key ≠ 8 →
    ¬((0x20 ≤ keyByte key ∧ keyByte key ≤ 0x7e) ∧ key ≤ 255) → lineKey key = .other → KeyCase key

/-- A key is one of the cases. -/
lemma keyCase (key : UInt16) : KeyCase key := by
  have byte (small : key.toNat ≤ 255) : (keyByte key).toNat = key.toNat := by
    have le : key ≤ 255 := UInt16.le_iff_toNat_le.mpr small
    rw [keyByte, if_pos le, UInt16.toNat_toUInt8]
    omega
  by_cases terminator : key = 13 ∨ key = 10
  · refine .terminator ?_ ?_
    · rcases terminator with rfl | rfl
      · exact .inl rfl
      · exact .inr rfl
    · rw [lineKey, if_pos terminator]
      rcases terminator with rfl | rfl <;> rfl
  by_cases backspace : key = 8
  · subst backspace
    exact .backspace rfl rfl
  by_cases printable : 0x20 ≤ key ∧ key ≤ 0x7e
  · have low : 32 ≤ key.toNat := UInt16.le_iff_toNat_le.mp printable.1
    have high : key.toNat ≤ 126 := UInt16.le_iff_toNat_le.mp printable.2
    have value := byte (by omega)
    have le : key ≤ 255 := UInt16.le_iff_toNat_le.mpr (show key.toNat ≤ 255 by omega)
    refine .printable ⟨⟨UInt8.le_iff_toNat_le.mpr ?_, UInt8.le_iff_toNat_le.mpr ?_⟩, le⟩ ?_
    · rw [value]
      exact low
    · rw [value]
      exact high
    · rw [lineKey, if_neg terminator, if_neg backspace, if_pos printable, keyByte, if_pos le]
  have no_terminator : key.toNat ≠ 13 ∧ key.toNat ≠ 10 := by
    constructor
    · exact fun eq => terminator (.inl (UInt16.toNat_inj.mp eq))
    · exact fun eq => terminator (.inr (UInt16.toNat_inj.mp eq))
  have no_backspace : key.toNat ≠ 8 := fun eq => backspace (UInt16.toNat_inj.mp eq)
  -- a key beyond a byte has the byte zero, so no control key is taken for another
  have value (n : UInt8) (positive : n ≠ 0) (eq : keyByte key = n) : key.toNat = n.toNat := by
    by_cases small : key.toNat ≤ 255
    · rw [← byte small, eq]
    · have large : ¬key ≤ 255 := fun le => small (UInt16.le_iff_toNat_le.mp le)
      rw [keyByte, if_neg large] at eq
      exact absurd eq.symm positive
  refine .other (fun eq => no_terminator.1 (value _ (by decide) eq))
    (fun eq => no_terminator.2 (value _ (by decide) eq))
    (fun eq => no_backspace (value _ (by decide) eq)) ?_ ?_
  · rintro ⟨⟨low, high⟩, le⟩
    have same := byte (UInt16.le_iff_toNat_le.mp le)
    refine printable ⟨UInt16.le_iff_toNat_le.mpr ?_, UInt16.le_iff_toNat_le.mpr ?_⟩
    · rw [← same]
      exact UInt8.le_iff_toNat_le.mp low
    · rw [← same]
      exact UInt8.le_iff_toNat_le.mp high
  · rw [lineKey, if_neg terminator, if_neg backspace, if_neg printable]

variable {e : Editor} {d : Discipline} {key : UInt16}

/-- What a key does to an editor that follows the discipline: what the discipline does, or the index
overflows as a line ends or is rejected. -/
inductive Answers (d : Discipline) (key : UInt16) (step : EditorStep) : Prop where
  | proceeds : step.flow = .proceed → step.calls = (d.key (lineKey key)).1 →
    step.editor.Follows (d.key (lineKey key)).2 → Answers d key step
  | overflows : step.flow = .promptIndexOverflow → d.discarding = false →
    (∃ i ∈ resolvedLines (d.key (lineKey key)).1, 2 ^ 64 ≤ i + 1) →
    (∃ d', step.editor.Follows d') → Answers d key step

/-- An editor starts with an empty line. -/
lemma follows_startingAt (promptIndex : Nat) :
    (startingAt promptIndex).Follows ⟨[], false, promptIndex, none⟩ where
  buffer := Vector.toList_replicate
  length := rfl
  short := Nat.zero_le _
  index := rfl
  discarding := rfl
  pending := rfl
  terminator := .inl rfl
  fits := nofun

/-- Clearing the buffer starts a line over. -/
lemma clear_follows (e : Editor) (index : Nat) (discarding : Bool) (pending : UInt8)
    (terminator : pending = 0 ∨ pending = 13 ∨ pending = 10)
    (fits : discarding = true → index + 1 < 2 ^ 64) :
    Follows { e.clear with
      promptIndex := index
      discardUntilEnter := discarding
      pendingTerminator := pending }
      ⟨[], discarding, index, if pending = 0 then none else some pending⟩ where
  buffer := Vector.toList_replicate
  length := rfl
  short := Nat.zero_le _
  index := rfl
  discarding := rfl
  pending := rfl
  terminator := terminator
  fits discards := ⟨rfl, fits discards⟩

/-- A key without effect ends the pairing of terminators. -/
lemma Follows.unpaired (h : e.Follows d) :
    Follows { e with pendingTerminator := 0 } { d with ended := none } where
  buffer := h.buffer
  length := h.length
  short := h.short
  index := h.index
  discarding := h.discarding
  pending := rfl
  terminator := .inl rfl
  fits := h.fits

/-- A printable byte goes to the end of the line. -/
lemma Follows.append (h : e.Follows d) (listening : d.discarding = false)
    (room : d.line.length < lineCapacity) (byte : UInt8) :
    Follows { e with
        buffer := e.buffer.setIfInBounds e.length byte
        length := e.length + 1
        pendingTerminator := 0 }
      { d with line := d.line ++ [byte], ended := none } where
  buffer := by
    obtain ⟨n, hn⟩ := Nat.exists_eq_add_of_lt room
    have rest : lineCapacity - d.line.length = n + 1 := by omega
    have rest' : lineCapacity - (d.line ++ [byte]).length = n := by
      rw [List.length_append, List.length_singleton]
      omega
    rw [Vector.toList_setIfInBounds, h.buffer, h.length, List.set_append_right _ _ (Nat.le_refl _),
      Nat.sub_self, rest, rest', List.replicate_succ, List.set_cons_zero, List.append_assoc,
      List.singleton_append]
  length := by rw [List.length_append, h.length, List.length_singleton]
  short := by
    rw [List.length_append, List.length_singleton]
    exact room
  index := h.index
  discarding := h.discarding
  pending := rfl
  terminator := .inl rfl
  fits discards := by
    rw [listening] at discards
    cases discards

/-- A backspace takes the last byte off the line. -/
lemma Follows.erase (h : e.Follows d) (listening : d.discarding = false) (shown : d.line ≠ []) :
    Follows { e with
        length := e.length - 1
        buffer := e.buffer.setIfInBounds (e.length - 1) 0
        pendingTerminator := 0 }
      { d with line := d.line.dropLast, ended := none } where
  buffer := by
    obtain ⟨init, last, eq⟩ := (List.eq_nil_or_concat' d.line).resolve_left shown
    have short := h.short
    have buffer := h.buffer
    have length := h.length
    rw [eq, List.length_append, List.length_singleton] at short length buffer
    have rest : lineCapacity - init.length = lineCapacity - (init.length + 1) + 1 := by omega
    rw [eq, List.dropLast_concat, Vector.toList_setIfInBounds, buffer, length, Nat.add_sub_cancel,
      List.append_assoc, List.set_append_right _ _ (Nat.le_refl _), Nat.sub_self,
      List.singleton_append, List.set_cons_zero, rest, List.replicate_succ]
  length := by
    show e.length - 1 = _
    rw [h.length, List.length_dropLast]
  short := by
    have short := h.short
    rw [List.length_dropLast]
    omega
  index := h.index
  discarding := h.discarding
  pending := rfl
  terminator := .inl rfl
  fits discards := by
    rw [listening] at discards
    cases discards

/-- The editor's line is the line of the discipline. -/
lemma Follows.line_eq (h : e.Follows d) : e.line = d.line := by
  rw [line, h.buffer, h.length, List.take_left]

/-- The swallowed terminators are those that pair with the one before. -/
lemma Follows.paired_iff (h : e.Follows d) (byte : UInt8) (terminator : byte = 13 ∨ byte = 10) :
    ((e.pendingTerminator = 13 ∧ byte = 10) ∨ (e.pendingTerminator = 10 ∧ byte = 13)) ↔
      d.ended = some (Discipline.opposite byte) := by
  rw [h.pending]
  rcases h.terminator with eq | eq | eq <;> rcases terminator with rfl | rfl <;> rw [eq] <;> decide

/-- What a key does, case by case. -/
lemma processKey_eq (e : Editor) (key : UInt16) :
    e.processKey key =
      if (e.pendingTerminator = 13 ∧ keyByte key = 10) ∨
          (e.pendingTerminator = 10 ∧ keyByte key = 13) then
        ⟨.proceed, [], { e with pendingTerminator := 0 }⟩
      else if e.discardUntilEnter then
        if keyByte key = 13 ∨ keyByte key = 10 then
          match checkedNext e.promptIndex with
          | none => ⟨.promptIndexOverflow, [], { e with
              pendingTerminator := keyByte key, discardUntilEnter := false }⟩
          | some next => ⟨.proceed, [.prompt next], { e with
              pendingTerminator := keyByte key, discardUntilEnter := false, promptIndex := next }⟩
        else
          ⟨.proceed, [], { e with pendingTerminator := 0 }⟩
      else if keyByte key = 13 ∨ keyByte key = 10 then
        match checkedNext e.promptIndex with
        | none => ⟨.promptIndexOverflow, [], { e.clear with pendingTerminator := 0 }⟩
        | some next =>
          ⟨.proceed, [.accepted e.promptIndex e.line, .prompt next],
            { e.clear with promptIndex := next, pendingTerminator := keyByte key }⟩
      else if keyByte key = 8 then
        if e.length ≠ 0 then
          ⟨.proceed, [.erase], { e with
            length := e.length - 1
            buffer := e.buffer.setIfInBounds (e.length - 1) 0
            pendingTerminator := 0 }⟩
        else
          ⟨.proceed, [], { e with pendingTerminator := 0 }⟩
      else if (0x20 ≤ keyByte key ∧ keyByte key ≤ 0x7e) ∧ key ≤ 255 then
        if e.length = lineCapacity then
          if (checkedNext e.promptIndex).isNone then
            ⟨.promptIndexOverflow, [], { e.clear with pendingTerminator := 0 }⟩
          else
            ⟨.proceed, [.rejected e.promptIndex],
              { e.clear with pendingTerminator := 0, discardUntilEnter := true }⟩
        else
          ⟨.proceed, [.live (keyByte key)], { e with
            buffer := e.buffer.setIfInBounds e.length (keyByte key)
            length := e.length + 1
            pendingTerminator := 0 }⟩
      else
        ⟨.proceed, [], { e with pendingTerminator := 0 }⟩ := rfl

/-- A terminator ends the line or pairs with the one before. -/
lemma Follows.terminated (h : e.Follows d) (terminator : keyByte key = 13 ∨ keyByte key = 10)
    (meaning : lineKey key = .terminator (keyByte key)) : Answers d key (e.processKey key) := by
  have nonzero : keyByte key ≠ 0 := by
    rcases terminator with eq | eq <;> rw [eq] <;> decide
  have pending : keyByte key = 0 ∨ keyByte key = 13 ∨ keyByte key = 10 := .inr terminator
  rw [processKey_eq]
  by_cases paired : d.ended = some (Discipline.opposite (keyByte key))
  · rw [if_pos ((h.paired_iff _ terminator).mpr paired)]
    refine .proceeds rfl ?_ ?_ <;> rw [meaning, Discipline.key, if_pos paired]
    exact h.unpaired
  have fresh := e.clear_follows (d.index + 1) false (keyByte key) pending nofun
  rw [if_neg nonzero] at fresh
  rw [if_neg (mt (h.paired_iff _ terminator).mp paired), h.discarding, h.index]
  cases discards : d.discarding with
  | true =>
    -- the rejected line was cleared at once, and its successor has an index
    obtain ⟨empty, fits⟩ := h.fits discards
    have buffer := h.buffer
    rw [empty] at buffer
    rw [if_pos rfl, if_pos terminator, checkedNext, if_pos fits]
    refine .proceeds rfl ?_ ?_ <;> rw [meaning, Discipline.key, if_neg paired]
    · rw [discards]
      rfl
    · exact ⟨buffer, h.length.trans (by rw [empty]), fresh.short, rfl, rfl, fresh.pending, pending,
        nofun⟩
  | false =>
    rw [if_neg Bool.false_ne_true, if_pos terminator, checkedNext]
    by_cases fits : d.index + 1 < 2 ^ 64
    · rw [if_pos fits]
      refine .proceeds rfl ?_ ?_ <;> rw [meaning, Discipline.key, if_neg paired, discards]
      · rw [h.line_eq]
        rfl
      · exact ⟨fresh.buffer, rfl, fresh.short, rfl, h.discarding.trans discards, fresh.pending,
          pending, nofun⟩
    -- no index is left for the next prompt, so the line is lost
    · rw [if_neg fits]
      refine .overflows rfl discards ⟨d.index, ?_, Nat.not_lt.mp fits⟩
        ⟨_, e.clear_follows e.promptIndex e.discardUntilEnter 0 (.inl rfl) fun discarding => ?_⟩
      · rw [meaning, Discipline.key, if_neg paired, discards]
        exact List.mem_singleton_self _
      · rw [h.discarding, discards] at discarding
        cases discarding

/-- A key that is no terminator never pairs. -/
lemma not_paired (pending : UInt8) (cr : keyByte key ≠ 13) (lf : keyByte key ≠ 10) :
    ¬((pending = 13 ∧ keyByte key = 10) ∨ (pending = 10 ∧ keyByte key = 13)) := by
  rintro (⟨-, eq⟩ | ⟨-, eq⟩)
  · exact lf eq
  · exact cr eq

/-- A key that does nothing, in the editor as in the discipline. -/
lemma Follows.silent (h : e.Follows d)
    (same : e.processKey key = ⟨.proceed, [], { e with pendingTerminator := 0 }⟩)
    (silent : d.key (lineKey key) = ([], { d with ended := none })) :
    Answers d key (e.processKey key) := by
  rw [same]
  refine .proceeds rfl ?_ ?_ <;> rw [silent]
  exact h.unpaired

/-- While the line is discarded only a terminator has an effect. -/
lemma processKey_discarding (discards : e.discardUntilEnter = true) (cr : keyByte key ≠ 13)
    (lf : keyByte key ≠ 10) :
    e.processKey key = ⟨.proceed, [], { e with pendingTerminator := 0 }⟩ := by
  rw [processKey_eq, if_neg (not_paired _ cr lf), if_pos discards, if_neg (not_or.mpr ⟨cr, lf⟩)]

/-- A backspace is answered as the discipline says. -/
lemma Follows.backspaced (h : e.Follows d) (byte : keyByte key = 8)
    (meaning : lineKey key = .backspace) : Answers d key (e.processKey key) := by
  have cr : keyByte key ≠ 13 := by
    rw [byte]
    decide
  have lf : keyByte key ≠ 10 := by
    rw [byte]
    decide
  cases discards : d.discarding with
  | true =>
    refine h.silent (processKey_discarding (h.discarding.trans discards) cr lf) ?_
    rw [meaning, Discipline.key, if_pos (.inl discards)]
  | false =>
    have listening : ¬e.discardUntilEnter = true := by
      rw [h.discarding, discards]
      exact Bool.false_ne_true
    have step := processKey_eq e key
    rw [if_neg (not_paired _ cr lf), if_neg listening, if_neg (not_or.mpr ⟨cr, lf⟩),
      if_pos byte] at step
    by_cases empty : d.line = []
    · have none_shown : e.length = 0 := h.length.trans (List.length_eq_zero_iff.mpr empty)
      refine h.silent (step.trans (if_neg (not_not.mpr none_shown))) ?_
      rw [meaning, Discipline.key, if_pos (.inr empty)]
    · have some_shown : e.length ≠ 0 := by
        rw [h.length]
        exact mt List.length_eq_zero_iff.mp empty
      have reference : d.key .backspace =
          ([.erase], { d with line := d.line.dropLast, ended := none }) := by
        rw [Discipline.key, if_neg]
        rw [discards]
        exact not_or.mpr ⟨Bool.false_ne_true, empty⟩
      rw [step, if_pos some_shown]
      refine .proceeds rfl ?_ ?_ <;> rw [meaning, reference]
      exact h.erase discards empty

/-- A printable key is answered as the discipline says. -/
lemma Follows.printed (h : e.Follows d)
    (printable : (0x20 ≤ keyByte key ∧ keyByte key ≤ 0x7e) ∧ key ≤ 255)
    (meaning : lineKey key = .printable (keyByte key)) : Answers d key (e.processKey key) := by
  have low : 32 ≤ (keyByte key).toNat := UInt8.le_iff_toNat_le.mp printable.1.1
  have no_control (n : UInt8) (small : n.toNat < 32) : keyByte key ≠ n := by
    rintro rfl
    omega
  have cr : keyByte key ≠ 13 := no_control _ (by decide)
  have lf : keyByte key ≠ 10 := no_control _ (by decide)
  have backspace : keyByte key ≠ 8 := no_control _ (by decide)
  -- a line that is too long is discarded up to its end
  cases discards : d.discarding with
  | true =>
    refine h.silent (processKey_discarding (h.discarding.trans discards) cr lf) ?_
    rw [meaning, Discipline.key, if_pos discards]
  | false =>
    have listening : ¬d.discarding = true := by
      rw [discards]
      exact Bool.false_ne_true
    have step := processKey_eq e key
    rw [if_neg (not_paired _ cr lf), if_neg (by rwa [h.discarding]),
      if_neg (not_or.mpr ⟨cr, lf⟩), if_neg backspace, if_pos printable] at step
    by_cases full : d.line.length = lineCapacity
    -- the key is not stored, and the rest of the line goes with it
    · have reference : d.key (.printable (keyByte key)) =
          ([.rejected d.index], ⟨[], true, d.index, none⟩) := by
        rw [Discipline.key, if_neg listening, if_pos full]
      rw [if_pos (h.length.trans full), checkedNext, h.index] at step
      rw [step]
      by_cases fits : d.index + 1 < 2 ^ 64
      · have fresh := e.clear_follows d.index true 0 (.inl rfl) fun _ => fits
        rw [if_pos fits]
        refine .proceeds rfl ?_ ?_ <;> rw [meaning, reference]
        · rfl
        · exact ⟨fresh.buffer, rfl, fresh.short, h.index, rfl, rfl, .inl rfl, fresh.fits⟩
      · rw [if_neg fits]
        refine .overflows rfl discards ⟨d.index, ?_, Nat.not_lt.mp fits⟩
          ⟨_, e.clear_follows e.promptIndex e.discardUntilEnter 0 (.inl rfl) fun discarding => ?_⟩
        · rw [meaning, reference]
          exact List.mem_singleton_self _
        · rw [h.discarding, discards] at discarding
          cases discarding
    -- the key goes behind the line
    · have room : d.line.length < lineCapacity := Nat.lt_of_le_of_ne h.short full
      rw [step, if_neg (by rwa [h.length])]
      refine .proceeds rfl ?_ ?_ <;> rw [meaning, Discipline.key, if_neg listening, if_neg full]
      exact h.append discards room (keyByte key)

/-- Any other key is ignored. -/
lemma Follows.ignored (h : e.Follows d) (cr : keyByte key ≠ 13) (lf : keyByte key ≠ 10)
    (backspace : keyByte key ≠ 8)
    (printable : ¬((0x20 ≤ keyByte key ∧ keyByte key ≤ 0x7e) ∧ key ≤ 255))
    (meaning : lineKey key = .other) : Answers d key (e.processKey key) := by
  refine h.silent ?_ (by rw [meaning, Discipline.key])
  rw [processKey_eq, if_neg (not_paired _ cr lf), if_neg (not_or.mpr ⟨cr, lf⟩),
    if_neg (not_or.mpr ⟨cr, lf⟩), if_neg backspace, if_neg printable, ite_self]

/-- One key. -/
lemma Follows.processKey (h : e.Follows d) (key : UInt16) : Answers d key (e.processKey key) := by
  cases keyCase key with
  | terminator terminator meaning => exact h.terminated terminator meaning
  | backspace byte meaning => exact h.backspaced byte meaning
  | printable printable meaning => exact h.printed printable meaning
  | other cr lf backspace printable meaning => exact h.ignored cr lf backspace printable meaning

/-- An editor that still follows some discipline, whatever it was fed. -/
lemma Follows.feed_follows (h : e.Follows d) (keys : List UInt16) :
    ∃ d', (e.feed keys).editor.Follows d' := by
  induction keys generalizing e d with
  | nil => exact ⟨d, h⟩
  | cons key keys ih =>
    rw [feed]
    cases h.processKey key with
    | proceeds flow _ follows =>
      rw [flow]
      exact ih follows
    | overflows flow _ _ follows =>
      rw [flow]
      exact follows

/-- A session that the index survives. -/
lemma Follows.feed (h : e.Follows d) (keys : List UInt16)
    (fits : ∀ i ∈ resolvedLines (d.feed keys).1, i + 1 < 2 ^ 64) :
    (e.feed keys).flow = .proceed ∧ (e.feed keys).calls = (d.feed keys).1 ∧
      (e.feed keys).editor.Follows (d.feed keys).2 := by
  induction keys generalizing e d with
  | nil => exact ⟨rfl, rfl, h⟩
  | cons key keys ih =>
    have calls : (d.feed (key :: keys)).1 =
        (d.key (lineKey key)).1 ++ ((d.key (lineKey key)).2.feed keys).1 := rfl
    rw [calls, resolvedLines, List.filterMap_append] at fits
    rw [Editor.feed]
    cases h.processKey key with
    | proceeds flow same follows =>
      obtain ⟨flow', same', follows'⟩ :=
        ih follows fun i mem => fits i (List.mem_append_right _ mem)
      rw [flow]
      refine ⟨flow', ?_, follows'⟩
      show _ ++ _ = _
      rw [same, same', calls]
    | overflows _ _ overflow _ =>
      obtain ⟨i, mem, large⟩ := overflow
      exact absurd (fits i (List.mem_append_left _ mem)) (Nat.not_lt.mpr large)

/-- A line that is discarded was rejected with an index to follow. -/
lemma Follows.discard_proceeds (h : e.Follows d) (discards : e.discardUntilEnter = true)
    (key : UInt16) : (e.processKey key).flow = .proceed := by
  cases h.processKey key with
  | proceeds flow _ _ => exact flow
  | overflows _ listening _ _ =>
    rw [← h.discarding, discards] at listening
    cases listening

/-- Past the line the buffer is zero. -/
lemma Follows.buffer_zero (h : e.Follows d) (i : Nat) (past : e.length ≤ i) (hi : i < lineCapacity) :
    e.buffer[i] = 0 := by
  rw [h.length] at past
  have value : e.buffer.toList[i]? = some 0 := by
    rw [h.buffer, List.getElem?_append_right past, List.getElem?_replicate, if_pos (by omega)]
  rw [Vector.getElem?_toList, Vector.getElem?_eq_getElem hi] at value
  exact Option.some.inj value

end Editor

namespace Discipline

/-- The index of the line that is the next to be accepted or rejected. -/
def unresolved (d : Discipline) : Nat := if d.discarding then d.index + 1 else d.index

/-- The calls between two points: prompts and resolved lines are numbered through. -/
structure Numbered (d d' : Discipline) (calls : List EditorCall) : Prop where
  prompts : ∃ m, prompts calls = List.range' (d.index + 1) m ∧ d'.index = d.index + m
  lines : ∃ n, resolvedLines calls = List.range' d.unresolved n ∧ d'.unresolved = d.unresolved + n

/-- Calls that neither resolve a line nor prompt for one. -/
lemma Numbered.within (d : Discipline) (line : List UInt8) (ended : Option UInt8)
    (calls : List EditorCall) (no_prompts : Promptboot.prompts calls = [])
    (no_lines : resolvedLines calls = []) :
    Numbered d { d with line := line, ended := ended } calls where
  prompts := ⟨0, no_prompts, rfl⟩
  lines := ⟨0, no_lines, rfl⟩

/-- Calls numbered in turn are numbered together. -/
lemma Numbered.trans {d d' d'' : Discipline} {calls calls' : List EditorCall}
    (h : Numbered d d' calls) (h' : Numbered d' d'' calls') : Numbered d d'' (calls ++ calls') := by
  obtain ⟨⟨m, prompts, index⟩, ⟨n, lines, unresolved⟩⟩ := h
  obtain ⟨⟨m', prompts', index'⟩, ⟨n', lines', unresolved'⟩⟩ := h'
  refine ⟨⟨m + m', ?_, by omega⟩, ⟨n + n', ?_, by omega⟩⟩
  · rw [Promptboot.prompts, List.filterMap_append, ← Promptboot.prompts, ← Promptboot.prompts,
      prompts, prompts', index, Nat.add_right_comm, List.range'_append_1]
  · rw [resolvedLines, List.filterMap_append, ← resolvedLines, ← resolvedLines, lines, lines',
      unresolved, List.range'_append_1]

/-- One key. -/
lemma key_numbered (d : Discipline) (k : LineKey) : Numbered d (d.key k).2 (d.key k).1 := by
  cases k with
  | terminator byte =>
    rw [key]
    split_ifs with paired discards
    · exact .within d _ _ [] rfl rfl
    · have following : d.unresolved = d.index + 1 := by rw [unresolved, if_pos discards]
      exact ⟨⟨1, rfl, rfl⟩, ⟨0, rfl, by rw [following]; rfl⟩⟩
    · have current : d.unresolved = d.index := by rw [unresolved, if_neg discards]
      exact ⟨⟨1, rfl, rfl⟩, ⟨1, by rw [current]; rfl, by rw [current]; rfl⟩⟩
  | backspace =>
    rw [key]
    split_ifs
    · exact .within d _ _ [] rfl rfl
    · exact .within d _ _ [.erase] rfl rfl
  | printable byte =>
    rw [key]
    split_ifs with discards
    · exact .within d _ _ [] rfl rfl
    · have current : d.unresolved = d.index := by rw [unresolved, if_neg discards]
      exact ⟨⟨0, rfl, rfl⟩, ⟨1, by rw [current]; rfl, by rw [current]; rfl⟩⟩
    · exact .within d _ _ [.live byte] rfl rfl
  | other => exact .within d _ _ [] rfl rfl

/-- The prompts are numbered one after another. -/
lemma feed_numbered (d : Discipline) (keys : List UInt16) :
    Numbered d (d.feed keys).2 (d.feed keys).1 := by
  induction keys generalizing d with
  | nil => exact .within d _ _ [] rfl rfl
  | cons k keys ih => exact (d.key_numbered (lineKey k)).trans (ih _)

/-- While a line is discarded, what is still shown no longer matters. -/
lemma feed_echoes (d : Discipline) (keys : List UInt16) (shown : List UInt8)
    (same : d.discarding = false → shown = d.line) : Echoes shown (d.feed keys).1 := by
  induction keys generalizing d shown with
  | nil => exact trivial
  | cons k keys ih =>
    rw [feed]
    cases lineKey k with
    | terminator byte =>
      rw [key]
      split_ifs with paired discards
      · exact ih _ _ same
      · exact ih _ _ fun _ => rfl
      · exact ⟨(same (Bool.eq_false_iff.mpr discards)).symm, ih _ _ fun _ => rfl⟩
    | backspace =>
      rw [key]
      split_ifs with silent
      · exact ih _ _ same
      · exact ih _ _ fun discards => congrArg List.dropLast (same discards)
    | printable byte =>
      rw [key]
      split_ifs
      · exact ih _ _ same
      · exact ih _ _ nofun
      · exact ih _ _ fun discards => congrArg (· ++ [byte]) (same discards)
    | other => exact ih _ _ same

end Discipline

open Editor in
/-- The editor is the line discipline, as long as the lines can be numbered; and what holds of every
editor, whatever index it started at. -/
theorem editor_follows_discipline (keys : List UInt16) :
    ((resolvedLines (Discipline.new.feed keys).1).length < 2 ^ 64 - 1 →
      (Editor.new.feed keys).flow = .proceed ∧
      (Editor.new.feed keys).calls = (Discipline.new.feed keys).1 ∧
      (∃ n m, resolvedLines (Editor.new.feed keys).calls = List.range' 1 n ∧
        prompts (Editor.new.feed keys).calls = List.range' 2 m ∧ (n = m ∨ n = m + 1)) ∧
      Echoes [] (Editor.new.feed keys).calls) ∧
    ∀ start, ((startingAt start).feed keys).editor.length ≤ lineCapacity ∧
      (∀ i (hi : i < lineCapacity), ((startingAt start).feed keys).editor.length ≤ i →
        ((startingAt start).feed keys).editor.buffer[i] = 0) ∧
      (((startingAt start).feed keys).editor.discardUntilEnter = true →
        ∀ key, (((startingAt start).feed keys).editor.processKey key).flow = .proceed) := by
  refine ⟨fun few => ?_, fun start => ?_⟩
  · obtain ⟨⟨m, prompts, index⟩, ⟨n, lines, next⟩⟩ := Discipline.new.feed_numbered keys
    have fits : ∀ i ∈ resolvedLines (Discipline.new.feed keys).1, i + 1 < 2 ^ 64 := by
      intro i mem
      rw [lines] at few mem
      rw [List.length_range'] at few
      obtain ⟨-, below⟩ := List.mem_range'_1.mp mem
      change i < 1 + n at below
      omega
    obtain ⟨flow, calls, -⟩ := (follows_startingAt 1).feed keys fits
    change (Editor.new.feed keys).calls = (Discipline.new.feed keys).1 at calls
    refine ⟨flow, calls, ⟨n, m, calls ▸ lines, calls ▸ prompts, ?_⟩, ?_⟩
    · change _ = 1 + m at index
      change _ = 1 + n at next
      rw [Discipline.unresolved, index] at next
      split_ifs at next <;> omega
    · rw [calls]
      exact Discipline.new.feed_echoes keys [] fun _ => rfl
  · obtain ⟨d, h⟩ := (follows_startingAt start).feed_follows keys
    refine ⟨h.length ▸ h.short, fun i hi past => h.buffer_zero i past hi, fun discards =>
      h.discard_proceeds discards⟩

/-- A line of two letters and both line ends. -/
theorem editor_follows_discipline_greeting :
    (resolvedLines (Discipline.new.feed [104, 105, 13, 10]).1).length < 2 ^ 64 - 1 ∧
      (Editor.new.feed [104, 105, 13, 10]).calls =
        [.live 104, .live 105, .accepted 1 [104, 105], .prompt 2] :=
  ⟨by decide, ((editor_follows_discipline [104, 105, 13, 10]).1 (by decide)).2.1⟩

end Promptboot
