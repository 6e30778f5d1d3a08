import Mathlib.Tactic.Common
import Mathlib.Data.Nat.Bitwise
import Mathlib.Data.List.Basic
import Mathlib.Algebra.Group.Int.Defs
import Mathlib.Algebra.Group.Nat.Defs

/-!
# Console text

The decoder that the session keeps for the bytes of generated tokens and the renderer in front of
the console (`repl_contract.rs`), with the check that the console writer makes (`main.rs`). A
decoder state is the live part of its carry; a buffer that is only filled is its length.

`decodeBytes_cases` says what a byte can do to the decoder, and `Accepts` is the invariant that its
output keeps; `length_withReturns` and `ConsoleSafe.width` are the two counts that the check
compares. The headline `consoleSafe_iff` says when they agree, and `lineFeeds_not_consoleSafe` is a
piece for which they do not.
-/

namespace Promptboot

inductive Utf8Error where
  | invalid | incomplete | nul | capacity
  deriving DecidableEq, Repr

/-- The bytes of an unfinished character, kept for the next piece. -/
structure Utf8Decoder where
  carry : List UInt8
  deriving DecidableEq, Repr

def pieceBytes : Nat := 128
def stagedUnits : Nat := 132
def decodedUnits : Nat := 132
def renderedUnits : Nat := 264
def conoutUnits : Nat := 132

/-- The length of the sequence that a first byte begins. -/
def neededBytes (first : UInt8) : Except Utf8Error Nat :=
  if first.toNat = 0 then
    .error .nul
  else if first.toNat ≤ 0x7f then
    .ok 1
  else if 0xc2 ≤ first.toNat ∧ first.toNat ≤ 0xdf then
    .ok 2
  else if 0xe0 ≤ first.toNat ∧ first.toNat ≤ 0xef then
    .ok 3
  else if 0xf0 ≤ first.toNat ∧ first.toNat ≤ 0xf4 then
    .ok 4
  else
    .error .invalid

def isContinuation (byte : UInt8) : Bool := byte.toNat &&& 0xc0 == 0x80

/-- The bounds on the second byte that keep out overlong forms, surrogates and what lies beyond
Unicode. -/
def badSecond (first second : UInt8) : Bool :=
  (first.toNat == 0xe0 && decide (second.toNat < 0xa0)) ||
    (first.toNat == 0xed && decide (0xa0 ≤ second.toNat)) ||
    (first.toNat == 0xf0 && decide (second.toNat < 0x90)) ||
    (first.toNat == 0xf4 && decide (0x90 ≤ second.toNat))

/-- The low six bits of a continuation byte. -/
def lowSix (byte : UInt8) : Nat := byte.toNat &&& 0x3f

/-- The code point of a whole sequence. -/
def codePoint : List UInt8 → Nat
  | [first] => first.toNat
  | [first, second] => (first.toNat &&& 0x1f) <<< 6 ||| lowSix second
  | [first, second, third] =>
    (first.toNat &&& 0x0f) <<< 12 ||| lowSix second <<< 6 ||| lowSix third
  | [first, second, third, fourth] =>
    (first.toNat &&& 7) <<< 18 ||| lowSix second <<< 12 ||| lowSix third <<< 6 ||| lowSix fourth
  | _ => 0

/-- The UTF-16 units of a code point. -/
def utf16 (point : Nat) : List UInt16 :=
  if point ≤ 0xffff then
    [UInt16.ofNat point]
  else
    [UInt16.ofNat (0xd800 ||| (point - 0x10000) >>> 10),
      UInt16.ofNat (0xdc00 ||| (point - 0x10000) &&& 0x3ff)]

/-- The point of a whole sequence, or why it has none. -/
def checkedPoint (sequence : List UInt8) : Except Utf8Error Nat :=
  let point := codePoint sequence
  if point = 0 then
    .error .nul
  else if (0xd800 ≤ point ∧ point ≤ 0xdfff) ∨ 0x10ffff < point then
    .error .invalid
  else
    .ok point

/-- The loop of `push` over the bytes left, after the units staged so far: the units and the bytes
to carry. -/
def decodeBytes (staged : List UInt16) (bytes : List UInt8) :
    Except Utf8Error (List UInt16 × List UInt8) :=
  match bytes with
  | [] => .ok (staged, [])
  | first :: rest =>
    match neededBytes first with
    | .error error => .error error
    | .ok needed =>
      if 2 ≤ needed ∧ rest ≠ [] ∧
          (!isContinuation (rest.headD 0) || badSecond first (rest.headD 0)) then
        .error .invalid
      else if rest.length + 1 < needed then
        if rest.all isContinuation then .ok (staged, first :: rest) else .error .invalid
      else if !(rest.take (needed - 1)).all isContinuation then
        .error .invalid
      else if 3 ≤ needed ∧ badSecond first (rest.headD 0) then
        .error .invalid
      else
        match checkedPoint (first :: rest.take (needed - 1)) with
        | .error error => .error error
        | .ok point =>
          if stagedUnits < staged.length + (utf16 point).length then
            .error .capacity
          else
            decodeBytes (staged ++ utf16 point) (rest.drop (needed - 1))
termination_by bytes.length
decreasing_by simp only [List.length_drop, List.length_cons]; omega

namespace Utf8Decoder

def new : Utf8Decoder := ⟨[]⟩

def finish (decoder : Utf8Decoder) : Except Utf8Error Unit :=
  if decoder.carry = [] then .ok () else .error .incomplete

/-- `push` of a piece, into an output of the given length: the units, and the decoder after it. -/
def push (decoder : Utf8Decoder) (piece : List UInt8) (outputLength : Nat) :
    Except Utf8Error (List UInt16 × Utf8Decoder) :=
  if pieceBytes < piece.length then
    .error .capacity
  else
    match decodeBytes [] (decoder.carry ++ piece) with
    | .error error => .error error
    | .ok (units, carry) =>
      if outputLength < units.length then .error .capacity else .ok (units, ⟨carry⟩)

end Utf8Decoder

def lineFeed : UInt16 := 10
def carriageReturn : UInt16 := 13

/-- The units that the console gets: a carriage return goes before every line feed without one. -/
def withReturns : Bool → List UInt16 → List UInt16
  | _, [] => []
  | precedingCr, unit :: rest =>
    (if unit = lineFeed ∧ precedingCr = false then [carriageReturn, unit] else [unit]) ++
      withReturns (unit == carriageReturn) rest

/-- The length that `render_console_text` computes first. -/
def neededUnits : Bool → List UInt16 → Nat
  | _, [] => 0
  | precedingCr, unit :: rest =>
    (if unit = lineFeed ∧ precedingCr = false then 2 else 1) +
      neededUnits (unit == carriageReturn) rest

/-- Whether the text so far ends in a carriage return. -/
def endsInReturn (previousWasCr : Bool) (units : List UInt16) : Bool :=
  units.foldl (fun _ unit => unit == carriageReturn) previousWasCr

/-- `render_console_text` into an output of the given length: the units and the flag after them. -/
def renderConsoleText (input : List UInt16) (previousWasCr : Bool) (outputLength : Nat) :
    Except Utf8Error (List UInt16 × Bool) :=
  if outputLength < neededUnits previousWasCr input then
    .error .capacity
  else
    .ok (withReturns previousWasCr input, endsInReturn previousWasCr input)

/-- What `write_conout_utf16_checked` asks of its units before it writes them. -/
def Writable (units : List UInt16) : Prop := units.length ≤ conoutUnits ∧ ∀ unit ∈ units, unit ≠ 0

instance (units : List UInt16) : Decidable (Writable units) :=
  inferInstanceAs (Decidable (_ ∧ _))

/-- The decoder states that a turn can come to. -/
inductive Utf8Decoder.Reachable : Utf8Decoder → Prop
  | new : Reachable .new
  | push {decoder next : Utf8Decoder} {piece : List UInt8} {outputLength : Nat}
      {units : List UInt16} : Reachable decoder →
    decoder.push piece outputLength = .ok (units, next) → Reachable next

/-- The units that a byte adds to the console text, with `left` bytes behind it: none for a byte
that begins no whole character, two for a surrogate pair and for a line feed without its return. -/
def byteWidth (precedingCr : Bool) (byte : UInt8) (left : Nat) : Nat :=
  match neededBytes byte with
  | .error _ => 0
  | .ok needed =>
    if left + 1 < needed then 0
    else if needed = 4 ∨ (byte = 10 ∧ precedingCr = false) then 2
    else 1

/-- The units that the whole characters of a text come to on the console. -/
def consoleWidth : Bool → List UInt8 → Nat
  | _, [] => 0
  | precedingCr, byte :: rest =>
    byteWidth precedingCr byte rest.length + consoleWidth (byte == 13) rest

section Sequences

/-- The continuation bytes, as a range. -/
lemma isContinuation_iff (byte : UInt8) :
    isContinuation byte = true ↔ 0x80 ≤ byte.toNat ∧ byte.toNat < 0xc0 := by
  have table : ∀ n < 256, (n &&& 0xc0 == 0x80) = true ↔ 0x80 ≤ n ∧ n < 0xc0 := by
    decide +kernel
  exact table byte.toNat byte.toNat_lt

/-- The six low bits, as a remainder. -/
lemma lowSix_eq (byte : UInt8) : lowSix byte = byte.toNat % 64 :=
  Nat.and_two_pow_sub_one_eq_mod byte.toNat 6

/-- The first byte of a sequence says its length. -/
lemma neededBytes_eq {first : UInt8} {needed : Nat} (h : neededBytes first = .ok needed) :
    (needed = 1 ∧ 1 ≤ first.toNat ∧ first.toNat ≤ 0x7f) ∨
      (needed = 2 ∧ 0xc2 ≤ first.toNat ∧ first.toNat ≤ 0xdf) ∨
      (needed = 3 ∧ 0xe0 ≤ first.toNat ∧ first.toNat ≤ 0xef) ∨
      (needed = 4 ∧ 0xf0 ≤ first.toNat ∧ first.toNat ≤ 0xf4) := by
  unfold neededBytes at h
  split_ifs at h <;> cases h <;> omega

/-- No sequence begins with a continuation byte. -/
lemma neededBytes_of_continuation {byte : UInt8} (h : isContinuation byte = true) :
    neededBytes byte = .error .invalid := by
  have range := (isContinuation_iff byte).mp h
  unfold neededBytes
  rw [if_neg (by omega), if_neg (by omega), if_neg (by omega), if_neg (by omega), if_neg (by omega)]

/-- A whole sequence and its code point. -/
structure Whole (sequence : List UInt8) (point : Nat) : Prop where
  needed : neededBytes (sequence.headD 0) = .ok sequence.length
  continues : sequence.tail.all isContinuation = true
  second : 2 ≤ sequence.length → badSecond (sequence.headD 0) (sequence.tail.headD 0) = false
  point : checkedPoint sequence = .ok point

/-- The beginning of a sequence that the text does not finish. -/
structure Unfinished (bytes : List UInt8) : Prop where
  needed : ∃ needed, neededBytes (bytes.headD 0) = .ok needed ∧ bytes.length < needed
  continues : bytes.tail.all isContinuation = true

/-- A first byte never lacks room. -/
lemma neededBytes_ne_capacity {first : UInt8} : neededBytes first ≠ .error .capacity := by
  unfold neededBytes
  split_ifs <;> exact nofun

/-- A sequence never lacks room. -/
lemma checkedPoint_ne_capacity {sequence : List UInt8} :
    checkedPoint sequence ≠ .error .capacity := by
  unfold checkedPoint
  dsimp only
  split_ifs <;> exact nofun

/-- What the decoder's loop can do with the bytes left: refuse them, be done, carry an unfinished
sequence, or go on behind a whole one. -/
lemma decodeBytes_cases (staged : List UInt16) (bytes : List UInt8) :
    (∃ error, error ≠ .capacity ∧ decodeBytes staged bytes = .error error) ∨
      (bytes = [] ∧ decodeBytes staged bytes = .ok (staged, [])) ∨
      (Unfinished bytes ∧ decodeBytes staged bytes = .ok (staged, bytes)) ∨
      ∃ sequence rest point, bytes = sequence ++ rest ∧ Whole sequence point ∧
        decodeBytes staged bytes =
          if stagedUnits < staged.length + (utf16 point).length then .error .capacity
          else decodeBytes (staged ++ utf16 point) rest := by
  cases bytes with
  | nil =>
    rw [decodeBytes]
    exact .inr (.inl ⟨rfl, rfl⟩)
  | cons first rest =>
    rw [decodeBytes]
    cases hn : neededBytes first with
    | error error =>
      refine .inl ⟨error, ?_, rfl⟩
      rintro rfl
      exact neededBytes_ne_capacity hn
    | ok needed =>
      dsimp only
      split_ifs with second short continues whole again
      · exact .inl ⟨.invalid, nofun, rfl⟩
      · exact .inr (.inr (.inl ⟨⟨⟨needed, hn, short⟩, continues⟩, rfl⟩))
      · exact .inl ⟨.invalid, nofun, rfl⟩
      · exact .inl ⟨.invalid, nofun, rfl⟩
      · exact .inl ⟨.invalid, nofun, rfl⟩
      · cases hp : checkedPoint (first :: rest.take (needed - 1)) with
        | error error =>
          refine .inl ⟨error, ?_, rfl⟩
          rintro rfl
          exact checkedPoint_ne_capacity hp
        | ok point =>
          have positive : 1 ≤ needed := by
            rcases neededBytes_eq hn with range | range | range | range <;> omega
          have length : (first :: rest.take (needed - 1)).length = needed := by
            rw [List.length_cons, List.length_take]
            omega
          -- every check is passed: the sequence is whole, and the decoder goes on behind it
          refine .inr (.inr (.inr ⟨first :: rest.take (needed - 1), rest.drop (needed - 1), point,
            ?_, ⟨?_, ?_, ?_, hp⟩, rfl⟩))
          · rw [List.cons_append, List.take_append_drop]
          · rw [length]
            exact hn
          · simpa using whole
          · intro two
            rw [length] at two
            have some_left : rest ≠ [] := by
              rintro rfl
              simp only [List.length_nil] at short
              omega
            have head : (first :: rest.take (needed - 1)).tail.headD 0 = rest.headD 0 := by
              cases rest with
              | nil => exact absurd rfl some_left
              | cons b rest =>
                obtain ⟨k, hk⟩ : ∃ k, needed - 1 = k + 1 := ⟨needed - 2, by omega⟩
                rw [hk]
                rfl
            rw [head]
            by_contra bad
            apply second
            refine ⟨two, some_left, ?_⟩
            simp at bad
            simp [bad]

/-- A whole sequence is not empty. -/
lemma Whole.ne_nil {sequence : List UInt8} {point : Nat} (h : Whole sequence point) :
    sequence ≠ [] := by
  rintro rfl
  cases h.needed

/-- A shifted number with a small one below it is a sum. -/
lemma shiftLeft_or {a b i : Nat} (h : b < 2 ^ i) : a <<< i ||| b = a * 2 ^ i + b := by
  rw [← Nat.shiftLeft_add_eq_or_of_lt h, Nat.shiftLeft_eq]

/-- A point of three bytes, as a sum. -/
lemma or_three {a b c : Nat} (hb : b < 64) (hc : c < 64) :
    a <<< 12 ||| b <<< 6 ||| c = a * 4096 + b * 64 + c := by
  have middle : b <<< 6 < 2 ^ 12 := by
    rw [Nat.shiftLeft_eq]
    omega
  have upper : a <<< 12 ||| b <<< 6 = (a * 64 + b) <<< 6 := by
    rw [shiftLeft_or middle, Nat.shiftLeft_eq, Nat.shiftLeft_eq]
    omega
  rw [upper, shiftLeft_or (by omega)]
  omega

/-- A point of four bytes, as a sum. -/
lemma or_four {a b c d : Nat} (hb : b < 64) (hc : c < 64) (hd : d < 64) :
    a <<< 18 ||| b <<< 12 ||| c <<< 6 ||| d = a * 262144 + b * 4096 + c * 64 + d := by
  have middle : b <<< 12 < 2 ^ 18 := by
    rw [Nat.shiftLeft_eq]
    omega
  have upper : a <<< 18 ||| b <<< 12 = (a * 64 + b) <<< 12 := by
    rw [shiftLeft_or middle, Nat.shiftLeft_eq, Nat.shiftLeft_eq]
    omega
  rw [upper, or_three hc hd]
  omega

/-- A sequence of more than one byte stands for a point beyond ASCII, and one of four bytes for a
point beyond the basic plane. -/
lemma Whole.point_range {sequence : List UInt8} {point : Nat} (h : Whole sequence point) :
    (sequence.length = 1 ∧ ∃ first, sequence = [first] ∧ point = first.toNat ∧ 1 ≤ point ∧
      point ≤ 0x7f) ∨
    ((sequence.length = 2 ∨ sequence.length = 3) ∧ 0x80 ≤ point ∧ point ≤ 0xffff) ∨
    (sequence.length = 4 ∧ 0xffff < point ∧ point ≤ 0x10ffff) := by
  obtain ⟨needed, continues, second, checked⟩ := h
  -- the decoder has refused the zero and what is past the last code point
  have value : codePoint sequence = point ∧ point ≠ 0 ∧ point ≤ 0x10ffff := by
    unfold checkedPoint at checked
    dsimp only at checked
    split_ifs at checked with zero bad
    cases checked
    exact ⟨rfl, zero, by omega⟩
  obtain ⟨value, nonzero, top⟩ := value
  have low : ∀ b : UInt8, b.toNat % 64 < 64 := fun b => Nat.mod_lt _ (by decide)
  -- by the length: the first byte bounds the point, and the second keeps it from being too low
  rcases neededBytes_eq needed with ⟨one, range⟩ | ⟨two, range⟩ | ⟨three, range⟩ | ⟨four, range⟩
  · obtain ⟨first, rfl⟩ := List.length_eq_one_iff.mp one
    have range' : 1 ≤ first.toNat ∧ first.toNat ≤ 0x7f := range
    have value' : first.toNat = point := value
    exact .inl ⟨one, first, rfl, value'.symm, by omega, by omega⟩
  · obtain ⟨first, b, rfl⟩ := List.length_eq_two.mp two
    refine .inr (.inl ⟨.inl two, ?_⟩)
    have range' : 0xc2 ≤ first.toNat ∧ first.toNat ≤ 0xdf := range
    have high : first.toNat &&& 0x1f = first.toNat % 32 :=
      Nat.and_two_pow_sub_one_eq_mod first.toNat 5
    rw [codePoint, lowSix_eq, high, shiftLeft_or (low b)] at value
    have bound := low b
    omega
  · obtain ⟨first, b, c, rfl⟩ := List.length_eq_three.mp three
    refine .inr (.inl ⟨.inr three, ?_⟩)
    have range' : 0xe0 ≤ first.toNat ∧ first.toNat ≤ 0xef := range
    have fine : badSecond first b = false := second (Nat.le_succ 2)
    simp [badSecond] at fine
    simp only [List.tail_cons, List.all_cons, List.all_nil, Bool.and_true, Bool.and_eq_true,
      isContinuation_iff] at continues
    have high : first.toNat &&& 0x0f = first.toNat % 16 :=
      Nat.and_two_pow_sub_one_eq_mod first.toNat 4
    rw [codePoint, lowSix_eq, lowSix_eq, high, or_three (low b) (low c)] at value
    have bound := low c
    omega
  · obtain ⟨first, b, c, d, rfl⟩ : ∃ first b c d, sequence = [first, b, c, d] := by
      match sequence, four with
      | [first, b, c, d], _ => exact ⟨first, b, c, d, rfl⟩
    refine .inr (.inr ⟨four, ?_, top⟩)
    have range' : 0xf0 ≤ first.toNat ∧ first.toNat ≤ 0xf4 := range
    have fine : badSecond first b = false := second (Nat.le_add_left 2 2)
    simp [badSecond] at fine
    simp only [List.tail_cons, List.all_cons, List.all_nil, Bool.and_true, Bool.and_eq_true,
      isContinuation_iff] at continues
    have high : first.toNat &&& 7 = first.toNat % 8 :=
      Nat.and_two_pow_sub_one_eq_mod first.toNat 3
    rw [codePoint, lowSix_eq, lowSix_eq, lowSix_eq, high, or_four (low b) (low c) (low d)] at value
    omega

/-- A unit that is no control character stays one unit, and ends no line. -/
lemma unit_ne {value : Nat} (low : 0x80 ≤ value) (high : value < 65536) :
    UInt16.ofNat value ≠ 0 ∧ UInt16.ofNat value ≠ lineFeed ∧
      UInt16.ofNat value ≠ carriageReturn := by
  have self : (UInt16.ofNat value).toNat = value := by
    rw [UInt16.toNat_ofNat', Nat.mod_eq_of_lt high]
  refine ⟨?_, ?_, ?_⟩ <;>
  · intro same
    have eq := congrArg UInt16.toNat same
    rw [self] at eq
    subst eq
    revert low
    decide

/-- A point beyond ASCII comes to one or two units, none of which is a control character. -/
lemma utf16_units {point : Nat} (low : 0x80 ≤ point) (high : point ≤ 0x10ffff) :
    (utf16 point).length = (if point ≤ 0xffff then 1 else 2) ∧
      ∀ unit ∈ utf16 point, unit ≠ 0 ∧ unit ≠ lineFeed ∧ unit ≠ carriageReturn := by
  unfold utf16
  split
  · refine ⟨rfl, ?_⟩
    intro unit member
    rw [List.mem_singleton.mp member]
    exact unit_ne low (by omega)
  · refine ⟨rfl, ?_⟩
    have upper : (point - 0x10000) >>> 10 < 2 ^ 16 := by
      rw [Nat.shiftRight_eq_div_pow]
      omega
    have lower : (point - 0x10000) &&& 0x3ff < 2 ^ 16 :=
      lt_of_le_of_lt Nat.and_le_right (by decide)
    intro unit member
    rcases List.mem_cons.mp member with rfl | member
    · exact unit_ne (le_trans (by decide) Nat.left_le_or) (Nat.or_lt_two_pow (by decide) upper)
    · rw [List.mem_singleton.mp member]
      exact unit_ne (le_trans (by decide) Nat.left_le_or) (Nat.or_lt_two_pow (by decide) lower)

/-- Units that are no control characters pass through the renderer. -/
lemma withReturns_plain {units : List UInt16}
    (plain : ∀ unit ∈ units, unit ≠ 0 ∧ unit ≠ lineFeed ∧ unit ≠ carriageReturn) (cr : Bool) :
    withReturns cr units = units ∧
      (units ≠ [] → endsInReturn cr units = false) := by
  induction units generalizing cr with
  | nil => exact ⟨rfl, fun h => absurd rfl h⟩
  | cons unit rest ih =>
    obtain ⟨_, noFeed, noReturn⟩ := plain unit (List.mem_cons_self ..)
    obtain ⟨same, ends⟩ := ih (fun u hu => plain u (List.mem_cons_of_mem _ hu)) false
    have noCr : (unit == carriageReturn) = false := by simpa using noReturn
    refine ⟨?_, fun _ => ?_⟩
    · rw [withReturns, if_neg (fun feed => noFeed feed.1), noCr, same]
      rfl
    · show endsInReturn (unit == carriageReturn) rest = false
      rw [noCr]
      cases rest with
      | nil => rfl
      | cons => exact ends (List.cons_ne_nil _ _)

/-- Continuation bytes come to nothing by themselves. -/
lemma consoleWidth_continues {tail rest : List UInt8} (h : tail.all isContinuation = true) :
    consoleWidth false (tail ++ rest) = consoleWidth false rest := by
  induction tail with
  | nil => rfl
  | cons byte tail ih =>
    obtain ⟨first, others⟩ : isContinuation byte = true ∧ tail.all isContinuation = true := by
      simpa using h
    have noCr : (byte == 13) = false := by
      have range := (isContinuation_iff byte).mp first
      rw [beq_eq_false_iff_ne]
      rintro rfl
      revert range
      decide
    rw [List.cons_append, consoleWidth, noCr, ih others, byteWidth,
      neededBytes_of_continuation first]
    exact Nat.zero_add _

/-- A byte that begins a whole sequence of more than one byte. -/
lemma byteWidth_long {byte : UInt8} {needed left : Nat} {cr : Bool}
    (h : neededBytes byte = .ok needed) (two : 2 ≤ needed) (enough : needed ≤ left + 1) :
    byteWidth cr byte left = (if needed = 4 then 2 else 1) ∧ (byte == 13) = false := by
  have large : 0xc2 ≤ byte.toNat := by
    rcases neededBytes_eq h with range | range | range | range <;> omega
  have other : byte ≠ 10 ∧ byte ≠ 13 := by
    constructor <;>
    · rintro rfl
      revert large
      decide
  refine ⟨?_, by simpa using other.2⟩
  rw [byteWidth, h]
  dsimp only
  rw [if_neg (by omega)]
  simp [other.1]

/-- The units of a whole sequence: how many, none of them zero, and what they come to. -/
lemma Whole.units {sequence : List UInt8} {point : Nat} (h : Whole sequence point) :
    (utf16 point).length ≤ sequence.length ∧ (∀ unit ∈ utf16 point, unit ≠ 0) ∧
      ∀ cr rest, consoleWidth cr (sequence ++ rest) =
        (withReturns cr (utf16 point)).length +
          consoleWidth (endsInReturn cr (utf16 point)) rest := by
  have needed := h.needed
  -- more than one byte: a column for each unit, and none of the units breaks the line
  have long : 2 ≤ sequence.length → 0x80 ≤ point → point ≤ 0x10ffff →
      (sequence.length = 4 ↔ ¬point ≤ 0xffff) → (utf16 point).length ≤ sequence.length ∧
      (∀ unit ∈ utf16 point, unit ≠ 0) ∧ ∀ cr rest, consoleWidth cr (sequence ++ rest) =
        (withReturns cr (utf16 point)).length +
          consoleWidth (endsInReturn cr (utf16 point)) rest := by
    intro two low high four
    obtain ⟨length, plain⟩ := utf16_units low high
    refine ⟨?_, fun unit member => (plain unit member).1, ?_⟩
    · rw [length]
      split <;> omega
    intro cr rest
    obtain ⟨same, ends⟩ := withReturns_plain plain cr
    have nonempty : utf16 point ≠ [] := by
      intro none
      rw [none] at length
      revert length
      split <;> decide
    obtain ⟨first, tail, rfl⟩ := List.exists_cons_of_ne_nil h.ne_nil
    have begins : neededBytes first = .ok (first :: tail).length := needed
    have enough : (first :: tail).length ≤ (tail ++ rest).length + 1 := by
      rw [List.length_append, List.length_cons]
      omega
    obtain ⟨width, noCr⟩ : byteWidth cr first (tail ++ rest).length = _ ∧ _ :=
      byteWidth_long begins two enough
    have continues : tail.all isContinuation = true := h.continues
    rw [same, ends nonempty, List.cons_append, consoleWidth, width, noCr,
      consoleWidth_continues continues, length]
    by_cases plane : point ≤ 0xffff
    · rw [if_pos plane, if_neg (fun e => four.mp e plane)]
    · rw [if_neg plane, if_pos (four.mpr plane)]
  rcases h.point_range with ⟨one, first, rfl, rfl, low, high⟩ | ⟨short, low, high⟩ |
    ⟨four, low, high⟩
  -- an ASCII byte is its own unit
  · have ascii : utf16 first.toNat = [first.toUInt16] := by
      rw [utf16, if_pos (by omega)]
      congr 1
      apply UInt16.toNat_inj.mp
      rw [UInt16.toNat_ofNat', UInt8.toNat_toUInt16]
      omega
    have feed : first.toUInt16 = lineFeed ↔ first = 10 := by
      constructor
      · intro same
        have eq := congrArg UInt16.toNat same
        rw [UInt8.toNat_toUInt16] at eq
        exact UInt8.toNat_inj.mp eq
      · rintro rfl
        rfl
    have ret : (first.toUInt16 == carriageReturn) = (first == 13) := by
      rw [Bool.eq_iff_iff, beq_iff_eq, beq_iff_eq]
      constructor
      · intro same
        have eq := congrArg UInt16.toNat same
        rw [UInt8.toNat_toUInt16] at eq
        exact UInt8.toNat_inj.mp eq
      · rintro rfl
        rfl
    rw [ascii]
    refine ⟨le_refl 1, ?_, ?_⟩
    · intro unit member same
      rw [List.mem_singleton.mp member] at same
      have eq := congrArg UInt16.toNat same
      rw [UInt8.toNat_toUInt16] at eq
      have zero : first.toNat = 0 := eq
      omega
    · intro cr rest
      have needs : neededBytes first = .ok 1 := needed
      show byteWidth cr first rest.length + consoleWidth (first == 13) rest =
        (withReturns cr [first.toUInt16]).length +
          consoleWidth (first.toUInt16 == carriageReturn) rest
      rw [ret, byteWidth, needs]
      dsimp only
      rw [if_neg (by omega), withReturns]
      by_cases breaks : first = 10 ∧ cr = false
      · rw [if_pos (.inr breaks), if_pos ⟨feed.mpr breaks.1, breaks.2⟩]
        rfl
      · rw [if_neg (fun two => two.elim (fun e => absurd e (by decide)) breaks),
          if_neg (fun two => breaks ⟨feed.mp two.1, two.2⟩)]
        rfl
  · exact long (by omega) low (by omega) (by omega)
  · exact long (by omega) (by omega) high (by omega)

/-- An unfinished sequence comes to nothing yet. -/
lemma Unfinished.width {bytes : List UInt8} (h : Unfinished bytes) (cr : Bool) :
    bytes.length ≤ 3 ∧ consoleWidth cr bytes = 0 := by
  obtain ⟨⟨needed, begins, short⟩, continues⟩ := h
  cases bytes with
  | nil => exact ⟨Nat.zero_le 3, rfl⟩
  | cons first tail =>
    have begins : neededBytes first = .ok needed := begins
    have bound : needed ≤ 4 := by
      rcases neededBytes_eq begins with range | range | range | range <;> omega
    have noCr : (first == 13) = false := by
      rw [beq_eq_false_iff_ne]
      rintro rfl
      have one : needed = 1 := by cases begins; rfl
      rw [one, List.length_cons] at short
      omega
    refine ⟨by omega, ?_⟩
    have tail_width : consoleWidth false (tail ++ []) = _ := consoleWidth_continues continues
    simp only [List.append_nil] at tail_width
    rw [consoleWidth, noCr, tail_width, byteWidth, begins]
    dsimp only
    rw [if_pos (show tail.length + 1 < needed from short)]
    rfl

/-- The returns of two parts, the second behind the end of the first. -/
lemma withReturns_append (cr : Bool) (units more : List UInt16) :
    withReturns cr (units ++ more) =
      withReturns cr units ++ withReturns (endsInReturn cr units) more := by
  induction units generalizing cr with
  | nil => rfl
  | cons unit rest ih =>
    rw [List.cons_append, withReturns, ih, withReturns, List.append_assoc]
    rfl

/-- What the decoder makes of the bytes that it accepts. -/
lemma decodeBytes_ok {staged units : List UInt16} {bytes carry : List UInt8}
    (h : decodeBytes staged bytes = .ok (units, carry)) :
    ∃ new, units = staged ++ new ∧ carry.length ≤ 3 ∧ new.length ≤ bytes.length ∧
      (∀ unit ∈ new, unit ≠ 0) ∧ ∀ cr, (withReturns cr new).length = consoleWidth cr bytes := by
  induction hn : bytes.length using Nat.strong_induction_on generalizing staged bytes with
  | _ n ih =>
    rcases decodeBytes_cases staged bytes with ⟨_, _, refused⟩ | ⟨rfl, done⟩ |
      ⟨unfinished, done⟩ | ⟨sequence, rest, point, rfl, whole, more⟩
    · rw [h] at refused
      cases refused
    · rw [h] at done
      cases done
      exact ⟨[], (List.append_nil _).symm, Nat.zero_le 3, Nat.zero_le _, nofun, fun _ => rfl⟩
    · rw [h] at done
      cases done
      refine ⟨[], (List.append_nil _).symm, (unfinished.width false).1, Nat.zero_le _, nofun, ?_⟩
      intro cr
      exact (unfinished.width cr).2.symm
    · rw [h] at more
      split at more
      · cases more
      have positive := List.length_pos_of_ne_nil whole.ne_nil
      rw [List.length_append] at hn
      obtain ⟨new, rfl, short, fewer, nonzero, width⟩ := ih rest.length (by omega) more.symm rfl
      obtain ⟨own, ownNonzero, ownWidth⟩ := whole.units
      refine ⟨utf16 point ++ new, List.append_assoc .., short, ?_, ?_, ?_⟩
      · rw [List.length_append]
        omega
      · intro unit member
        rcases List.mem_append.mp member with first | later
        · exact ownNonzero unit first
        · exact nonzero unit later
      · intro cr
        rw [withReturns_append, List.length_append, width, ownWidth]

/-- The units of a text no longer than the staging buffer always fit it. -/
lemma decodeBytes_ne_capacity {staged : List UInt16} {bytes : List UInt8}
    (room : staged.length + bytes.length ≤ stagedUnits) :
    decodeBytes staged bytes ≠ .error .capacity := by
  induction hn : bytes.length using Nat.strong_induction_on generalizing staged bytes with
  | _ n ih =>
    rcases decodeBytes_cases staged bytes with ⟨error, other, refused⟩ | ⟨_, done⟩ | ⟨_, done⟩ |
      ⟨sequence, rest, point, rfl, whole, more⟩
    · rw [refused]
      intro same
      cases same
      exact other rfl
    · rw [done]
      exact nofun
    · rw [done]
      exact nofun
    · have positive := List.length_pos_of_ne_nil whole.ne_nil
      have own := whole.units.1
      rw [List.length_append] at hn room
      rw [more, if_neg (by omega)]
      exact ih rest.length (by omega) (by rw [List.length_append]; omega) rfl

end Sequences

section Session

/-- The units counted are those of the text with returns. -/
lemma neededUnits_eq (cr : Bool) (units : List UInt16) :
    neededUnits cr units = (withReturns cr units).length := by
  induction units generalizing cr with
  | nil => rfl
  | cons unit rest ih =>
    rw [neededUnits, withReturns, List.length_append, ih]
    split <;> rfl

/-- Returns at most double a text. -/
lemma length_withReturns (cr : Bool) (units : List UInt16) :
    (withReturns cr units).length ≤ 2 * units.length := by
  induction units generalizing cr with
  | nil => exact le_refl 0
  | cons unit rest ih =>
    have more := ih (unit == carriageReturn)
    rw [withReturns, List.length_append, List.length_cons]
    split <;> simp only [List.length_cons, List.length_nil] <;> omega

/-- Returns bring no zero in. -/
lemma withReturns_ne_zero {units : List UInt16} (h : ∀ unit ∈ units, unit ≠ 0) (cr : Bool) :
    ∀ unit ∈ withReturns cr units, unit ≠ 0 := by
  induction units generalizing cr with
  | nil => exact nofun
  | cons unit rest ih =>
    intro out member
    rw [withReturns] at member
    rcases List.mem_append.mp member with own | later
    · split at own
      · rcases List.mem_cons.mp own with rfl | own
        · decide
        · rw [List.mem_singleton.mp own]
          exact h unit (List.mem_cons_self ..)
      · rw [List.mem_singleton.mp own]
        exact h unit (List.mem_cons_self ..)
    · exact ih (fun u hu => h u (List.mem_cons_of_mem _ hu)) _ out later

namespace Utf8Decoder

/-- A decoder carries at most three bytes. -/
lemma Reachable.carry {decoder : Utf8Decoder} (h : Reachable decoder) :
    decoder.carry.length ≤ 3 := by
  induction h with
  | new => exact Nat.zero_le 3
  | push _ pushed _ =>
    unfold Utf8Decoder.push at pushed
    split at pushed
    · cases pushed
    · split at pushed
      · cases pushed
      · rename_i units carry decoded
        split at pushed
        · cases pushed
        · cases pushed
          obtain ⟨_, _, short, _⟩ := decodeBytes_ok decoded
          exact short

/-- The units of a piece fit the session's buffers, and the console writer takes what they come
to. -/
structure Fits (previousWasCr : Bool) (units : List UInt16) : Prop where
  decoded : units.length ≤ decodedUnits
  rendered : ∃ out flag, renderConsoleText units previousWasCr renderedUnits = .ok (out, flag) ∧
    out.length ≤ renderedUnits ∧ Writable out

/-- A piece that the decoder accepts cannot fail on its way to the console. -/
def ConsoleSafe (decoder : Utf8Decoder) (previousWasCr : Bool) (piece : List UInt8) : Prop :=
  decoder.push piece decodedUnits ≠ .error .capacity ∧
    ∀ units next, decoder.push piece decodedUnits = .ok (units, next) → Fits previousWasCr units

/-- The bytes of a piece, behind those carried, are UTF-8 up to an unfinished character. -/
def Accepts (decoder : Utf8Decoder) (piece : List UInt8) : Prop :=
  ∃ result, decodeBytes [] (decoder.carry ++ piece) = .ok result

/-- An accepted piece within the bounds of `decode_piece` passes `push` and `render_console_text`. -/
lemma Accepts.rendered {decoder : Utf8Decoder} {piece : List UInt8} (accepted : decoder.Accepts piece)
    (reachable : decoder.Reachable) (short : piece.length ≤ pieceBytes) :
    ∃ units next, decoder.push piece decodedUnits = .ok (units, next) ∧
      units.length ≤ decodedUnits ∧ (∀ unit ∈ units, unit ≠ 0) ∧
      ∀ cr, (withReturns cr units).length = consoleWidth cr (decoder.carry ++ piece) ∧
        renderConsoleText units cr renderedUnits = .ok (withReturns cr units, endsInReturn cr units) := by
  obtain ⟨⟨units, carry⟩, decoded⟩ := accepted
  have few := reachable.carry
  obtain ⟨new, same, _, fewer, nonzero, width⟩ := decodeBytes_ok decoded
  obtain rfl : units = new := same
  rw [List.length_append] at fewer
  have room : units.length ≤ decodedUnits := by
    unfold decodedUnits
    unfold pieceBytes at short
    omega
  refine ⟨units, ⟨carry⟩, ?_, room, nonzero, fun cr => ⟨width cr, ?_⟩⟩
  · rw [Utf8Decoder.push, if_neg (Nat.not_lt.mpr short), decoded]
    exact if_neg (Nat.not_lt.mpr room)
  · have double := length_withReturns cr units
    rw [renderConsoleText, if_neg]
    rw [neededUnits_eq]
    unfold renderedUnits
    unfold decodedUnits at room
    omega

/-- What passes the writer has at most its 132 units. -/
lemma ConsoleSafe.width {decoder : Utf8Decoder} {previousWasCr : Bool} {piece : List UInt8}
    (safe : decoder.ConsoleSafe previousWasCr piece) (accepted : decoder.Accepts piece)
    (reachable : decoder.Reachable) (short : piece.length ≤ pieceBytes) :
    consoleWidth previousWasCr (decoder.carry ++ piece) ≤ conoutUnits := by
  obtain ⟨units, next, pushed, _, _, renders⟩ := accepted.rendered reachable short
  obtain ⟨width, rendered⟩ := renders previousWasCr
  obtain ⟨out, flag, same, _, writable, _⟩ := (safe.2 units next pushed).rendered
  rw [rendered] at same
  cases same
  rw [← width]
  exact writable

/-- The buffers hold every piece of the length that `decode_piece` allows, but the writer takes
exactly those pieces whose text, with the returns added, has at most 132 units. -/
theorem consoleSafe_iff {decoder : Utf8Decoder} {previousWasCr : Bool} {piece : List UInt8}
    (reachable : decoder.Reachable) (short : piece.length ≤ pieceBytes)
    (accepted : decoder.Accepts piece) :
    decoder.ConsoleSafe previousWasCr piece ↔
      consoleWidth previousWasCr (decoder.carry ++ piece) ≤ conoutUnits := by
  refine ⟨fun safe => safe.width accepted reachable short, ?_⟩
  intro narrow
  obtain ⟨units, next, pushed, room, nonzero, renders⟩ := accepted.rendered reachable short
  obtain ⟨width, rendered⟩ := renders previousWasCr
  refine ⟨?_, ?_⟩
  · rw [pushed]
    exact nofun
  · intro units' next' same
    rw [pushed] at same
    cases same
    have taken : (withReturns previousWasCr units).length ≤ conoutUnits := by
      rw [width]
      exact narrow
    exact ⟨room, _, _, rendered, le_trans taken (by decide), taken,
      withReturns_ne_zero nonzero previousWasCr⟩

/-- ASCII text is decoded byte by byte. -/
lemma decodeBytes_ascii {staged : List UInt16} {bytes : List UInt8}
    (ascii : ∀ byte ∈ bytes, 1 ≤ byte.toNat ∧ byte.toNat ≤ 0x7f)
    (room : staged.length + bytes.length ≤ stagedUnits) :
    ∃ units, decodeBytes staged bytes = .ok (units, []) := by
  induction bytes generalizing staged with
  | nil =>
    rw [decodeBytes]
    exact ⟨staged, rfl⟩
  | cons byte rest ih =>
    obtain ⟨low, high⟩ := ascii byte (List.mem_cons_self ..)
    have one : neededBytes byte = .ok 1 := by
      rw [neededBytes, if_neg (by omega), if_pos high]
    have point : checkedPoint [byte] = .ok byte.toNat := by
      rw [checkedPoint, codePoint, if_neg (by omega), if_neg (by omega)]
    have plane : utf16 byte.toNat = [UInt16.ofNat byte.toNat] := by
      rw [utf16, if_pos (by omega)]
    rw [List.length_cons] at room
    have rest_room : (staged ++ [UInt16.ofNat byte.toNat]).length + rest.length ≤ stagedUnits := by
      rw [List.length_append, List.length_singleton]
      omega
    obtain ⟨units, rest_ok⟩ := ih (fun b hb => ascii b (List.mem_cons_of_mem _ hb)) rest_room
    refine ⟨units, ?_⟩
    rw [decodeBytes, one]
    simp only [Nat.sub_self, List.take_zero, List.all_nil, List.drop_zero]
    rw [if_neg (by omega), if_neg (by omega), if_neg (by decide), if_neg (by omega), point]
    simp only [plane, List.length_singleton]
    rw [if_neg (by omega), rest_ok]

/-- The letters of `hello` are ASCII. -/
lemma hello : ∀ byte ∈ ([104, 101, 108, 108, 111] : List UInt8),
    1 ≤ byte.toNat ∧ byte.toNat ≤ 0x7f := by
  intro byte mem
  simp only [List.mem_cons, List.not_mem_nil, or_false] at mem
  rcases mem with rfl | rfl | rfl | rfl | rfl <;> decide

/-- Five ASCII letters on a new decoder. -/
theorem consoleSafe_iff_hello :
    Utf8Decoder.new.ConsoleSafe false [104, 101, 108, 108, 111] ↔
      consoleWidth false (Utf8Decoder.new.carry ++ [104, 101, 108, 108, 111]) ≤ conoutUnits :=
  consoleSafe_iff .new (by decide)
    ((decodeBytes_ascii hello (by decide)).imp' (·, []) fun _ h => h)

/-- A piece of 67 line feeds: 134 units on the console. -/
theorem lineFeeds_not_consoleSafe :
    ¬∀ (decoder : Utf8Decoder) (previousWasCr : Bool) (piece : List UInt8),
      decoder.Reachable → piece.length ≤ pieceBytes → decoder.Accepts piece →
        decoder.ConsoleSafe previousWasCr piece := by
  intro claim
  have accepted : Utf8Decoder.new.Accepts (List.replicate 67 10) :=
    (decodeBytes_ascii (fun byte mem => List.eq_of_mem_replicate mem ▸ by decide)
      (by decide)).imp' (·, []) fun _ h => h
  have safe := claim .new false (List.replicate 67 10) .new (by decide) accepted
  have narrow := safe.width accepted .new (by decide)
  revert narrow
  decide

end Utf8Decoder

end Session

end Promptboot
