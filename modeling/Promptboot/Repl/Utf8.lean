import Promptboot.Lib.Fallible
import Promptboot.Repl.Console

/-!
# The streaming decoder

`Utf8Decoder::push` as a method on the decoder and the caller's buffer, against the encodings
themselves: the UTF-8 of a text of scalar values, its beginnings, and its UTF-16.

`decodeBytes_whole` and `decodeBytes_front` are the two ways in which a prefix of the input
continues, and `Decoded` is what the decoder has made of it; `Decoded.append` composes over pieces.
`Strict` is the failure. The headline `utf8Decoder_strict` is for every cut of the input into
pieces.
-/

namespace Promptboot

/-- The decoder and the buffer of the caller. -/
structure PushState where
  decoder : Utf8Decoder
  output : List UInt16

open Fallible in
/-- `push`, which writes to the buffer and to the decoder only at its end. -/
def pushInto (piece : List UInt8) : Fallible PushState Utf8Error Nat := do
  if pieceBytes < piece.length then fail .capacity
  let (units, carry) ← lift fun s => decodeBytes [] (s.decoder.carry ++ piece)
  let room ← lift fun s => .ok s.output.length
  if room < units.length then fail .capacity
  modify fun s => { s with output := units ++ s.output.drop units.length }
  modify fun s => { s with decoder := ⟨carry⟩ }
  pure units.length

/-- The units of pieces pushed one after the other, each into a buffer of its own, and the decoder
after them; `none` when a push fails. -/
def pushPieces (decoder : Utf8Decoder) :
    List (List UInt8 × List UInt16) → Option (List UInt16 × Utf8Decoder)
  | [] => some ([], decoder)
  | (piece, output) :: pieces =>
    match pushInto piece ⟨decoder, output⟩ with
    | (.error _, _) => none
    | (.ok written, s) =>
      (pushPieces s.decoder pieces).map fun (units, last) => (s.output.take written ++ units, last)

/-- The UTF-16 of a scalar value. -/
def encodeUtf16 (c : Char) : List UInt16 :=
  if c.toNat < 0x10000 then
    [UInt16.ofNat c.toNat]
  else
    [UInt16.ofNat (0xd800 + (c.toNat - 0x10000) / 0x400),
      UInt16.ofNat (0xdc00 + (c.toNat - 0x10000) % 0x400)]

/-- The UTF-8 of a text. -/
def utf8Of (text : List Char) : List UInt8 := text.flatMap String.utf8EncodeChar

/-- The UTF-16 of a text. -/
def utf16Of (text : List Char) : List UInt16 := text.flatMap encodeUtf16

def NulFree (text : List Char) : Prop := ∀ c ∈ text, c.toNat ≠ 0

/-- The bytes begin the UTF-8 of some text without NUL. -/
def BeginsText (bytes : List UInt8) : Prop := ∃ text, NulFree text ∧ bytes <+: utf8Of text

/-- The bytes are those of a text and of the beginning of one more character. -/
structure Decoded (bytes : List UInt8) (text : List Char) (carry : List UInt8) : Prop where
  split : bytes = utf8Of text ++ carry
  nulFree : NulFree text
  unfinished : carry = [] ∨
    ∃ c : Char, c.toNat ≠ 0 ∧ carry <+: String.utf8EncodeChar c ∧ carry ≠ String.utf8EncodeChar c

/-- The sequences of one character, by the bounds on their bytes. -/
inductive CharSequence : List UInt8 → Nat → Prop
  | one {a : UInt8} : 1 ≤ a.toNat → a.toNat ≤ 0x7f → CharSequence [a] a.toNat
  | two {a b : UInt8} : 0xc2 ≤ a.toNat → a.toNat ≤ 0xdf → 0x80 ≤ b.toNat → b.toNat < 0xc0 →
    CharSequence [a, b] ((a.toNat - 0xc0) * 64 + (b.toNat - 0x80))
  | three {a b c : UInt8} : 0xe0 ≤ a.toNat → a.toNat ≤ 0xef → 0x80 ≤ b.toNat → b.toNat < 0xc0 →
    (a.toNat = 0xe0 → 0xa0 ≤ b.toNat) → (a.toNat = 0xed → b.toNat < 0xa0) →
    0x80 ≤ c.toNat → c.toNat < 0xc0 →
    CharSequence [a, b, c]
      ((a.toNat - 0xe0) * 4096 + (b.toNat - 0x80) * 64 + (c.toNat - 0x80))
  | four {a b c d : UInt8} : 0xf0 ≤ a.toNat → a.toNat ≤ 0xf4 → 0x80 ≤ b.toNat → b.toNat < 0xc0 →
    (a.toNat = 0xf0 → 0x90 ≤ b.toNat) → (a.toNat = 0xf4 → b.toNat < 0x90) →
    0x80 ≤ c.toNat → c.toNat < 0xc0 → 0x80 ≤ d.toNat → d.toNat < 0xc0 →
    CharSequence [a, b, c, d] ((a.toNat - 0xf0) * 262144 + (b.toNat - 0x80) * 4096 +
      (c.toNat - 0x80) * 64 + (d.toNat - 0x80))

section Characters

/-- The first bytes of the sequences of each length. -/
lemma neededBytes_iff {first : UInt8} {needed : Nat} :
    neededBytes first = .ok needed ↔
      (needed = 1 ∧ 1 ≤ first.toNat ∧ first.toNat ≤ 0x7f) ∨
      (needed = 2 ∧ 0xc2 ≤ first.toNat ∧ first.toNat ≤ 0xdf) ∨
      (needed = 3 ∧ 0xe0 ≤ first.toNat ∧ first.toNat ≤ 0xef) ∨
      (needed = 4 ∧ 0xf0 ≤ first.toNat ∧ first.toNat ≤ 0xf4) := by
  refine ⟨neededBytes_eq, fun range => ?_⟩
  unfold neededBytes
  split_ifs <;> first | omega | exact congrArg Except.ok (by omega)

/-- The second bytes that the first ones leave. -/
lemma badSecond_eq_false {first second : UInt8} :
    badSecond first second = false ↔
      (first.toNat = 0xe0 → 0xa0 ≤ second.toNat) ∧ (first.toNat = 0xed → second.toNat < 0xa0) ∧
      (first.toNat = 0xf0 → 0x90 ≤ second.toNat) ∧
      (first.toNat = 0xf4 → second.toNat < 0x90) := by
  simp only [badSecond, Bool.or_eq_false_iff, Bool.and_eq_false_iff, beq_eq_false_iff_ne,
    decide_eq_false_iff_not]
  omega

/-- The bounds on the bytes make the checks of the point superfluous. -/
lemma CharSequence.whole {sequence : List UInt8} {point : Nat} (h : CharSequence sequence point) :
    Whole sequence point := by
  have low (b : UInt8) : b.toNat % 64 < 64 := Nat.mod_lt _ (by decide)
  have checked {point : Nat} (value : codePoint sequence = point) (nonzero : point ≠ 0)
      (fine : ¬((0xd800 ≤ point ∧ point ≤ 0xdfff) ∨ 0x10ffff < point)) :
      checkedPoint sequence = .ok point := by
    rw [checkedPoint, value, if_neg nonzero, if_neg fine]
  cases h with
  | @one a least most =>
    refine ⟨neededBytes_iff.mpr (.inl ⟨rfl, least, most⟩), rfl, fun two => ?_, ?_⟩
    · exact absurd two (Nat.not_succ_le_self 1)
    · exact checked rfl (by omega) (by omega)
  | @two a b least most least' most' =>
    refine ⟨neededBytes_iff.mpr (.inr (.inl ⟨rfl, least, most⟩)), ?_, fun _ => ?_, ?_⟩
    · rw [List.tail_cons, List.all_cons, (isContinuation_iff b).mpr ⟨least', most'⟩]
      rfl
    · show badSecond a b = false
      rw [badSecond_eq_false]
      omega
    · have lead : a.toNat &&& 0x1f = a.toNat % 32 := Nat.and_two_pow_sub_one_eq_mod a.toNat 5
      refine checked ?_ (by omega) (by omega)
      rw [codePoint, lowSix_eq, lead, shiftLeft_or (low b)]
      omega
  | @three a b c least most least' most' long surrogate least'' most'' =>
    refine ⟨neededBytes_iff.mpr (.inr (.inr (.inl ⟨rfl, least, most⟩))), ?_, fun _ => ?_, ?_⟩
    · rw [List.tail_cons, List.all_cons, List.all_cons,
        (isContinuation_iff b).mpr ⟨least', most'⟩, (isContinuation_iff c).mpr ⟨least'', most''⟩]
      rfl
    · show badSecond a b = false
      rw [badSecond_eq_false]
      omega
    · have lead : a.toNat &&& 0x0f = a.toNat % 16 := Nat.and_two_pow_sub_one_eq_mod a.toNat 4
      refine checked ?_ (by omega) (by omega)
      rw [codePoint, lowSix_eq, lowSix_eq, lead, or_three (low b) (low c)]
      omega
  | @four a b c d least most least' most' long beyond cLeast cMost dLeast dMost =>
    refine ⟨neededBytes_iff.mpr (.inr (.inr (.inr ⟨rfl, least, most⟩))), ?_, fun _ => ?_, ?_⟩
    · rw [List.tail_cons, List.all_cons, List.all_cons, List.all_cons,
        (isContinuation_iff b).mpr ⟨least', most'⟩, (isContinuation_iff c).mpr ⟨cLeast, cMost⟩,
        (isContinuation_iff d).mpr ⟨dLeast, dMost⟩]
      rfl
    · show badSecond a b = false
      rw [badSecond_eq_false]
      omega
    · have lead : a.toNat &&& 7 = a.toNat % 8 := Nat.and_two_pow_sub_one_eq_mod a.toNat 3
      refine checked ?_ (by omega) (by omega)
      rw [codePoint, lowSix_eq, lowSix_eq, lowSix_eq, lead, or_four (low b) (low c) (low d)]
      omega

/-- A whole sequence has the bytes of its point. -/
lemma Whole.charSequence {sequence : List UInt8} {point : Nat} (h : Whole sequence point) :
    CharSequence sequence point := by
  obtain ⟨point', bounded⟩ : ∃ point', CharSequence sequence point' := by
    obtain ⟨needed, continues, second, -⟩ := h
    rcases neededBytes_eq needed with ⟨one, range⟩ | ⟨two, range⟩ | ⟨three, range⟩ | ⟨four, range⟩
    · obtain ⟨a, rfl⟩ := List.length_eq_one_iff.mp one
      exact ⟨_, .one range.1 range.2⟩
    · obtain ⟨a, b, rfl⟩ := List.length_eq_two.mp two
      simp only [List.tail_cons, List.all_cons, List.all_nil, Bool.and_true,
        isContinuation_iff] at continues
      exact ⟨_, .two range.1 range.2 continues.1 continues.2⟩
    · obtain ⟨a, b, c, rfl⟩ := List.length_eq_three.mp three
      simp only [List.tail_cons, List.all_cons, List.all_nil, Bool.and_true, Bool.and_eq_true,
        isContinuation_iff] at continues
      obtain ⟨⟨bLeast, bMost⟩, cLeast, cMost⟩ := continues
      obtain ⟨long, surrogate, -⟩ := badSecond_eq_false.mp (second (Nat.le_succ 2))
      exact ⟨_, .three range.1 range.2 bLeast bMost long surrogate cLeast cMost⟩
    · obtain ⟨a, b, c, d, rfl⟩ : ∃ a b c d, sequence = [a, b, c, d] := by
        match sequence, four with
        | [a, b, c, d], _ => exact ⟨a, b, c, d, rfl⟩
      simp only [List.tail_cons, List.all_cons, List.all_nil, Bool.and_true, Bool.and_eq_true,
        isContinuation_iff] at continues
      obtain ⟨⟨bLeast, bMost⟩, ⟨cLeast, cMost⟩, dLeast, dMost⟩ := continues
      obtain ⟨-, -, long, beyond⟩ := badSecond_eq_false.mp (second (Nat.le_add_left 2 2))
      exact ⟨_, .four range.1 range.2 bLeast bMost long beyond cLeast cMost dLeast dMost⟩
  have same := h.point.symm.trans bounded.whole.point
  cases same
  exact bounded

/-- A small number as a byte. -/
lemma toNat_ofNat {n : Nat} (small : n < 256) : (UInt8.ofNat n).toNat = n :=
  UInt8.toNat_ofNat_of_lt' small

/-- A character other than NUL has one of the sequences. -/
lemma charSequence (c : Char) (nonzero : c.toNat ≠ 0) :
    CharSequence (String.utf8EncodeChar c) c.toNat := by
  have valid : c.toNat < 0xd800 ∨ (0xdfff < c.toNat ∧ c.toNat < 0x110000) := c.valid
  have byte {n : Nat} (small : n < 256) : (UInt8.ofNat n).toNat = n := toNat_ofNat small
  have same : c.val.toNat = c.toNat := rfl
  unfold String.utf8EncodeChar
  dsimp only
  rw [same]
  generalize c.toNat = n at *
  split_ifs with one two three
  · have first : (UInt8.ofNat n).toNat = n := byte (by omega)
    have bounded := CharSequence.one (a := UInt8.ofNat n) (by omega) (by omega)
    rwa [first] at bounded
  · have first : (UInt8.ofNat (n / 64 % 0x20 + 0xc0)).toNat = n / 64 % 0x20 + 0xc0 :=
      byte (by omega)
    have second : (UInt8.ofNat (n % 0x40 + 0x80)).toNat = n % 0x40 + 0x80 := byte (by omega)
    have bounded := CharSequence.two (a := UInt8.ofNat (n / 64 % 0x20 + 0xc0))
      (b := UInt8.ofNat (n % 0x40 + 0x80)) (by omega) (by omega) (by omega) (by omega)
    rw [first, second] at bounded
    have value : (n / 64 % 0x20 + 0xc0 - 0xc0) * 64 + (n % 0x40 + 0x80 - 0x80) = n := by omega
    rwa [value] at bounded
  · have first : (UInt8.ofNat (n / 4096 % 0x10 + 0xe0)).toNat = n / 4096 % 0x10 + 0xe0 :=
      byte (by omega)
    have second : (UInt8.ofNat (n / 64 % 0x40 + 0x80)).toNat = n / 64 % 0x40 + 0x80 :=
      byte (by omega)
    have third : (UInt8.ofNat (n % 0x40 + 0x80)).toNat = n % 0x40 + 0x80 := byte (by omega)
    have bounded := CharSequence.three (a := UInt8.ofNat (n / 4096 % 0x10 + 0xe0))
      (b := UInt8.ofNat (n / 64 % 0x40 + 0x80)) (c := UInt8.ofNat (n % 0x40 + 0x80))
      (by omega) (by omega) (by omega) (by omega) (by omega) (by omega) (by omega) (by omega)
    rw [first, second, third] at bounded
    have value : (n / 4096 % 0x10 + 0xe0 - 0xe0) * 4096 + (n / 64 % 0x40 + 0x80 - 0x80) * 64 +
        (n % 0x40 + 0x80 - 0x80) = n := by omega
    rwa [value] at bounded
  · have first : (UInt8.ofNat (n / 262144 % 0x08 + 0xf0)).toNat = n / 262144 % 0x08 + 0xf0 :=
      byte (by omega)
    have second : (UInt8.ofNat (n / 4096 % 0x40 + 0x80)).toNat = n / 4096 % 0x40 + 0x80 :=
      byte (by omega)
    have third : (UInt8.ofNat (n / 64 % 0x40 + 0x80)).toNat = n / 64 % 0x40 + 0x80 :=
      byte (by omega)
    have fourth : (UInt8.ofNat (n % 0x40 + 0x80)).toNat = n % 0x40 + 0x80 := byte (by omega)
    have bounded := CharSequence.four (a := UInt8.ofNat (n / 262144 % 0x08 + 0xf0))
      (b := UInt8.ofNat (n / 4096 % 0x40 + 0x80)) (c := UInt8.ofNat (n / 64 % 0x40 + 0x80))
      (d := UInt8.ofNat (n % 0x40 + 0x80)) (by omega) (by omega) (by omega) (by omega) (by omega)
      (by omega) (by omega) (by omega) (by omega) (by omega)
    rw [first, second, third, fourth] at bounded
    have value : (n / 262144 % 0x08 + 0xf0 - 0xf0) * 262144 +
        (n / 4096 % 0x40 + 0x80 - 0x80) * 4096 + (n / 64 % 0x40 + 0x80 - 0x80) * 64 +
        (n % 0x40 + 0x80 - 0x80) = n := by omega
    rwa [value] at bounded

/-- Every sequence is that of a character. -/
lemma CharSequence.char {sequence : List UInt8} {point : Nat} (h : CharSequence sequence point) :
    ∃ c : Char, c.toNat ≠ 0 ∧ c.toNat = point ∧ sequence = String.utf8EncodeChar c := by
  have byte (a : UInt8) {n : Nat} (value : n = a.toNat) : UInt8.ofNat n = a := by
    rw [value, UInt8.ofNat_toNat]
  have encode (c : Char) (same : c.toNat = point) (bytes : List UInt8)
      (eq : bytes = if point ≤ 0x7f then [UInt8.ofNat point]
        else if point ≤ 0x7ff then
          [UInt8.ofNat (point / 64 % 0x20 + 0xc0), UInt8.ofNat (point % 0x40 + 0x80)]
        else if point ≤ 0xffff then
          [UInt8.ofNat (point / 4096 % 0x10 + 0xe0), UInt8.ofNat (point / 64 % 0x40 + 0x80),
            UInt8.ofNat (point % 0x40 + 0x80)]
        else
          [UInt8.ofNat (point / 262144 % 0x08 + 0xf0), UInt8.ofNat (point / 4096 % 0x40 + 0x80),
            UInt8.ofNat (point / 64 % 0x40 + 0x80), UInt8.ofNat (point % 0x40 + 0x80)]) :
      bytes = String.utf8EncodeChar c := by
    rw [eq, ← same]
    rfl
  have valid : point < 0xd800 ∨ (0xdfff < point ∧ point < 0x110000) := by
    cases h <;> omega
  have nonzero : point ≠ 0 := by
    cases h <;> omega
  have value : (Char.ofNatAux point valid).toNat = point := rfl
  refine ⟨Char.ofNatAux point valid, by rwa [value], value, encode _ value _ ?_⟩
  cases h with
  | @one a least most => rw [if_pos most, byte a rfl]
  | @two a b least most least' most' =>
    rw [if_neg (by omega), if_pos (by omega), byte a (by omega), byte b (by omega)]
  | @three a b c least most least' most' long surrogate least'' most'' =>
    rw [if_neg (by omega), if_neg (by omega), if_pos (by omega), byte a (by omega),
      byte b (by omega), byte c (by omega)]
  | @four a b c d least most least' most' long beyond cLeast cMost dLeast dMost =>
    rw [if_neg (by omega), if_neg (by omega), if_neg (by omega), byte a (by omega),
      byte b (by omega), byte c (by omega), byte d (by omega)]

/-- The units of the code are those of UTF-16. -/
lemma utf16_eq (c : Char) : utf16 c.toNat = encodeUtf16 c := by
  rw [utf16, encodeUtf16]
  by_cases basic : c.toNat < 0x10000
  · rw [if_pos basic, if_pos (by omega)]
  · have valid : c.toNat < 0xd800 ∨ (0xdfff < c.toNat ∧ c.toNat < 0x110000) := c.valid
    have upper : (c.toNat - 0x10000) / 2 ^ 10 < 2 ^ 10 := by omega
    have lower : (c.toNat - 0x10000) % 2 ^ 10 < 2 ^ 10 := Nat.mod_lt _ (by decide)
    have high : 0xd800 ||| (c.toNat - 0x10000) >>> 10 = 0xd800 + (c.toNat - 0x10000) / 0x400 := by
      rw [Nat.shiftRight_eq_div_pow]
      exact shiftLeft_or (a := 54) upper
    have low : 0xdc00 ||| (c.toNat - 0x10000) &&& 0x3ff =
        0xdc00 + (c.toNat - 0x10000) % 0x400 := by
      rw [show (c.toNat - 0x10000) &&& 0x3ff = (c.toNat - 0x10000) % 2 ^ 10 from
        Nat.and_two_pow_sub_one_eq_mod _ 10]
      exact shiftLeft_or (a := 55) lower
    rw [if_neg basic, if_neg (by omega), high, low]

/-- The bytes of a character other than NUL are a whole sequence. -/
lemma whole_char {c : Char} (nonzero : c.toNat ≠ 0) : Whole (String.utf8EncodeChar c) c.toNat :=
  (charSequence c nonzero).whole

/-- A whole sequence is the bytes of a character. -/
lemma Whole.char {sequence : List UInt8} {point : Nat} (h : Whole sequence point) :
    ∃ c : Char, c.toNat ≠ 0 ∧ c.toNat = point ∧ sequence = String.utf8EncodeChar c :=
  h.charSequence.char

/-- No character's bytes begin with those of another. -/
lemma char_unique {c c' : Char} {rest rest' : List UInt8} (nonzero : c.toNat ≠ 0)
    (nonzero' : c'.toNat ≠ 0)
    (same : String.utf8EncodeChar c ++ rest = String.utf8EncodeChar c' ++ rest') :
    c = c' ∧ rest = rest' := by
  have whole := whole_char nonzero
  have whole' := whole_char nonzero'
  have heads : (String.utf8EncodeChar c).headD 0 = (String.utf8EncodeChar c').headD 0 := by
    obtain ⟨a, as, first⟩ := List.exists_cons_of_ne_nil whole.ne_nil
    obtain ⟨b, bs, first'⟩ := List.exists_cons_of_ne_nil whole'.ne_nil
    rw [first, first'] at same ⊢
    exact (List.cons.inj same).1
  have lengths : (String.utf8EncodeChar c).length = (String.utf8EncodeChar c').length := by
    have needed := whole.needed
    rw [heads, whole'.needed] at needed
    exact (Except.ok.inj needed).symm
  obtain ⟨bytes, rests⟩ := List.append_inj same lengths
  have points := whole.point
  rw [bytes, whole'.point] at points
  exact ⟨Char.toNat_inj.mp (Except.ok.inj points).symm, rests⟩

/-- The beginning of a character that is not all of it. -/
structure Front (bytes : List UInt8) : Prop where
  unfinished : Unfinished bytes
  second : 2 ≤ bytes.length → badSecond (bytes.headD 0) (bytes.tail.headD 0) = false

/-- The beginning of a whole sequence is a front. -/
lemma Whole.front {bytes more : List UInt8} {point : Nat} (h : Whole (bytes ++ more) point)
    (some_bytes : bytes ≠ []) (some_more : more ≠ []) : Front bytes := by
  obtain ⟨first, rest, rfl⟩ := List.exists_cons_of_ne_nil some_bytes
  have positive := List.length_pos_of_ne_nil some_more
  refine ⟨⟨⟨_, h.needed, ?_⟩, ?_⟩, fun two => ?_⟩
  · rw [List.length_append]
    omega
  · have continues := h.continues
    rw [List.cons_append, List.tail_cons, List.all_append, Bool.and_eq_true] at continues
    exact continues.1
  · have bound := h.second (by rw [List.length_append]; omega)
    cases rest with
    | nil => exact absurd two (Nat.not_succ_le_self 1)
    | cons second rest => exact bound

/-- An unfinished character can be finished. -/
lemma Front.completes {bytes : List UInt8} (h : Front bytes) :
    ∃ more point, more ≠ [] ∧ CharSequence (bytes ++ more) point := by
  obtain ⟨⟨⟨needed, first_needed, short⟩, continues⟩, second⟩ := h
  have c80 : 0x80 ≤ (0x80 : UInt8).toNat ∧ (0x80 : UInt8).toNat < 0xc0 := by decide
  -- by the length of the beginning, and then by the length that its first byte asks for
  match bytes, first_needed, short, continues, second with
  | [], first_needed, _, _, _ => cases first_needed
  | [a], first_needed, short, _, _ =>
    have a_needed : neededBytes a = .ok needed := first_needed
    change 1 < needed at short
    rcases neededBytes_eq a_needed with range | range | range | range
    · omega
    · exact ⟨[0x80], _, nofun, .two range.2.1 range.2.2 c80.1 c80.2⟩
    -- 0x80 always continues, but behind 0xe0 and 0xf0 the code would be too long
    · by_cases e0 : a.toNat = 0xe0
      · exact ⟨[0xa0, 0x80], _, nofun, .three range.2.1 range.2.2 (by decide) (by decide)
          (fun _ => by decide) (fun ed => absurd (e0.symm.trans ed) (by decide)) c80.1 c80.2⟩
      · exact ⟨[0x80, 0x80], _, nofun, .three range.2.1 range.2.2 c80.1 c80.2
          (fun eq => absurd eq e0) (fun _ => by decide) c80.1 c80.2⟩
    · by_cases f0 : a.toNat = 0xf0
      · exact ⟨[0x90, 0x80, 0x80], _, nofun, .four range.2.1 range.2.2 (by decide) (by decide)
          (fun _ => by decide) (fun f4 => absurd (f0.symm.trans f4) (by decide)) c80.1 c80.2
          c80.1 c80.2⟩
      · exact ⟨[0x80, 0x80, 0x80], _, nofun, .four range.2.1 range.2.2 c80.1 c80.2
          (fun eq => absurd eq f0) (fun _ => by decide) c80.1 c80.2 c80.1 c80.2⟩
  | [a, b], first_needed, short, continues, second =>
    have a_needed : neededBytes a = .ok needed := first_needed
    change 2 < needed at short
    obtain ⟨e0, ed, f0, f4⟩ := badSecond_eq_false.mp (second (Nat.le_refl 2))
    simp only [List.tail_cons, List.all_cons, List.all_nil, Bool.and_true,
      isContinuation_iff] at continues
    rcases neededBytes_eq a_needed with range | range | range | range
    · omega
    · omega
    · exact ⟨[0x80], _, nofun, .three range.2.1 range.2.2 continues.1 continues.2 e0 ed c80.1 c80.2⟩
    · exact ⟨[0x80, 0x80], _, nofun, .four range.2.1 range.2.2 continues.1 continues.2 f0 f4 c80.1
        c80.2 c80.1 c80.2⟩
  | [a, b, c], first_needed, short, continues, second =>
    have a_needed : neededBytes a = .ok needed := first_needed
    change 3 < needed at short
    obtain ⟨e0, ed, f0, f4⟩ := badSecond_eq_false.mp (second (Nat.le_add_left 2 1))
    simp only [List.tail_cons, List.all_cons, List.all_nil, Bool.and_true, Bool.and_eq_true,
      isContinuation_iff] at continues
    rcases neededBytes_eq a_needed with range | range | range | range
    · omega
    · omega
    · omega
    · exact ⟨[0x80], _, nofun, .four range.2.1 range.2.2 continues.1.1 continues.1.2 f0 f4
        continues.2.1 continues.2.2 c80.1 c80.2⟩
  | a :: b :: c :: d :: rest, first_needed, short, _, _ =>
    have a_needed : neededBytes a = .ok needed := first_needed
    rw [List.length_cons, List.length_cons, List.length_cons, List.length_cons] at short
    rcases neededBytes_eq a_needed with range | range | range | range <;> omega

end Characters

section Loop

variable {staged units : List UInt16} {bytes carry : List UInt8} {text : List Char}

/-- A whole sequence is decoded before the rest. -/
lemma decodeBytes_whole {sequence : List UInt8} {point : Nat} (h : Whole sequence point)
    (staged : List UInt16) (rest : List UInt8) :
    decodeBytes staged (sequence ++ rest) =
      if stagedUnits < staged.length + (utf16 point).length then .error .capacity
      else decodeBytes (staged ++ utf16 point) rest := by
  obtain ⟨first, tail, rfl⟩ := List.exists_cons_of_ne_nil h.ne_nil
  have needed : neededBytes first = .ok (tail.length + 1) := h.needed
  have continues : tail.all isContinuation = true := h.continues
  have second : 2 ≤ tail.length + 1 →
      isContinuation ((tail ++ rest).headD 0) = true ∧
        badSecond first ((tail ++ rest).headD 0) = false := by
    intro two
    have fine := h.second two
    cases tail with
    | nil => exact absurd two (Nat.not_succ_le_self 1)
    | cons b tail => exact ⟨List.all_eq_true.mp continues b List.mem_cons_self, fine⟩
  have long : ¬(tail ++ rest).length + 1 < tail.length + 1 := by
    rw [List.length_append]
    omega
  rw [List.cons_append, decodeBytes, needed]
  dsimp only
  rw [if_neg, if_neg long, Nat.add_sub_cancel, List.take_left, if_neg, if_neg, h.point,
    List.drop_left]
  · rintro ⟨three, bad⟩
    rw [(second (by omega)).2] at bad
    cases bad
  · rw [continues]
    exact Bool.false_ne_true
  · rintro ⟨two, -, bad⟩
    rw [(second two).1, (second two).2] at bad
    cases bad

/-- A front is carried. -/
lemma decodeBytes_front (h : Front bytes) (staged : List UInt16) :
    decodeBytes staged bytes = .ok (staged, bytes) := by
  obtain ⟨⟨⟨needed, first_needed, short⟩, continues⟩, second⟩ := h
  cases bytes with
  | nil => cases first_needed
  | cons first rest =>
    have first_needed : neededBytes first = .ok needed := first_needed
    have continues : rest.all isContinuation = true := continues
    rw [List.length_cons] at short
    rw [decodeBytes, first_needed]
    dsimp only
    rw [if_neg, if_pos short, if_pos continues]
    rintro ⟨two, some_left, bad⟩
    cases rest with
    | nil => exact some_left rfl
    | cons b rest =>
      have fine : badSecond first b = false := second (Nat.le_add_left 2 _)
      change (!isContinuation b || badSecond first b) = true at bad
      rw [List.all_eq_true.mp continues b List.mem_cons_self, fine] at bad
      cases bad

/-- What is carried is the front of a character: the second byte was checked too. -/
lemma front_of_carried (unfinished : Unfinished bytes)
    (decoded : decodeBytes staged bytes = .ok (units, carry)) : Front bytes := by
  refine ⟨unfinished, fun two => ?_⟩
  rcases bytes with _ | ⟨first, _ | ⟨second, rest⟩⟩
  · cases two
  · exact absurd two (by decide : ¬2 ≤ 1)
  · obtain ⟨⟨needed, first_needed, short⟩, _⟩ := unfinished
    have first_needed : neededBytes first = .ok needed := first_needed
    rw [List.length_cons, List.length_cons] at short
    rw [decodeBytes, first_needed] at decoded
    dsimp only at decoded
    split_ifs at decoded with bad
    all_goals
      show badSecond first second = false
      cases fine : badSecond first second with
      | false => rfl
      | true =>
        refine absurd ⟨by omega, List.cons_ne_nil _ _, ?_⟩ bad
        change (!isContinuation second || badSecond first second) = true
        rw [fine, Bool.or_true]

/-- The decoder's loop on a text and the front of one more character. -/
lemma decodeBytes_text (nulFree : NulFree text) (ends : carry = [] ∨ Front carry)
    (room : staged.length + (utf8Of text ++ carry).length ≤ stagedUnits) :
    decodeBytes staged (utf8Of text ++ carry) = .ok (staged ++ utf16Of text, carry) := by
  induction text generalizing staged with
  | nil =>
    show decodeBytes staged carry = .ok (staged ++ [], carry)
    rw [List.append_nil]
    rcases ends with rfl | front
    · rw [decodeBytes]
    · exact decodeBytes_front front staged
  | cons c text ih =>
    have whole := whole_char (nulFree c List.mem_cons_self)
    have bytes : utf8Of (c :: text) = String.utf8EncodeChar c ++ utf8Of text := List.flatMap_cons
    have units : utf16Of (c :: text) = encodeUtf16 c ++ utf16Of text := List.flatMap_cons
    have own := whole.units.1
    rw [bytes, List.append_assoc, List.length_append] at room
    rw [utf16_eq] at own
    rw [bytes, units, List.append_assoc, decodeBytes_whole whole, utf16_eq, if_neg (by omega),
      ih (fun c' mem => nulFree c' (List.mem_cons_of_mem _ mem))
        (by rw [List.length_append]; omega), List.append_assoc]

/-- What is decoded is text, and what is carried is a front. -/
lemma decodeBytes_decoded (decoded : decodeBytes staged bytes = .ok (units, carry)) :
    ∃ text, NulFree text ∧ bytes = utf8Of text ++ carry ∧ (carry = [] ∨ Front carry) ∧
      units = staged ++ utf16Of text := by
  induction hn : bytes.length using Nat.strong_induction_on generalizing staged bytes with
  | _ n ih =>
    rcases decodeBytes_cases staged bytes with ⟨_, _, refused⟩ | ⟨rfl, done⟩ |
      ⟨unfinished, done⟩ | ⟨sequence, rest, point, rfl, whole, more⟩
    · rw [decoded] at refused
      cases refused
    · rw [decoded] at done
      cases done
      exact ⟨[], nofun, rfl, .inl rfl, (List.append_nil _).symm⟩
    · have front := front_of_carried unfinished decoded
      rw [decoded] at done
      cases done
      exact ⟨[], nofun, rfl, .inr front, (List.append_nil _).symm⟩
    -- the induction is on the bytes left behind the first character
    · rw [decoded] at more
      split at more
      · cases more
      have positive := List.length_pos_of_ne_nil whole.ne_nil
      rw [List.length_append] at hn
      obtain ⟨text, nulFree, rfl, ends, rfl⟩ := ih rest.length (by omega) more.symm rfl
      obtain ⟨c, nonzero, rfl, rfl⟩ := whole.char
      refine ⟨c :: text, List.forall_mem_cons.mpr ⟨nonzero, nulFree⟩, ?_, ends, ?_⟩
      · rw [utf8Of, utf8Of, List.flatMap_cons, List.append_assoc]
      · rw [utf16_eq, utf16Of, utf16Of, List.flatMap_cons, List.append_assoc]

end Loop

section Texts

variable {bytes carry : List UInt8} {text : List Char}

/-- A front is a proper beginning of a character's bytes. -/
lemma front_iff : Front carry ↔ carry ≠ [] ∧
    ∃ c : Char, c.toNat ≠ 0 ∧ carry <+: String.utf8EncodeChar c ∧
      carry ≠ String.utf8EncodeChar c := by
  constructor
  · intro front
    refine ⟨?_, ?_⟩
    · rintro rfl
      obtain ⟨needed, none_needed, -⟩ := front.unfinished.needed
      cases none_needed
    · obtain ⟨more, point, some_more, bounded⟩ := front.completes
      obtain ⟨c, nonzero, -, bytes⟩ := bounded.char
      refine ⟨c, nonzero, ⟨more, bytes⟩, fun all => some_more ?_⟩
      rw [← all] at bytes
      exact List.append_right_eq_self.mp bytes
  · rintro ⟨some_bytes, c, nonzero, ⟨more, bytes⟩, less⟩
    have whole := whole_char nonzero
    rw [← bytes] at whole
    refine whole.front some_bytes ?_
    rintro rfl
    rw [List.append_nil] at bytes
    exact less bytes

/-- Behind the text is nothing, or a front. -/
lemma Decoded.ends (h : Decoded bytes text carry) : carry = [] ∨ Front carry := by
  rcases h.unfinished with empty | unfinished
  · exact .inl empty
  · by_cases empty : carry = []
    · exact .inl empty
    · exact .inr (front_iff.mpr ⟨empty, unfinished⟩)

/-- A text and what is carried behind it. -/
lemma Decoded.of_end (nulFree : NulFree text) (ends : carry = [] ∨ Front carry) :
    Decoded (utf8Of text ++ carry) text carry :=
  ⟨rfl, nulFree, ends.imp_right fun front => (front_iff.mp front).2⟩

/-- The bytes of a text are those of its characters in turn. -/
lemma utf8Of_cons (c : Char) (text : List Char) :
    utf8Of (c :: text) = String.utf8EncodeChar c ++ utf8Of text :=
  List.flatMap_cons

/-- The front of one character holds no whole one. -/
lemma Decoded.not_cons {c : Char} {carry' : List UInt8} (h : Decoded bytes [] carry)
    (h' : Decoded bytes (c :: text) carry') : False := by
  have same : String.utf8EncodeChar c ++ (utf8Of text ++ carry') = carry := by
    rw [← List.append_assoc, ← utf8Of_cons, ← h'.split, h.split]
    rfl
  have nonzero := h'.nulFree c List.mem_cons_self
  rcases h.unfinished with empty | ⟨d, nonzero', ⟨more, bytes⟩, less⟩
  · rw [empty] at same
    exact String.utf8EncodeChar_ne_nil (List.append_eq_nil_iff.mp same).1
  · rw [← same, List.append_assoc, ← List.append_nil (String.utf8EncodeChar d)] at bytes
    obtain ⟨rfl, rest⟩ := char_unique nonzero nonzero' bytes
    rw [(List.append_eq_nil_iff.mp rest).1, List.append_nil] at same
    exact less same.symm

/-- Behind the first character the rest is decoded. -/
lemma Decoded.tail {c : Char} {rest : List UInt8}
    (h : Decoded (String.utf8EncodeChar c ++ rest) (c :: text) carry) : Decoded rest text carry where
  split := by
    have split := h.split
    rw [utf8Of_cons, List.append_assoc] at split
    exact List.append_cancel_left split
  nulFree d mem := h.nulFree d (List.mem_cons_of_mem _ mem)
  unfinished := h.unfinished

/-- Bytes decode in one way at most. -/
lemma Decoded.unique {text' : List Char} {carry' : List UInt8} (h : Decoded bytes text carry)
    (h' : Decoded bytes text' carry') : text = text' ∧ carry = carry' := by
  induction text generalizing bytes text' with
  | nil =>
    cases text' with
    | nil => exact ⟨rfl, h.split.symm.trans h'.split⟩
    | cons c' text' => exact (h.not_cons h').elim
  | cons c text ih =>
    cases text' with
    | nil => exact (h'.not_cons h).elim
    | cons c' text' =>
      have split := h.split
      rw [utf8Of_cons, List.append_assoc] at split
      subst split
      have split' := h'.split
      rw [utf8Of_cons, List.append_assoc] at split'
      obtain ⟨rfl, -⟩ := char_unique (h.nulFree c List.mem_cons_self)
        (h'.nulFree c' List.mem_cons_self) split'
      obtain ⟨rfl, rfl⟩ := ih h.tail h'.tail
      exact ⟨rfl, rfl⟩

/-- What is decoded begins a text. -/
lemma Decoded.beginsText (h : Decoded bytes text carry) : BeginsText bytes := by
  rcases h.unfinished with empty | ⟨c, nonzero, unfinished, -⟩
  · have split := h.split
    rw [empty, List.append_nil] at split
    exact ⟨text, h.nulFree, [], by rw [split, List.append_nil]⟩
  · refine ⟨text ++ [c], ?_, ?_⟩
    · intro d mem
      rcases List.mem_append.mp mem with before | last
      · exact h.nulFree d before
      · rw [List.mem_singleton.mp last]
        exact nonzero
    · rw [h.split, utf8Of, utf8Of, List.flatMap_append, List.flatMap_singleton]
      exact (List.prefix_append_right_inj _).mpr unfinished

/-- What begins a text is decoded. -/
lemma BeginsText.decoded (h : BeginsText bytes) : ∃ text carry, Decoded bytes text carry := by
  obtain ⟨whole, nulFree, begins⟩ := h
  induction whole generalizing bytes with
  | nil =>
    refine ⟨[], [], ?_, nofun, .inl rfl⟩
    exact List.prefix_nil.mp begins
  | cons c whole ih =>
    obtain ⟨nonzero, nulFree⟩ := List.forall_mem_cons.mp nulFree
    rw [utf8Of_cons] at begins
    rcases List.prefix_or_prefix_of_prefix begins (List.prefix_append _ _) with short | ⟨rest, rfl⟩
    -- the bytes end within the first character, or with it
    · by_cases all : bytes = String.utf8EncodeChar c
      · refine ⟨[c], [], ?_, List.forall_mem_cons.mpr ⟨nonzero, nofun⟩, .inl rfl⟩
        rw [all, utf8Of_cons, List.append_assoc]
        exact (List.append_nil _).symm
      · exact ⟨[], bytes, rfl, nofun, .inr ⟨c, nonzero, short, all⟩⟩
    · obtain ⟨text, carry, decoded⟩ := ih nulFree ((List.prefix_append_right_inj _).mp begins)
      refine ⟨c :: text, carry, ?_, List.forall_mem_cons.mpr ⟨nonzero, decoded.nulFree⟩,
        decoded.unfinished⟩
      rw [utf8Of_cons, List.append_assoc, ← decoded.split]

/-- More bytes are decoded behind what is carried. -/
lemma Decoded.append {more : List UInt8} {text' : List Char} {carry' : List UInt8}
    (h : Decoded bytes text carry) (h' : Decoded (carry ++ more) text' carry') :
    Decoded (bytes ++ more) (text ++ text') carry' where
  split := by
    rw [h.split, List.append_assoc, h'.split, utf8Of, utf8Of, utf8Of, List.flatMap_append,
      List.append_assoc]
  nulFree c mem := (List.mem_append.mp mem).elim (h.nulFree c) (h'.nulFree c)
  unfinished := h'.unfinished

/-- At most three bytes are carried. -/
lemma Decoded.carry_length (h : Decoded bytes text carry) : carry.length ≤ 3 := by
  rcases h.ends with rfl | front
  · exact Nat.zero_le 3
  · exact (front.unfinished.width false).1

end Texts

section Pushes

/-- What a push does, error by error. -/
lemma pushInto_eq (piece : List UInt8) (s : PushState) :
    pushInto piece s =
      if pieceBytes < piece.length then (.error .capacity, s)
      else match decodeBytes [] (s.decoder.carry ++ piece) with
        | .error error => (.error error, s)
        | .ok (units, carry) =>
          if s.output.length < units.length then (.error .capacity, s)
          else (.ok units.length, ⟨⟨carry⟩, units ++ s.output.drop units.length⟩) := by
  unfold pushInto
  split_ifs with long
  · rfl
  · dsimp only
    cases decoded : decodeBytes [] (s.decoder.carry ++ piece) with
    | error error => exact Fallible.bind_error (congrArg (·, s) decoded)
    | ok result =>
      obtain ⟨units, carry⟩ := result
      have loop : Fallible.lift (fun s : PushState => decodeBytes [] (s.decoder.carry ++ piece)) s =
          (.ok (units, carry), s) := congrArg (·, s) decoded
      rw [Fallible.bind_ok loop]
      change (if s.output.length < units.length then _ else _ : Fallible PushState _ _) s =
        if s.output.length < units.length then _ else _
      split_ifs
      · rfl
      · rfl

/-- What a push does to a decoder and a buffer: it takes bytes that begin a text, as far as the
buffer has room for their units, and refuses all others; what it refuses changes nothing. -/
structure Strict (s : PushState) (piece : List UInt8) : Prop where
  accepts : BeginsText (s.decoder.carry ++ piece) →
    ∃ text carry, Decoded (s.decoder.carry ++ piece) text carry ∧
      pushInto piece s =
        if s.output.length < (utf16Of text).length then (.error .capacity, s)
        else (.ok (utf16Of text).length,
          ⟨⟨carry⟩, utf16Of text ++ s.output.drop (utf16Of text).length⟩)
  rejects : ¬BeginsText (s.decoder.carry ++ piece) →
    ∃ error, error ≠ .capacity ∧ pushInto piece s = (.error error, s)

/-- A push of a small piece is strict. -/
lemma strict {s : PushState} {piece : List UInt8} (short : s.decoder.carry.length ≤ 3)
    (small : piece.length ≤ pieceBytes) : Strict s piece := by
  have room : ([] : List UInt16).length + (s.decoder.carry ++ piece).length ≤ stagedUnits := by
    rw [List.length_append]
    change 0 + _ ≤ 132
    change _ ≤ 128 at small
    omega
  refine ⟨fun begins => ?_, fun refused => ?_⟩
  · obtain ⟨text, carry, decoded⟩ := begins.decoded
    refine ⟨text, carry, decoded, ?_⟩
    have loop : decodeBytes [] (s.decoder.carry ++ piece) = .ok ([] ++ utf16Of text, carry) := by
      rw [decoded.split] at room ⊢
      exact decodeBytes_text decoded.nulFree decoded.ends room
    rw [pushInto_eq, if_neg (Nat.not_lt.mpr small), loop]
    rfl
  · cases loop : decodeBytes [] (s.decoder.carry ++ piece) with
    | error error =>
      refine ⟨error, ?_, ?_⟩
      · rintro rfl
        exact decodeBytes_ne_capacity room loop
      · rw [pushInto_eq, if_neg (Nat.not_lt.mpr small), loop]
    | ok result =>
      obtain ⟨text, nulFree, split, ends, -⟩ := decodeBytes_decoded loop
      have whole : Decoded (s.decoder.carry ++ piece) text result.2 :=
        split ▸ .of_end nulFree ends
      exact absurd whole.beginsText refused

/-- A push that fails changes nothing, whatever the piece. -/
lemma pushInto_error {piece : List UInt8} {s t : PushState} {error : Utf8Error}
    (failed : pushInto piece s = (.error error, t)) : t = s := by
  rw [pushInto_eq] at failed
  split_ifs at failed
  · exact (Prod.mk.inj failed).2.symm
  · split at failed
    · exact (Prod.mk.inj failed).2.symm
    · split_ifs at failed
      · exact (Prod.mk.inj failed).2.symm
      · cases (Prod.mk.inj failed).1

/-- A push that succeeds. -/
lemma pushInto_ok {piece : List UInt8} {s t : PushState} {written : Nat}
    (pushed : pushInto piece s = (.ok written, t)) :
    ∃ text, Decoded (s.decoder.carry ++ piece) text t.decoder.carry ∧
      written = (utf16Of text).length ∧
      t.output = utf16Of text ++ s.output.drop (utf16Of text).length := by
  rw [pushInto_eq] at pushed
  split_ifs at pushed
  · cases (Prod.mk.inj pushed).1
  · split at pushed
    · cases (Prod.mk.inj pushed).1
    · rename_i units carry loop
      split_ifs at pushed
      · cases (Prod.mk.inj pushed).1
      · obtain ⟨text, nulFree, split, ends, rfl⟩ := decodeBytes_decoded loop
        cases pushed
        refine ⟨text, ?_, rfl, rfl⟩
        rw [split]
        exact .of_end nulFree ends

/-- The pieces of a run are decoded as one. -/
lemma pushPieces_decoded {decoder last : Utf8Decoder} {units : List UInt16} {text : List Char}
    {bytes : List UInt8} {pieces : List (List UInt8 × List UInt16)}
    (before : Decoded bytes text decoder.carry)
    (run : pushPieces decoder pieces = some (units, last)) :
    ∃ more, Decoded (bytes ++ (pieces.map Prod.fst).flatten) (text ++ more) last.carry ∧
      units = utf16Of more := by
  induction pieces generalizing decoder units text bytes with
  | nil =>
    cases run
    refine ⟨[], ?_, rfl⟩
    rw [List.append_nil]
    exact (List.append_nil bytes).symm ▸ before
  | cons piece pieces ih =>
    obtain ⟨piece, output⟩ := piece
    rw [pushPieces] at run
    cases pushed : pushInto piece ⟨decoder, output⟩ with
    | mk result s =>
      cases result with
      | error error =>
        rw [pushed] at run
        cases run
      | ok written =>
        rw [pushed] at run
        obtain ⟨⟨units', last'⟩, later, same⟩ := Option.map_eq_some_iff.mp run
        cases same
        obtain ⟨text', decoded, rfl, written⟩ := pushInto_ok pushed
        obtain ⟨more, whole, rfl⟩ := ih (before.append decoded) later
        refine ⟨text' ++ more, ?_, ?_⟩
        · rw [List.map_cons, List.flatten_cons, ← List.append_assoc, ← List.append_assoc]
          exact whole
        · rw [written, List.take_left, utf16Of, utf16Of, utf16Of, List.flatMap_append]

/-- A new decoder has decoded nothing. -/
lemma decoded_new : Decoded [] [] Utf8Decoder.new.carry := ⟨rfl, nofun, .inl rfl⟩

/-- The beginning of what begins a text begins a text. -/
lemma BeginsText.of_append {bytes more : List UInt8} (h : BeginsText (bytes ++ more)) :
    BeginsText bytes := by
  obtain ⟨text, nulFree, begins⟩ := h
  exact ⟨text, nulFree, (List.prefix_append _ _).trans begins⟩

/-- The characters before do not matter. -/
lemma BeginsText.after {text : List Char} {bytes : List UInt8} (nulFree : NulFree text)
    (h : BeginsText (utf8Of text ++ bytes)) : BeginsText bytes := by
  induction text with
  | nil => exact h
  | cons c text ih =>
    obtain ⟨nonzero, nulFree⟩ := List.forall_mem_cons.mp nulFree
    obtain ⟨whole, wholeFree, rest, same⟩ := h
    rw [utf8Of_cons, List.append_assoc, List.append_assoc] at same
    cases whole with
    | nil => exact absurd (List.append_eq_nil_iff.mp same).1 String.utf8EncodeChar_ne_nil
    | cons d whole =>
      obtain ⟨nonzero', wholeFree⟩ := List.forall_mem_cons.mp wholeFree
      rw [utf8Of_cons] at same
      obtain ⟨-, same⟩ := char_unique nonzero nonzero' same
      exact ih nulFree ⟨whole, wholeFree, rest, (List.append_assoc _ _ _).trans same⟩

/-- A text has no more units than bytes. -/
lemma length_utf16Of {text : List Char} (nulFree : NulFree text) :
    (utf16Of text).length ≤ (utf8Of text).length := by
  induction text with
  | nil => exact Nat.le_refl 0
  | cons c text ih =>
    obtain ⟨nonzero, nulFree⟩ := List.forall_mem_cons.mp nulFree
    have own := (whole_char nonzero).units.1
    have rest := ih nulFree
    rw [utf16_eq] at own
    rw [utf8Of_cons, utf16Of, List.flatMap_cons, ← utf16Of, List.length_append, List.length_append]
    omega

/-- With room for the units of every piece, only bytes that begin no text are refused. -/
lemma pushPieces_some {decoder : Utf8Decoder} {text : List Char} {bytes : List UInt8}
    {pieces : List (List UInt8 × List UInt16)} (before : Decoded bytes text decoder.carry)
    (room : ∀ piece ∈ pieces,
      piece.1.length ≤ pieceBytes ∧ piece.1.length + 3 ≤ piece.2.length)
    (begins : BeginsText (bytes ++ (pieces.map Prod.fst).flatten)) :
    ∃ result, pushPieces decoder pieces = some result := by
  induction pieces generalizing decoder text bytes with
  | nil => exact ⟨_, rfl⟩
  | cons piece pieces ih =>
    obtain ⟨piece, output⟩ := piece
    obtain ⟨small, enough⟩ := room _ List.mem_cons_self
    have short := before.carry_length
    rw [List.map_cons, List.flatten_cons, ← List.append_assoc] at begins
    have next : BeginsText (decoder.carry ++ piece) := by
      have here := begins.of_append
      rw [before.split, List.append_assoc] at here
      exact here.after before.nulFree
    obtain ⟨more, carry, decoded, pushed⟩ :=
      (strict (s := ⟨decoder, output⟩) short small).accepts next
    have fits : ¬output.length < (utf16Of more).length := by
      have units := length_utf16Of decoded.nulFree
      have bytes := congrArg List.length decoded.split
      rw [List.length_append, List.length_append] at bytes
      change piece.length + 3 ≤ output.length at enough
      change decoder.carry.length + piece.length = _ at bytes
      omega
    obtain ⟨result, later⟩ := ih (before.append decoded)
      (fun p mem => room p (List.mem_cons_of_mem _ mem)) begins
    rw [if_neg fits] at pushed
    rw [pushPieces, pushed]
    show ∃ result, Option.map _ (pushPieces ⟨carry⟩ pieces) = some result
    rw [later]
    exact ⟨_, rfl⟩

/-- What a run of the decoder has made of the bytes of its pieces, and does with the next one. -/
structure DecodesBytes (bytes : List UInt8) (units : List UInt16) (decoder : Utf8Decoder) :
    Prop where
  decoded : ∃ text, Decoded bytes text decoder.carry ∧ units = utf16Of text
  finish : decoder.finish = .ok () ↔ ∃ text, NulFree text ∧ bytes = utf8Of text
  next : ∀ piece output, piece.length ≤ pieceBytes → Strict ⟨decoder, output⟩ piece
  pieces : ∀ pieces result, (pieces.map Prod.fst).flatten = bytes →
    pushPieces .new pieces = some result → result = (units, decoder)

/-- A decoder finishes when it carries nothing. -/
lemma finish_iff (decoder : Utf8Decoder) : decoder.finish = .ok () ↔ decoder.carry = [] := by
  rw [Utf8Decoder.finish]
  split_ifs with none
  · exact iff_of_true rfl none
  · exact iff_of_false nofun none

/-- Pieces are decoded as the bytes they make up. -/
lemma pushPieces_decodesBytes {pieces : List (List UInt8 × List UInt16)} {units : List UInt16}
    {decoder : Utf8Decoder} (run : pushPieces .new pieces = some (units, decoder)) :
    DecodesBytes (pieces.map Prod.fst).flatten units decoder := by
  obtain ⟨text, decoded, rfl⟩ := pushPieces_decoded decoded_new run
  rw [List.nil_append, List.nil_append] at decoded
  refine ⟨⟨text, decoded, rfl⟩, ?_, fun piece output small => ?_, ?_⟩
  · rw [finish_iff]
    constructor
    · intro none
      refine ⟨text, decoded.nulFree, decoded.split.trans ?_⟩
      rw [none, List.append_nil]
    · rintro ⟨whole, nulFree, split⟩
      refine (decoded.unique ⟨split.trans ?_, nulFree, .inl rfl⟩).2
      rw [List.append_nil]
  · exact strict decoded.carry_length small
  · rintro others ⟨units, last⟩ same other
    obtain ⟨text', decoded', rfl⟩ := pushPieces_decoded decoded_new other
    rw [same, List.nil_append, List.nil_append] at decoded'
    obtain ⟨rfl, carries⟩ := decoded.unique decoded'
    rw [show decoder = last from congrArg Utf8Decoder.mk carries]

end Pushes

/-- The decoder is UTF-8 to UTF-16, however its bytes are cut into pieces. -/
theorem utf8Decoder_strict :
    (∀ pieces units decoder, pushPieces .new pieces = some (units, decoder) →
      DecodesBytes (pieces.map Prod.fst).flatten units decoder) ∧
    (∀ pieces : List (List UInt8 × List UInt16),
      (∀ piece ∈ pieces, piece.1.length ≤ pieceBytes ∧ piece.1.length + 3 ≤ piece.2.length) →
      ((∃ result, pushPieces .new pieces = some result) ↔
        BeginsText (pieces.map Prod.fst).flatten)) ∧
    ∀ piece s error t, pushInto piece s = (.error error, t) → t = s := by
  refine ⟨fun pieces units decoder => pushPieces_decodesBytes, fun pieces room => ⟨?_, fun begins => ?_⟩,
    fun piece s error t => pushInto_error⟩
  · rintro ⟨⟨units, decoder⟩, run⟩
    obtain ⟨text, decoded, -⟩ := (pushPieces_decodesBytes run).decoded
    exact decoded.beginsText
  · exact pushPieces_some decoded_new room begins

/-- The euro sign in two pieces. -/
theorem utf8Decoder_strict_euro :
    DecodesBytes [0xe2, 0x82, 0xac] [0x20ac] ⟨[]⟩ :=
  utf8Decoder_strict.1 [([0xe2], [0]), ([0x82, 0xac], [0, 7])] [0x20ac] ⟨[]⟩ (by decide +kernel)

end Promptboot
