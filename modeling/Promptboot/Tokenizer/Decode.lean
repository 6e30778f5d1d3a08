import Promptboot.Tokenizer.Control
import Promptboot.Tokenizer.Index

/-!
# Decoding tokens

`decode_piece` turns a token back into bytes: a user-defined token is its text, an ordinary one is
decoded character by character through the GPT-2 map of bytes to code points. Where every token
stands for its bytes, decoding what a text was cut into gives the text.

The helper `codepointByte_gpt2Codepoint` inverts the map, with `gpt2Codepoint_injective` behind it;
`Stands.decodes` is one token and `spells_mergeLoop` carries what the tokens stand for through the
merges. The headline `decode_undoes_tokenization` is about the user's part of a prompt,
`smallModel_decodable` a model that meets its condition.
-/

namespace Promptboot
open Memory BytePair

inductive PieceKind where
  | text | eos | suppressed
  deriving DecidableEq

structure PieceUsage where
  kind : PieceKind
  bytes : Nat

/-- `END_OF_TEXT` -/
def endOfText : UInt32 := 151643

def maxPieceBytes : Nat := 128

def pieceStateError (token : UInt32) (available : Nat) : ModelError :=
  ⟨.state, .token, token.toNat, 0, 1, available, .stateField, 0⟩

def pieceRoomError (token : UInt32) (available : Nat) : ModelError :=
  ⟨.state, .pieceOutput, token.toNat, 0, maxPieceBytes, available, .stateField, 0⟩

def pieceKind (token : UInt32) (tokenType : UInt8) : Except ModelError PieceKind :=
  if tokenType = 1 ∨ tokenType = 4 then .ok .text
  else if tokenType = 3 ∧ (token = imEnd ∨ token = endOfText) then .ok .eos
  else if tokenType = 3 ∨ tokenType = 5 then .ok .suppressed
  else .error (pieceStateError token 0)

/-- The loop over the bytes that looks for a code point. -/
def codepointByte (point : Nat) : Option UInt8 :=
  ((List.range 256).find? fun byte => gpt2Codepoint (UInt8.ofNat byte) = point).map UInt8.ofNat

/-- A turn of the loop over the characters of a piece. -/
def decodeCharacter (token : UInt32) (staged : List UInt8) (character : Char) :
    Except ModelError (List UInt8) :=
  match codepointByte character.toNat with
  | none => .error (pieceStateError token character.toNat)
  | some byte =>
    if staged.length = maxPieceBytes then .error (pieceRoomError token (staged.length + 1))
    else .ok (staged ++ [byte])

/-- The bytes of a text piece. -/
def stagePiece (m : ModelView) (token : UInt32) (tokenType : UInt8) :
    Except ModelError (List UInt8) := do
  let piece ← m.tokenBytes token.toNat
  if tokenType = 4 then
    if maxPieceBytes < piece.length then .error (pieceRoomError token piece.length)
    else .ok piece
  else
    match String.fromUTF8? ⟨piece.toArray⟩ with
    | none => .error (pieceStateError token 0)
    | some string => string.toList.foldlM (decodeCharacter token) []

/-- The usage and the output buffer behind a call. -/
def decodePiece (m : ModelView) (token : UInt32) (output : List UInt8) :
    Except ModelError (PieceUsage × List UInt8) := do
  if vocabCount ≤ token.toNat then
    .error ⟨.tokenId, .token, token.toNat, 0, vocabCount, token.toNat, .tokenIdField, 0⟩
  else
    let tokenType ← m.tokenType token.toNat
    let kind ← pieceKind token tokenType
    let staged ← if kind = .text then stagePiece m token tokenType else .ok []
    if output.length < staged.length then
      .error ⟨.outputCapacity, .pieceOutput, 0, 0, staged.length, output.length, .capacity, 0⟩
    else
      .ok (⟨kind, staged.length⟩, copyFromSlice output 0 staged)

section Codepoints

/-- A further hit makes the count larger. -/
lemma countP_range_lt {p : Nat → Bool} {m n : Nat} (lt : m < n) (here : p m = true) :
    (List.range m).countP p < (List.range n).countP p := by
  have part : (List.range (m + 1)).Sublist (List.range n) := List.range_sublist.mpr lt
  have le := part.countP_le (p := p)
  rw [List.range_succ, List.countP_append, List.countP_singleton, if_pos here] at le
  omega

/-- A byte is mapped below 512. -/
lemma gpt2Codepoint_lt (byte : UInt8) : gpt2Codepoint byte < 512 := by
  have bound := byte.toNat_lt
  rw [gpt2Codepoint]
  split_ifs
  · omega
  · have le := List.countP_le_length (l := List.range byte.toNat)
      (p := fun candidate => !preserved (UInt8.ofNat candidate))
    rw [List.length_range] at le
    omega

/-- Different bytes have different code points. -/
lemma gpt2Codepoint_injective : Function.Injective gpt2Codepoint := by
  intro a b same
  have bound := a.toNat_lt
  have bound' := b.toNat_lt
  rw [gpt2Codepoint, gpt2Codepoint] at same
  split_ifs at same with kept kept' kept'
  · exact UInt8.toNat_inj.mp same
  · omega
  · omega
  · apply UInt8.toNat_inj.mp
    rcases Nat.lt_trichotomy a.toNat b.toNat with lt | eq | gt
    · have less := countP_range_lt (p := fun candidate => !preserved (UInt8.ofNat candidate)) lt
        (by simpa using kept)
      omega
    · exact eq
    · have less := countP_range_lt (p := fun candidate => !preserved (UInt8.ofNat candidate)) gt
        (by simpa using kept')
      omega

/-- The search finds the byte of a code point. -/
lemma codepointByte_gpt2Codepoint (byte : UInt8) :
    codepointByte (gpt2Codepoint byte) = some byte := by
  rw [codepointByte]
  rcases found : (List.range 256).find? fun candidate =>
    gpt2Codepoint (UInt8.ofNat candidate) = gpt2Codepoint byte with _ | candidate
  · have missed := List.find?_eq_none.mp found byte.toNat (List.mem_range.mpr byte.toNat_lt)
    rw [UInt8.ofNat_toNat] at missed
    exact absurd (decide_eq_true rfl) missed
  · have same := List.find?_some found
    rw [decide_eq_true_eq] at same
    rw [Option.map_some, gpt2Codepoint_injective same]

/-- The character of a byte. -/
def gpt2Character (byte : UInt8) : Char := Char.ofNat (gpt2Codepoint byte)

/-- The character of a byte has its code point. -/
lemma toNat_gpt2Character (byte : UInt8) : (gpt2Character byte).toNat = gpt2Codepoint byte := by
  have all : ∀ point < 512, (Char.ofNat point).toNat = point := by decide +kernel
  exact all _ (gpt2Codepoint_lt byte)

/-- The encoded byte is the bytes of its character. -/
lemma encodedByte_eq (byte : UInt8) :
    encodedByte byte = String.utf8EncodeChar (gpt2Character byte) := by
  have all : ∀ point < 512, (if point < 0x80 then [UInt8.ofNat point]
      else [UInt8.ofNat (0xc0 ||| point >>> 6), UInt8.ofNat (0x80 ||| (point &&& 63))]) =
        String.utf8EncodeChar (Char.ofNat point) := by decide +kernel
  exact all _ (gpt2Codepoint_lt byte)

/-- The encoding of a text is UTF-8. -/
lemma fromUTF8?_encoded (text : List UInt8) :
    String.fromUTF8? ⟨(text.flatMap encodedByte).toArray⟩ =
      some (String.ofList (text.map gpt2Character)) := by
  have bytes : text.flatMap encodedByte =
      (text.map gpt2Character).flatMap String.utf8EncodeChar := by
    rw [List.flatMap_map]
    exact List.flatMap_congr fun byte _ => encodedByte_eq byte
  have valid : (⟨(text.flatMap encodedByte).toArray⟩ : ByteArray) =
      (text.map gpt2Character).utf8Encode := by
    apply ByteArray.ext
    rw [bytes, List.utf8Encode, List.data_toByteArray]
  rw [valid, String.fromUTF8?, dif_pos ByteArray.isValidUTF8_utf8Encode]
  rfl

end Codepoints

/-- What is known of a model's tokens: those of single bytes have their encoding as text, a merge
result has the two texts of the pair, both are ordinary and short; the user-defined tokens have
their literal text. -/
structure Decodable (m : ModelView) (index : MergeIndex) : Prop where
  byteToken : ∀ byte, m.tokenBytes (index.byteToken byte).toNat = .ok (encodedByte byte) ∧
    m.tokenType (index.byteToken byte).toNat = .ok 1
  merge : ∀ {left right result rank}, index.lookup left right = some (result, rank) →
    ∃ l r, m.tokenBytes left.toNat = .ok l ∧ m.tokenBytes right.toNat = .ok r ∧
      m.tokenBytes result.toNat = .ok (l ++ r) ∧ m.tokenType result.toNat = .ok 1
  short : ∀ {left right result rank}, index.lookup left right = some (result, rank) →
    ∀ text : List UInt8, m.tokenBytes result.toNat = .ok (text.flatMap encodedByte) →
      text.length ≤ maxPieceBytes
  call : m.tokenBytes 151657 = .ok toolCall ∧ m.tokenType 151657 = .ok 4
  close : m.tokenBytes 151658 = .ok toolEnd ∧ m.tokenType 151658 = .ok 4

/-- An ordinary token that has the encoding of the bytes as its text. -/
structure Stands (m : ModelView) (token : UInt32) (text : List UInt8) : Prop where
  bytes : m.tokenBytes token.toNat = .ok (text.flatMap encodedByte)
  ordinary : m.tokenType token.toNat = .ok 1
  short : text.length ≤ maxPieceBytes

/-- A token that is decoded to the bytes, into every buffer that holds a piece. -/
def Decodes (m : ModelView) (token : UInt32) (text : List UInt8) : Prop :=
  ∀ output, maxPieceBytes ≤ output.length →
    decodePiece m token output = .ok (⟨.text, text.length⟩, copyFromSlice output 0 text)

section Decoding

/-- Behind a success the second part runs. -/
lemma bind_of_ok {ε α β : Type} {c : Except ε α} {a : α} (h : c = .ok a)
    (f : α → Except ε β) : (c >>= f) = f a := by
  rw [h]
  rfl

variable {m : ModelView} {index : MergeIndex} {token : UInt32} {text : List UInt8}

/-- A token with a type is in the vocabulary. -/
lemma lt_of_tokenType {tokenType : UInt8} (h : m.tokenType token.toNat = .ok tokenType) :
    token.toNat < vocabCount := by
  by_contra large
  rw [ModelView.tokenType, if_pos (Nat.not_lt.mp large)] at h
  cases h

/-- A text token decodes to what is staged for it. -/
lemma decodes_of_staged {tokenType : UInt8} (h : m.tokenType token.toNat = .ok tokenType)
    (kind : pieceKind token tokenType = .ok .text)
    (staged : stagePiece m token tokenType = .ok text) (short : text.length ≤ maxPieceBytes) :
    Decodes m token text := by
  intro output room
  rw [decodePiece, if_neg (Nat.not_le.mpr (lt_of_tokenType h)), bind_of_ok h,
    bind_of_ok kind, if_pos rfl, bind_of_ok staged]
  exact if_neg (by omega)

/-- The characters of a text are decoded to its bytes. -/
lemma foldlM_decodeCharacter (staged : List UInt8)
    (room : staged.length + text.length ≤ maxPieceBytes) :
    (text.map gpt2Character).foldlM (decodeCharacter token) staged = .ok (staged ++ text) := by
  induction text generalizing staged with
  | nil =>
    rw [List.append_nil]
    rfl
  | cons byte text ih =>
    rw [List.length_cons] at room
    have turn : decodeCharacter token staged (gpt2Character byte) = .ok (staged ++ [byte]) := by
      rw [decodeCharacter, toNat_gpt2Character, codepointByte_gpt2Codepoint]
      exact if_neg (by omega)
    rw [List.map_cons, List.foldlM_cons, turn]
    change (text.map gpt2Character).foldlM (decodeCharacter token) (staged ++ [byte]) = _
    rw [ih (staged ++ [byte]) (by rw [List.length_append, List.length_singleton]; omega),
      List.append_assoc, List.singleton_append]

/-- An ordinary token that stands for a text is decoded to it. -/
lemma Stands.decodes (h : Stands m token text) : Decodes m token text := by
  refine decodes_of_staged h.ordinary rfl ?_ h.short
  rw [stagePiece, bind_of_ok h.bytes, if_neg (by decide), fromUTF8?_encoded]
  dsimp only
  rw [String.toList_ofList, foldlM_decodeCharacter [] (by simpa using h.short), List.nil_append]

/-- A user-defined token is decoded to its own bytes. -/
lemma decodes_userDefined (bytes : m.tokenBytes token.toNat = .ok text)
    (userDefined : m.tokenType token.toNat = .ok 4) (short : text.length ≤ maxPieceBytes) :
    Decodes m token text := by
  refine decodes_of_staged userDefined rfl ?_ short
  rw [stagePiece, bind_of_ok bytes, if_pos rfl, if_neg (Nat.not_lt.mpr short)]

namespace Decodable
open MergeIndex

/-- A merge joins what the pair stands for. -/
lemma stands_merge (model : Decodable m index) {left right result rank : UInt32}
    (rule : index.lookup left right = some (result, rank)) {x y : List UInt8}
    (hx : Stands m left x) (hy : Stands m right y) : Stands m result (x ++ y) := by
  obtain ⟨l, r, left_bytes, right_bytes, result_bytes, ordinary⟩ := model.merge rule
  have left_eq : l = x.flatMap encodedByte := Except.ok.inj (left_bytes.symm.trans hx.bytes)
  have right_eq : r = y.flatMap encodedByte := Except.ok.inj (right_bytes.symm.trans hy.bytes)
  rw [left_eq, right_eq, ← List.flatMap_append] at result_bytes
  exact ⟨result_bytes, ordinary, model.short rule _ result_bytes⟩

/-- Merging keeps the text that the tokens of a segment make. -/
lemma spells_mergeLoop (model : Decodable m index) (scratch : Nat → UInt8) (count : Nat)
    (h : Spells (Stands m) (words scratch currentSegment count) text) :
    Spells (Stands m) (words (index.mergeLoop scratch count).1 currentSegment
      (index.mergeLoop scratch count).2) text := by
  induction scratch, count using mergeLoop.induct index with
  | case1 scratch count done =>
    rw [mergeLoop_done done]
    exact h
  | case2 scratch count more ih =>
    have position : (index.bestPair scratch count).position + 1 < count :=
      bestPair_position_lt (two_le_of_bestPair more)
    rw [mergeLoop_more more]
    apply ih
    rw [words_mergeBest position]
    refine h.mergeAt (MergeMap.pairAt_words.mpr ⟨by omega, rfl, rfl⟩) ?_
    exact fun x y => model.stands_merge (lookup_bestPair more)

/-- The tokens of a fragment make the fragment. -/
lemma spells_encode (model : Decodable m index) (text : List UInt8) :
    Spells (Stands m) (index.encode text) text := by
  rw [encode]
  refine model.spells_mergeLoop _ _ ?_
  rw [words_loadSegment]
  induction text with
  | nil => exact .nil
  | cons byte text ih =>
    obtain ⟨bytes, ordinary⟩ := model.byteToken byte
    have head : Stands m (index.byteToken byte) [byte] :=
      ⟨by rw [bytes, List.flatMap_singleton], ordinary, Nat.le_of_ble_eq_true rfl⟩
    exact .cons head ih

/-- The tokens of fragments spell them. -/
lemma spells_fragments (model : Decodable m index) (fragments : List (List UInt8)) :
    Spells (Decodes m) ((fragments.map Piece.fragment).flatMap (Piece.tokens index))
      fragments.flatten := by
  induction fragments with
  | nil => exact .nil
  | cons fragment fragments ih =>
    rw [List.map_cons, List.flatMap_cons, List.flatten_cons]
    exact ((model.spells_encode fragment).mono fun _ _ => Stands.decodes).append ih

end Decodable

/-- The user-defined token that was found is the one whose text stands there. -/
lemma Decodable.decodes_found (model : Decodable m index) (text : List UInt8)
    (special : (nextUserDefined text).token ≠ 0) :
    Decodes m (nextUserDefined text).token
      ((text.drop (nextUserDefined text).position).take (nextUserDefined text).length) := by
  induction text with
  | nil => exact absurd rfl special
  | cons byte text ih =>
    rw [nextUserDefined] at special ⊢
    by_cases call : toolCall.isPrefixOf (byte :: text)
    · rw [if_pos call]
      dsimp only
      rw [List.drop_zero, ← List.prefix_iff_eq_take.mp (List.isPrefixOf_iff_prefix.mp call)]
      exact decodes_userDefined model.call.1 model.call.2 (by decide)
    rw [if_neg call] at special ⊢
    by_cases close : toolEnd.isPrefixOf (byte :: text)
    · rw [if_pos close]
      dsimp only
      rw [List.drop_zero, ← List.prefix_iff_eq_take.mp (List.isPrefixOf_iff_prefix.mp close)]
      exact decodes_userDefined model.close.1 model.close.2 (by decide)
    rw [if_neg close] at special ⊢
    exact ih special

/-- The tokens of a text are decoded to it. -/
lemma Decodable.spells_textTokens (model : Decodable m index) (text : List UInt8) :
    Spells (Decodes m) (textTokens index text) text := by
  induction h : text.length using Nat.strong_induction_on generalizing text with
  | _ left ih =>
  have bounds := (nextUserDefined_bounds text)
  have found := model.decodes_found text
  rw [textTokens, pieces]
  generalize nextUserDefined text = next at *
  have before := model.spells_fragments (Regex.scan qwen2 (text.take next.position))
  rw [flatten_scan_qwen2] at before
  rw [List.flatMap_append]
  by_cases special : next.token ≠ 0
  · obtain ⟨positive, inside⟩ := bounds.2 special
    have rest := ih _ (by rw [List.length_drop]; omega)
      (text.drop (next.position + next.length)) rfl
    rw [dif_pos special, List.flatMap_cons]
    have whole := before.append (.cons (found special) rest)
    rwa [← List.drop_drop, List.take_append_drop, List.take_append_drop, List.drop_drop] at whole
  · rw [dif_neg special, List.flatMap_nil, List.append_nil]
    have last := bounds.1 (not_ne_iff.mp special)
    rwa [last, List.take_length] at before ⊢

/-- The bytes that a call leaves in the output. -/
def decodedBytes (m : ModelView) (output : List UInt8) (token : UInt32) :
    Except ModelError (List UInt8) := do
  let (usage, output) ← decodePiece m token output
  .ok (output.take usage.bytes)

/-- Tokens that spell a text are decoded to it. -/
lemma mapM_decodedBytes {tokens : List UInt32} {output : List UInt8}
    (room : maxPieceBytes ≤ output.length) (h : Spells (Decodes m) tokens text) :
    ∃ decoded, tokens.mapM (decodedBytes m output) = .ok decoded ∧ decoded.flatten = text := by
  induction h with
  | nil => exact ⟨[], rfl, rfl⟩
  | @cons token bytes tokens text head _ ih =>
    obtain ⟨decoded, run, flat⟩ := ih
    have first : decodedBytes m output token = .ok bytes := by
      rw [decodedBytes, head output room]
      change Except.ok ((copyFromSlice output 0 bytes).take bytes.length) = _
      rw [copyFromSlice, List.take_zero, List.nil_append, List.take_left]
    refine ⟨bytes :: decoded, ?_, by rw [List.flatten_cons, flat]⟩
    rw [List.mapM_cons, first, run]
    rfl

end Decoding

/-- Decoding the user's segment of a prompt token by token gives the user's text. -/
theorem decode_undoes_tokenization (m : ModelView) (index : MergeIndex)
    (model : Decodable m index) (user output : List UInt8)
    (room : maxPieceBytes ≤ output.length) :
    (∃ decoded, (textTokens index user).mapM (decodedBytes m output) = .ok decoded ∧
        decoded.flatten = user) ∧
      ∀ b usage b', index.renderAndTokenize user b = (.ok usage, b') →
        b'.tokens.take usage.tokenCount =
          index.tokensBefore ++ textTokens index user ++ index.tokensAfter :=
  ⟨mapM_decodedBytes room (model.spells_textTokens user),
    fun _ _ _ => MergeIndex.renderAndTokenize_tokens⟩

section SmallModel

/-- Where the texts of a small model start: two tokens a byte, the second of them empty for the one
byte encodings, then a merge result and the user-defined tokens. -/
def smallOffset (id : Nat) : Nat :=
  if id < 512 then
    id / 2 * 4 + if id % 2 = 0 then 0 else (encodedByte (UInt8.ofNat (id / 2))).length
  else if id = 512 then 1024
  else if id = 513 then 1026
  else if id = 151657 then 2000
  else if id = 151658 then 2000 + toolCall.length
  else if id = 151659 then 2000 + toolCall.length + toolEnd.length
  else 0

def smallText (position : Nat) : UInt8 :=
  if position < 1024 then (encodedByte (UInt8.ofNat (position / 4))).getD (position % 4) 0
  else if position < 2000 then [97, 98].getD (position - 1024) 0
  else (toolCall ++ toolEnd).getD (position - 2000) 0

def smallModel : ModelView where
  bytes a :=
    if a < 1000000 then UInt8.ofNat (smallOffset (a / 4) / 2 ^ (8 * (a % 4)))
    else if a < 2000000 then smallText (a - 1000000)
    else if a = 2151657 ∨ a = 2151658 then 4
    else 1
  sections := #v[⟨0, 0⟩, ⟨1000000, 0⟩, ⟨2000000, 0⟩, ⟨0, 0⟩, ⟨0, 0⟩, ⟨0, 0⟩, ⟨0, 0⟩]
  config := .frozen

def smallIndex : MergeIndex where
  byteToken byte := UInt32.ofNat (2 * byte.toNat)
  lookup left right := if left = 194 ∧ right = 196 then some (512, 0) else none

/-- An encoded byte is one byte or two. -/
lemma length_encodedByte (byte : UInt8) :
    1 ≤ (encodedByte byte).length ∧ (encodedByte byte).length ≤ 2 := by
  rw [encodedByte]
  split_ifs
  · exact ⟨Nat.le_refl 1, Nat.le_succ 1⟩
  · exact ⟨Nat.le_succ 1, Nat.le_refl 2⟩

/-- An offset of the example is a word. -/
lemma smallOffset_lt (id : Nat) : smallOffset id < 2 ^ 32 := by
  have bound := (length_encodedByte (UInt8.ofNat (id / 2))).2
  have call : toolCall.length = 11 := by decide
  have close : toolEnd.length = 12 := by decide
  rw [smallOffset]
  split_ifs <;> omega

/-- A word of the example's table is its offset. -/
lemma u32At_smallModel {id : Nat} (small : id ≤ vocabCount) :
    (u32At smallModel.bytes (0 + id * 4)).toNat = smallOffset id := by
  have bound := smallOffset_lt id
  have cell (i : Nat) (inside : i < 4) :
      smallModel.bytes (id * 4 + i) = UInt8.ofNat (smallOffset id / 2 ^ (8 * i)) := by
    have count : vocabCount = 151936 := rfl
    rw [smallModel]
    dsimp only
    rw [if_pos (by omega), show (id * 4 + i) / 4 = id by omega, show (id * 4 + i) % 4 = i by omega]
  have first := cell 0 (by decide)
  rw [Nat.add_zero] at first
  rw [Nat.zero_add, u32At, first, cell 1 (by decide), cell 2 (by decide), cell 3 (by decide)]
  simp only [UInt8.toNat_ofNat', UInt32.toNat_ofNat']
  omega

/-- The text of a token of the example. -/
lemma tokenBytes_smallModel {id : Nat} {text : List UInt8} (small : id < vocabCount)
    (stop : smallOffset (id + 1) = smallOffset id + text.length)
    (inside : smallOffset id + text.length ≤ 1000000)
    (spelled : ∀ i, (h : i < text.length) → smallText (smallOffset id + i) = text[i]) :
    smallModel.tokenBytes id = .ok text := by
  have offsets : smallModel.sections[0].offset = 0 := rfl
  have base : smallModel.sections[1].offset = 1000000 := rfl
  rw [ModelView.tokenBytes, if_neg (Nat.not_le.mpr small)]
  dsimp only
  rw [offsets, base, u32At_smallModel (Nat.le_of_lt small), u32At_smallModel small, stop, slice]
  congr 1
  refine List.ext_getElem (by simp; omega) fun i _ h => ?_
  rw [List.getElem_map, List.getElem_range, smallModel]
  dsimp only
  rw [if_neg (by omega), if_pos (by omega), ← spelled i h, Nat.add_assoc,
    Nat.add_sub_cancel_left]

/-- The example has one merge. -/
lemma smallIndex_rule {left right result rank : UInt32}
    (rule : smallIndex.lookup left right = some (result, rank)) :
    left = 194 ∧ right = 196 ∧ result = 512 := by
  change (if left = 194 ∧ right = 196 then some ((512 : UInt32), (0 : UInt32)) else none) =
    some (result, rank) at rule
  split_ifs at rule with pair
  cases rule
  exact ⟨pair.1, pair.2, rfl⟩

/-- The merged token of the example stands for two letters. -/
lemma smallModel_ab : smallModel.tokenBytes (512 : UInt32).toNat = .ok [97, 98] :=
  tokenBytes_smallModel (by decide) (by decide) (by decide) (by decide)

/-- A text is not shortened by the encoding. -/
lemma length_le_encoded (text : List UInt8) : text.length ≤ (text.flatMap encodedByte).length := by
  induction text with
  | nil => exact Nat.le_refl 0
  | cons byte text ih =>
    have one := (length_encodedByte byte).1
    rw [List.flatMap_cons, List.length_append, List.length_cons]
    omega

/-- The example's model decodes what its merges encode. -/
lemma smallModel_decodable : Decodable smallModel smallIndex where
  byteToken byte := by
    have bound := byte.toNat_lt
    have id : (smallIndex.byteToken byte).toNat = 2 * byte.toNat := by
      show (UInt32.ofNat (2 * byte.toNat)).toNat = _
      rw [UInt32.toNat_ofNat']
      omega
    have short := (length_encodedByte byte).2
    have start : smallOffset (2 * byte.toNat) = byte.toNat * 4 := by
      rw [smallOffset, if_pos (by omega), if_pos (by omega)]
      omega
    have half : (2 * byte.toNat + 1) / 2 = byte.toNat := by omega
    have stop : smallOffset (2 * byte.toNat + 1) = byte.toNat * 4 + (encodedByte byte).length := by
      rw [smallOffset, if_pos (by omega), if_neg (by omega), half, UInt8.ofNat_toNat]
    have count : vocabCount = 151936 := rfl
    rw [id]
    refine ⟨tokenBytes_smallModel (by omega) (by rw [stop, start]) (by omega) fun i h => ?_, ?_⟩
    · rw [start, smallText, if_pos (by omega), show (byte.toNat * 4 + i) / 4 = byte.toNat by omega,
        show (byte.toNat * 4 + i) % 4 = i by omega, UInt8.ofNat_toNat,
        List.getD_eq_getElem?_getD, List.getElem?_eq_getElem h, Option.getD_some]
    · rw [ModelView.tokenType, if_neg (by omega)]
      rw [show smallModel.sections[2].offset = 2000000 from rfl, smallModel]
      dsimp only
      rw [if_neg (by omega), if_neg (by omega), if_neg (by omega)]
  merge rule := by
    obtain ⟨rfl, rfl, rfl⟩ := smallIndex_rule rule
    exact ⟨[97], [98], tokenBytes_smallModel (by decide) (by decide) (by decide) (by decide),
      tokenBytes_smallModel (by decide) (by decide) (by decide) (by decide), smallModel_ab, by decide⟩
  short rule text h := by
    obtain ⟨-, -, rfl⟩ := smallIndex_rule rule
    have same : [97, 98] = text.flatMap encodedByte := Except.ok.inj (smallModel_ab.symm.trans h)
    have le := length_le_encoded text
    rw [← same] at le
    exact le.trans (by decide)
  call := ⟨tokenBytes_smallModel (by decide) (by decide +kernel) (by decide +kernel)
    (by decide +kernel), by decide +kernel⟩
  close := ⟨tokenBytes_smallModel (by decide) (by decide +kernel) (by decide +kernel)
    (by decide +kernel), by decide +kernel⟩

/-- A merge, a tool-call marker and a letter. -/
theorem decode_undoes_tokenization_smallModel :
    ∃ decoded, (textTokens smallIndex (byteString "ab<tool_call>c")).mapM
        (decodedBytes smallModel (List.replicate 128 0)) = .ok decoded ∧
      decoded.flatten = byteString "ab<tool_call>c" :=
  (decode_undoes_tokenization smallModel smallIndex smallModel_decodable _ _
    (by rw [List.length_replicate, maxPieceBytes])).1

end SmallModel

end Promptboot
