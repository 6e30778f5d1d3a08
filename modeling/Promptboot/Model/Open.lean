import Mathlib.Algebra.GroupWithZero.Nat
import Promptboot.Model.View
import Promptboot.Lib.Buffer

/-!
# Opening a container

`ModelView::open_authenticated` (`model.rs`) with everything it calls, and the accessors of the
view it returns. The bytes are a buffer with its length. A step that would panic (an index or a
slice out of range, an unchecked difference or sum out of range) stops with `fault`; an address is
a number without a bound, so an address sum that would overflow is past the end and faults too.
SHA-256 is a parameter.
-/

namespace Promptboot

inductive OpenStop where
  | error (error : ModelError)
  | fault

abbrev Opening := Except OpenStop

end Promptboot

namespace Promptboot.Opening
open Buffer

def fault {α : Type} : Opening α := .error .fault

def reject {α : Type} (error : ModelError) : Opening α := .error (.error error)

/-- Stops with an error unless `holds`. -/
def check (holds : Bool) (error : ModelError) : Opening Unit :=
  if holds then pure () else reject error

/-- `bytes[offset]` -/
def byteIn (bytes : Buffer) (offset : Nat) : Opening UInt8 :=
  if offset < bytes.length then pure (bytes.byte offset) else fault

/-- `&bytes[start..stop]` -/
def sliceIn (bytes : Buffer) (start stop : Nat) : Opening (List UInt8) :=
  if start ≤ stop ∧ stop ≤ bytes.length then pure (bytes.slice start (stop - start)) else fault

/-- `u16_at` -/
def u16In (bytes : Buffer) (offset : Nat) : Opening Nat :=
  if offset + 2 ≤ bytes.length then pure (u16At bytes.byte offset) else fault

/-- `u32_at` -/
def u32In (bytes : Buffer) (offset : Nat) : Opening UInt32 :=
  if offset + 4 ≤ bytes.length then pure (Memory.u32At bytes.byte offset) else fault

/-- `u64_at` -/
def u64In (bytes : Buffer) (offset : Nat) : Opening Nat :=
  if offset + 8 ≤ bytes.length then pure (u64At bytes.byte offset) else fault

/-- `a - b`, unchecked. -/
def minus (a b : Nat) : Opening Nat := if b ≤ a then pure (a - b) else fault

/-- `a + b` in 64 bits, unchecked. -/
def plus (a b : Nat) : Opening Nat := if a + b < 2 ^ 64 then pure (a + b) else fault

/-- `a * b` in 64 bits, unchecked. -/
def times (a b : Nat) : Opening Nat := if a * b < 2 ^ 64 then pure (a * b) else fault

/-- A loop that compares bytes with what they have to be; `error` is for the first that differs. -/
def compareFrom (bytes : Buffer) (error : Nat → UInt8 → UInt8 → ModelError) :
    Nat → List UInt8 → Opening Unit
  | _, [] => pure ()
  | offset, expected :: rest => do
    let actual ← byteIn bytes offset
    check (actual = expected) (error offset expected actual)
    compareFrom bytes error (offset + 1) rest

section Header

/-- `b"PBTQW25\0"` -/
def magic : List UInt8 := [0x50, 0x42, 0x54, 0x51, 0x57, 0x32, 0x35, 0]

/-- `SOURCE_HASH` -/
def sourceHash : List UInt8 :=
  [0x76, 0x71, 0xc0, 0xc3, 0x04, 0xe6, 0xce, 0x5a, 0x7f, 0xc5, 0x77, 0xbc, 0xb1, 0x2a, 0xba, 0x01,
    0xe2, 0xc1, 0x55, 0xcc, 0x2e, 0xfd, 0x29, 0xb2, 0x21, 0x3c, 0x95, 0xb1, 0x8e, 0xda, 0xf6, 0xed]

/-- `TOKEN_DIGEST` -/
def tokenDigest : List UInt8 :=
  [0x86, 0x56, 0xe0, 0x79, 0x47, 0x3b, 0x85, 0x77, 0x29, 0xcf, 0x44, 0x4f, 0x77, 0x23, 0x68, 0xcd,
    0x64, 0x28, 0xdc, 0xd6, 0x45, 0x13, 0xd4, 0x6a, 0xac, 0x3f, 0x69, 0x4b, 0x2f, 0x69, 0x52, 0x82]

/-- `TYPE_DIGEST` -/
def typeDigest : List UInt8 :=
  [0xf3, 0x76, 0x0e, 0x7f, 0xbf, 0xc9, 0x6d, 0x38, 0x8f, 0x5b, 0x8d, 0x7c, 0xd6, 0x7c, 0x5c, 0xd4,
    0x65, 0x35, 0xc8, 0x68, 0x2f, 0xf8, 0x4e, 0xbc, 0x98, 0x17, 0xcd, 0xa6, 0x1b, 0xc9, 0x8f, 0x4d]

/-- `MERGE_DIGEST` -/
def mergeDigest : List UInt8 :=
  [0x90, 0x79, 0x81, 0xa3, 0x13, 0xa6, 0xe7, 0x8e, 0xf2, 0x22, 0x32, 0x29, 0x04, 0x26, 0x74, 0xa3,
    0x9c, 0xd4, 0x99, 0x5e, 0xe4, 0xc4, 0xed, 0x40, 0xa3, 0x1b, 0x58, 0x75, 0x4e, 0x82, 0xc2, 0x6c]

/-- `digest_mismatch` -/
def digestMismatch (status : ModelStatus) (domain : ErrorDomain) (index offset : Nat)
    (expected : List UInt8) (actual : Vector UInt8 32) (kind : FieldKind) : Option ModelError :=
  (List.finRange 32).findSome? fun (i : Fin 32) =>
    if expected.getD i 0 ≠ actual[i] then
      some ⟨status, domain, index, offset, (expected.getD i 0).toNat, actual[i].toNat, kind, i⟩
    else none

/-- `scalar_error` -/
def scalarError (status : ModelStatus) (offset expected actual : Nat) (kind : FieldKind) :
    ModelError :=
  ⟨status, .header, offset, offset, expected, actual, kind, 0⟩

/-- `expected32` -/
def expected32 : List (Nat × Nat × FieldKind × ModelStatus) :=
  [(8, 1, .version, .version), (12, 256, .headerField, .identity),
    (16, 0x01020304, .endian, .endian), (20, 7, .headerField, .identity),
    (24, 291, .headerField, .identity), (28, 151936, .headerField, .identity),
    (32, 151387, .headerField, .identity), (36, 32768, .headerField, .identity),
    (40, 24, .headerField, .identity), (44, 896, .headerField, .identity),
    (48, 4864, .headerField, .identity), (52, 14, .headerField, .identity),
    (56, 2, .headerField, .identity), (60, 64, .headerField, .identity),
    (64, 151645, .headerField, .identity), (68, 151643, .headerField, .identity),
    (72, 151643, .headerField, .identity), (76, 0, .headerField, .identity)]

/-- `expected64` -/
def expected64 : List (Nat × Nat) :=
  [(80, 428730208), (88, modelBytes), (96, 256), (104, 448), (112, 5947744), (120, 422782464)]

def checkField32 (bytes : Buffer) (field : Nat × Nat × FieldKind × ModelStatus) : Opening Unit := do
  let (offset, expected, kind, status) := field
  let actual ← u32In bytes offset
  check (actual.toNat = expected) (scalarError status offset expected actual.toNat kind)

def checkField64 (bytes : Buffer) (field : Nat × Nat) : Opening Unit := do
  let (offset, expected) := field
  let actual ← u64In bytes offset
  check (actual = expected) (scalarError .identity offset expected actual .headerField)

/-- Everything before the section directory; `address` is where the bytes are. -/
def checkHeader (address : Nat) (bytes : Buffer) : Opening Unit := do
  check (bytes.length = modelBytes)
    ⟨.length, .header, 0, 0, modelBytes, bytes.length, .fileBytes, 0⟩
  check (address % 64 = 0) ⟨.alignment, .header, 0, 0, 64, address % 64, .baseAlignment, 0⟩
  compareFrom bytes (fun offset expected actual =>
    ⟨.magic, .header, offset, offset, expected.toNat, actual.toNat, .magicByte, offset⟩) 0 magic
  expected32.forM (checkField32 bytes)
  expected64.forM (checkField64 bytes)
  compareFrom bytes (fun offset expected actual =>
    ⟨.identity, .header, offset, offset, expected.toNat, actual.toNat, .digestByte, offset - 128⟩)
    128 sourceHash
  compareFrom bytes (fun offset _ actual =>
    ⟨.reserved, .header, offset, offset, 0, actual.toNat, .reservedByte, offset - 192⟩)
    192 (List.replicate 64 0)

/-- `SECTION_COUNTS` -/
def sectionCounts : Vector Nat 7 :=
  #v[151937, 1372758, 151936, 151387, 2509, 291, 422782464]

/-- `SECTION_TYPES` -/
def sectionTypes : Vector Nat 7 := #v[1, 2, 2, 3, 2, 4, 2]

/-- The entry of a section in a table of the seven. -/
abbrev ofSection {α : Type} (table : Vector α 7) (ordinal : Fin 7) : α := table[ordinal]

/-- Every frozen section ends within the model. -/
lemma section_stop (ordinal : Fin 7) :
    (ofSection frozenSections ordinal).offset + (ofSection frozenSections ordinal).length ≤
      modelBytes := by
  revert ordinal
  decide

/-- Every frozen section is aligned to 64 bytes. -/
lemma section_aligned : ∀ ordinal : Fin 7, (ofSection frozenSections ordinal).offset % 64 = 0 := by
  decide

/-- A field of a section's entry. -/
def checkSectionField (ordinal base offset actual expected : Nat) (kind : FieldKind) :
    Opening Unit :=
  check (actual = expected)
    ⟨.sectionSchema, .section, ordinal, base + offset, expected, actual, kind, offset⟩

/-- A turn of the loop over the section directory; the section is the result. -/
def checkSection (bytes : Buffer) (ordinal : Fin 7) (previousEnd : Nat) : Opening Section := do
  let base : Nat := 256 + ordinal * 64
  let id ← u32In bytes base
  let element ← u32In bytes (base + 4)
  let count ← u64In bytes (base + 8)
  let offset ← u64In bytes (base + 16)
  let length ← u64In bytes (base + 24)
  checkSectionField ordinal base 0 id.toNat (ordinal + 1) .sectionId
  checkSectionField ordinal base 4 element.toNat sectionTypes[ordinal] .elementType
  checkSectionField ordinal base 8 count sectionCounts[ordinal] .rangeLength
  checkSectionField ordinal base 24 length frozenSections[ordinal].length .rangeLength
  check (offset % 64 = 0)
    ⟨.alignment, .section, ordinal, base + 16, 64, offset % 64, .rangeStart, 16⟩
  check (previousEnd ≤ offset)
    ⟨.overlap, .section, ordinal, base + 16, previousEnd, offset, .rangeStart, 16⟩
  checkSectionField ordinal base 16 offset frozenSections[ordinal].offset .rangeStart
  compareFrom bytes (fun gap _ actual =>
    ⟨.padding, .section, ordinal, gap, 0, actual.toNat, .gapByte, gap - previousEnd⟩)
    previousEnd (List.replicate (offset - previousEnd) 0)
  check (offset + length < 2 ^ 64)
    ⟨.arithmeticOverflow, .section, ordinal, base + 24, 2 ^ 64 - 1 - offset, length, .opAdd, 0⟩
  pure ⟨offset, length⟩

/-- The loop over the section directory, with the sections so far and the end of the last. -/
def checkSections (bytes : Buffer) : List (Fin 7) → Vector Section 7 → Nat →
    Opening (Vector Section 7 × Nat)
  | [], sections, previousEnd => pure (sections, previousEnd)
  | ordinal :: rest, sections, previousEnd => do
    let found ← checkSection bytes ordinal previousEnd
    checkSections bytes rest (sections.set ordinal found) (found.offset + found.length)

end Header

section Tensors

/-- What the directory entry of a tensor has to be. -/
structure TensorSchema where
  layer : Nat
  role : Nat
  dtype : Nat
  rank : Nat
  dims : Vector Nat 4

/-- `expected_tensor` -/
def expectedTensor (id : Nat) : TensorSchema :=
  if id = 0 then ⟨0xffff, 1, 2, 2, #v[896, 151936, 1, 1]⟩
  else if id = 289 then ⟨0xffff, 2, 1, 1, #v[896, 1, 1, 1]⟩
  else if id = 290 then ⟨0xffff, 3, 3, 2, #v[896, 151936, 1, 1]⟩
  else
    let layer := (id - 1) / 12
    let role := 10 + (id - 1) % 12
    match (id - 1) % 12 with
    | 0 | 4 => ⟨layer, role, 1, 1, #v[896, 1, 1, 1]⟩
    | 1 => ⟨layer, role, 2, 2, #v[4864, 896, 1, 1]⟩
    | 2 | 3 => ⟨layer, role, 2, 2, #v[896, 4864, 1, 1]⟩
    | 5 | 10 => ⟨layer, role, 1, 1, #v[128, 1, 1, 1]⟩
    | 6 | 11 => ⟨layer, role, 2, 2, #v[896, 128, 1, 1]⟩
    | 7 | 9 => ⟨layer, role, 2, 2, #v[896, 896, 1, 1]⟩
    | 8 => ⟨layer, role, 1, 1, #v[896, 1, 1, 1]⟩
    | _ => ⟨0, 0, 0, 0, #v[0, 0, 0, 0]⟩

/-- The dimensions of the frozen tensors are small. -/
lemma expectedTensor_small (id : Nat) :
    (expectedTensor id).dims[0] ≤ 4864 ∧ (expectedTensor id).dims[1] ≤ 151936 ∧
      (expectedTensor id).dims[2] ≤ 1 ∧ (expectedTensor id).dims[3] ≤ 1 := by
  unfold expectedTensor
  split_ifs
  case neg => split <;> exact ⟨by simp, by simp, by simp, by simp⟩
  all_goals exact ⟨by simp, by simp, by simp, by simp⟩

/-- The place of a tensor's directory entry. -/
def tensorBase (id : Nat) : Nat := 3952512 + id * 96

/-- The four products in `tensor_meta_at`. -/
def elementsOfDims (dims : Vector Nat 4) : Opening Nat := do
  let two ← times dims[0] dims[1]
  let three ← times two dims[2]
  times three dims[3]

/-- The product itself. -/
def TensorSchema.elements (schema : TensorSchema) : Nat :=
  schema.dims[0] * schema.dims[1] * schema.dims[2] * schema.dims[3]

/-- `tensor_meta_at`, with the elements of the tensor. -/
def tensorMetaIn (bytes : Buffer) (id : Nat) : Opening (TensorMeta × Nat) := do
  let base := tensorBase id
  let dim0 ← u32In bytes (base + 16)
  let dim1 ← u32In bytes (base + 20)
  let dim2 ← u32In bytes (base + 24)
  let dim3 ← u32In bytes (base + 28)
  let elements ← elementsOfDims (expectedTensor id).dims
  let number ← u32In bytes base
  let layer ← u16In bytes (base + 4)
  let role ← u16In bytes (base + 6)
  let dtype ← u32In bytes (base + 8)
  let rank ← u32In bytes (base + 12)
  let dataOffset ← u64In bytes (base + 32)
  let dataLength ← u64In bytes (base + 40)
  pure (⟨number, layer, role, dtype, rank, #v[dim0, dim1, dim2, dim3], dataOffset, dataLength⟩,
    elements)

/-- The bytes of a tensor by its type, or zero where they cannot be counted. -/
def blockLength (dtype elements : Nat) : Nat :=
  match dtype with
  | 1 => if elements * 4 < 2 ^ 64 then elements * 4 else 0
  | 2 => if elements % 32 = 0 ∧ elements / 32 * 18 < 2 ^ 64 then elements / 32 * 18 else 0
  | 3 => if elements % 32 = 0 ∧ elements / 32 * 34 < 2 ^ 64 then elements / 32 * 34 else 0
  | _ => 0

/-- The loop over the fields of a tensor's entry. -/
def checkTensorFields (id : Nat) (info : TensorMeta) : Opening Unit :=
  let schema := expectedTensor id
  [(0, info.id.toNat, id, FieldKind.tensorId), (4, info.layer, schema.layer, .layer),
    (6, info.role, schema.role, .role), (8, info.dtype.toNat, schema.dtype, .dtype),
    (12, info.rank.toNat, schema.rank, .rank)].forM fun (offset, actual, expected, kind) =>
      check (actual = expected)
        ⟨.tensorSchema, .tensor, id, tensorBase id + offset, expected, actual, kind, 0⟩

/-- The loop over the dimensions of a tensor. -/
def checkDims (id : Nat) (info : TensorMeta) : Opening Unit :=
  (List.finRange 4).forM fun (dim : Fin 4) =>
    check (info.dims[dim].toNat = (expectedTensor id).dims[dim])
      ⟨.tensorSchema, .tensor, id, tensorBase id + 16 + dim * 4, (expectedTensor id).dims[dim],
        info.dims[dim].toNat, .dimension, dim⟩

/-- A turn of the loop of `validate_tensors`; the end of the tensor is the result. -/
def checkTensor (bytes : Buffer) (id previousEnd : Nat) : Opening Nat := do
  let (info, elements) ← tensorMetaIn bytes id
  checkTensorFields id info
  checkDims id info
  let dtype := (expectedTensor id).dtype
  let length := blockLength dtype elements
  check (info.dataLength = length)
    ⟨.tensorSchema, .tensor, id, tensorBase id + 40, length, info.dataLength, .blockLength, dtype⟩
  check (info.dataOffset = previousEnd)
    ⟨if info.dataOffset < previousEnd then .overlap else .order, .tensor, id, tensorBase id + 32,
      previousEnd, info.dataOffset, .rangeStart, 0⟩
  check (info.dataOffset % 64 = 0)
    ⟨.alignment, .tensor, id, tensorBase id + 32, 64, info.dataOffset % 64, .rangeStart, 0⟩
  compareFrom bytes (fun offset _ actual => ⟨.reserved, .tensor, id, offset, 0, actual.toNat,
    .reservedByte, offset - (tensorBase id + 80)⟩) (tensorBase id + 80) (List.replicate 16 0)
  check (info.dataOffset + info.dataLength < 2 ^ 64)
    ⟨.arithmeticOverflow, .tensor, id, tensorBase id + 40, 2 ^ 64 - 1 - info.dataOffset,
      info.dataLength, .opAdd, 0⟩
  pure (info.dataOffset + info.dataLength)

/-- The loop of `validate_tensors`, `left` turns before its end. -/
def tensorLoop (bytes : Buffer) : Nat → Nat → Nat → Opening Nat
  | 0, _, previousEnd => pure previousEnd
  | left + 1, id, previousEnd => do
    let next ← checkTensor bytes id previousEnd
    tensorLoop bytes left (id + 1) next

/-- `validate_tensors` -/
def validateTensors (bytes : Buffer) : Opening Unit := do
  let previousEnd ← tensorLoop bytes tensorCount 0 3980480
  check (previousEnd = modelBytes)
    ⟨.tensorSchema, .tensor, 290, previousEnd, modelBytes, previousEnd, .rangeLength, 0⟩

end Tensors

section Tokenizer

/-- `core::str::from_utf8` accepts the bytes. -/
def isUtf8 (bytes : List UInt8) : Bool := (String.fromUTF8? ⟨bytes.toArray⟩).isSome

/-- `valid_up_to`: the greatest index before which the bytes are accepted. -/
def validUpTo (bytes : List UInt8) : Nat :=
  ((List.range bytes.length).filter fun n => isUtf8 (bytes.take n)).getLastD 0

/-- `to_le_bytes` of 64 bits -/
def le64 (value : Nat) : List UInt8 :=
  (List.range 8).map fun i => UInt8.ofNat (value / 2 ^ (8 * i))

/-- What the loop over the tokens carries: the end of the last token, the histogram of the types,
and what is hashed. -/
structure TokenScan where
  prior : Nat
  counts : Vector Nat 4
  tokens : List UInt8
  types : List UInt8

/-- The counts start at zero. -/
lemma counts_zero : ∀ k : Fin 4, (#v[0, 0, 0, 0] : Vector Nat 4)[k] ≤ 0 := by decide

local instance typesNeZero : NeZero 4 := ⟨by decide⟩

/-- The place of a token type in the histogram. -/
def countIndex (tokenType : UInt8) : Option (Fin 4) :=
  if tokenType = 1 then some 0
  else if tokenType = 3 then some 1
  else if tokenType = 4 then some 2
  else if tokenType = 5 then some 3
  else none

/-- The check that text is UTF-8; `error` is for the first byte that is not. -/
def checkUtf8 (text : List UInt8) (error : Nat → UInt8 → ModelError) : Opening Unit :=
  if isUtf8 text then pure ()
  else if validUpTo text < text.length then
    reject (error (validUpTo text) (text.getD (validUpTo text) 0))
  else fault

/-- A turn of the loop over the tokens. -/
def checkToken (bytes : Buffer) (sections : Vector Section 7) (id : Nat) (scan : TokenScan) :
    Opening TokenScan := do
  let offsets := sections[0].offset
  let tokenBase := sections[1].offset
  let typeBase := sections[2].offset
  let current ← u32In bytes (offsets + (id + 1) * 4)
  check (scan.prior < current.toNat) ⟨.tokenizerSchema, .token, id, offsets + (id + 1) * 4,
    scan.prior + 1, current.toNat, .tokenOffset, 1⟩
  check (current.toNat ≤ 1372758) ⟨.tokenizerSchema, .token, id, offsets + (id + 1) * 4, 1372758,
    current.toNat, .rangeLength, 0⟩
  let token ← sliceIn bytes (tokenBase + scan.prior) (tokenBase + current.toNat)
  checkUtf8 token fun at_ byte =>
    ⟨.utf8, .token, id, tokenBase + scan.prior + at_, 0, byte.toNat, .utf8Byte, at_⟩
  let tokenType ← byteIn bytes (typeBase + id)
  match countIndex tokenType with
  | none =>
    reject ⟨.tokenizerSchema, .token, id, typeBase + id, 58, tokenType.toNat, .tokenType, 0⟩
  | some index =>
    let count ← plus scan.counts[index] 1
    pure ⟨current.toNat, scan.counts.set index count, scan.tokens ++ le64 token.length ++ token,
      scan.types ++ le64 tokenType.toNat⟩

/-- The loop over the tokens, `left` turns before its end. -/
def tokenLoop (bytes : Buffer) (sections : Vector Section 7) : Nat → Nat → TokenScan →
    Opening TokenScan
  | 0, _, scan => pure scan
  | left + 1, id, scan => do
    let next ← checkToken bytes sections id scan
    tokenLoop bytes sections left (id + 1) next

/-- `expected_counts` -/
def expectedCounts : Vector Nat 4 := #v[151643, 20, 2, 271]

/-- Stops with an error that was found. -/
def rejectSome (error : Option ModelError) : Opening Unit :=
  match error with
  | some error => reject error
  | none => pure ()

/-- The tokens and their types. -/
def validateTokens (sha : List UInt8 → Vector UInt8 32) (bytes : Buffer)
    (sections : Vector Section 7) : Opening Unit := do
  let offsets := sections[0].offset
  let tokenBase := sections[1].offset
  let typeBase := sections[2].offset
  let first ← u32In bytes offsets
  check (first = 0) ⟨.tokenizerSchema, .token, 0, offsets, 0, first.toNat, .tokenOffset, 0⟩
  let scan ← tokenLoop bytes sections vocabCount 0 ⟨0, #v[0, 0, 0, 0], [], []⟩
  check (scan.prior = 1372758) ⟨.tokenizerSchema, .token, vocabCount, offsets + vocabCount * 4,
    1372758, scan.prior, .tokenOffset, 2⟩
  (List.finRange 4).forM fun (index : Fin 4) =>
    check (scan.counts[index] = expectedCounts[index]) ⟨.tokenizerSchema, .token, 0, typeBase,
      expectedCounts[index], scan.counts[index], .tokenType, index + 1⟩
  rejectSome (digestMismatch .tokenizerSchema .token 0 tokenBase tokenDigest (sha scan.tokens)
    .digestByte)
  rejectSome (digestMismatch .tokenizerSchema .token 0 typeBase typeDigest (sha scan.types)
    .digestByte)

/-- The loop of `prior_duplicate_merge`. -/
def priorDuplicateMerge (bytes : Buffer) (mergeBase : Nat) (left right : UInt32) :
    Nat → Nat → Opening (Option Nat)
  | 0, _ => pure none
  | turns + 1, firstRank => do
    let firstLeft ← u32In bytes (mergeBase + firstRank * 12)
    let firstRight ← u32In bytes (mergeBase + firstRank * 12 + 4)
    if firstLeft = left ∧ firstRight = right then pure (some firstRank)
    else priorDuplicateMerge bytes mergeBase left right turns (firstRank + 1)

/-- `duplicate_merge_error` -/
def duplicateMergeError (rank offset firstRank : Nat) : ModelError :=
  ⟨.tokenizerSchema, .merge, rank, offset, firstRank, rank, .mergeDuplicate, 0⟩

/-- A merge that does not fit is reported as a duplicate if it is one. -/
def rejectMerge {α : Type} (bytes : Buffer) (mergeBase rank : Nat) (left right : UInt32)
    (error : ModelError) : Opening α := do
  let first ← priorDuplicateMerge bytes mergeBase left right rank 0
  match first with
  | some firstRank => reject (duplicateMergeError rank (mergeBase + rank * 12) firstRank)
  | none => reject error

/-- The loop over the bytes of both halves of a merge. -/
def concatLoop (bytes : Buffer) (mergeBase rank : Nat) (left right : UInt32) (resultBase : Nat) :
    Nat → List UInt8 → Opening Unit
  | _, [] => pure ()
  | concat, byte :: rest => do
    let actual ← byteIn bytes (resultBase + concat)
    if actual ≠ byte then
      rejectMerge bytes mergeBase rank left right ⟨.tokenizerSchema, .merge, rank,
        resultBase + concat, byte.toNat, actual.toNat, .concatByte, concat⟩
    else concatLoop bytes mergeBase rank left right resultBase (concat + 1) rest

/-- The loop over the three token numbers of a merge. -/
def checkMergeIds (rank offset : Nat) (left right result : UInt32) : Opening Unit :=
  [(left, FieldKind.mergeLeft, offset), (right, .mergeRight, offset + 4),
    (result, .mergeResult, offset + 8)].forM fun (value, kind, place) =>
      check (value.toNat < vocabCount)
        ⟨.tokenizerSchema, .merge, rank, place, vocabCount, value.toNat, kind, 0⟩

/-- The places where a token's text starts and ends. -/
def tokenRange (bytes : Buffer) (offsets id : Nat) : Opening (Nat × Nat) := do
  let start ← u32In bytes (offsets + id * 4)
  let stop ← u32In bytes (offsets + (id + 1) * 4)
  pure (start.toNat, stop.toNat)

/-- The text of a merge's result is compared with the texts of its halves, whose bytes are the
result. -/
def checkMergeText (bytes : Buffer) (mergeBase tokenBase rank : Nat) (left right : UInt32)
    (leftRange rightRange resultRange : Nat × Nat) : Opening (List UInt8) := do
  let leftLength ← minus leftRange.2 leftRange.1
  let sum ← plus leftLength rightRange.2
  let expected ← minus sum rightRange.1
  let actual ← minus resultRange.2 resultRange.1
  if actual ≠ expected then
    rejectMerge bytes mergeBase rank left right ⟨.tokenizerSchema, .merge, rank,
      tokenBase + resultRange.1, expected, actual, .rangeLength, 0⟩
  else do
    let leftToken ← sliceIn bytes (tokenBase + leftRange.1) (tokenBase + leftRange.2)
    let rightToken ← sliceIn bytes (tokenBase + rightRange.1) (tokenBase + rightRange.2)
    concatLoop bytes mergeBase rank left right (tokenBase + resultRange.1) 0
      (leftToken ++ rightToken)
    pure (le64 (leftToken.length + 1 + rightToken.length) ++ leftToken ++ [0x20] ++ rightToken)

/-- A turn of the loop over the merges; what is hashed of the merge is the result. -/
def checkMerge (bytes : Buffer) (sections : Vector Section 7) (rank : Nat) :
    Opening (List UInt8) := do
  let offsets := sections[0].offset
  let tokenBase := sections[1].offset
  let mergeBase := sections[3].offset
  let base := mergeBase + rank * 12
  let left ← u32In bytes base
  let right ← u32In bytes (base + 4)
  let result ← u32In bytes (base + 8)
  checkMergeIds rank base left right result
  check (result.toNat < 151643)
    ⟨.tokenizerSchema, .merge, rank, base + 8, 151643, result.toNat, .mergeResult, 1⟩
  let leftRange ← tokenRange bytes offsets left.toNat
  let rightRange ← tokenRange bytes offsets right.toNat
  let resultRange ← tokenRange bytes offsets result.toNat
  checkMergeText bytes mergeBase tokenBase rank left right leftRange rightRange resultRange

/-- The loop over the merges, `left` turns before its end. -/
def mergeLoop (bytes : Buffer) (sections : Vector Section 7) : Nat → Nat → List UInt8 →
    Opening (List UInt8)
  | 0, _, canonical => pure canonical
  | left + 1, rank, canonical => do
    let hashed ← checkMerge bytes sections rank
    mergeLoop bytes sections left (rank + 1) (canonical ++ hashed)

/-- The scan that says whether a table with a wrong digest holds a merge twice. -/
def duplicateScan (bytes : Buffer) (mergeBase : Nat) (error : ModelError) :
    Nat → Nat → Opening Unit
  | 0, _ => reject error
  | turns + 1, rank => do
    let left ← u32In bytes (mergeBase + rank * 12)
    let right ← u32In bytes (mergeBase + rank * 12 + 4)
    let first ← priorDuplicateMerge bytes mergeBase left right rank 0
    match first with
    | some firstRank => reject (duplicateMergeError rank (mergeBase + rank * 12) firstRank)
    | none => duplicateScan bytes mergeBase error turns (rank + 1)

/-- The merges. -/
def validateMerges (sha : List UInt8 → Vector UInt8 32) (bytes : Buffer)
    (sections : Vector Section 7) : Opening Unit := do
  let mergeBase := sections[3].offset
  let canonical ← mergeLoop bytes sections mergeCount 0 []
  match digestMismatch .tokenizerSchema .merge 0 mergeBase mergeDigest (sha canonical)
    .digestByte with
  | some error => duplicateScan bytes mergeBase error (mergeCount - 1) 1
  | none => pure ()

/-- The chat template. -/
def validateTemplate (bytes : Buffer) (sections : Vector Section 7) : Opening Unit := do
  let offset := sections[4].offset
  let stop ← plus offset sections[4].length
  let template ← sliceIn bytes offset stop
  match template with
  | [] => fault
  | first :: _ =>
    check (first = 0x7b)
      ⟨.tokenizerSchema, .chat, 0, offset, 0x7b, first.toNat, .templateByte, 0⟩
    checkUtf8 template fun at_ byte => ⟨.utf8, .chat, 0, offset + at_, 0, byte.toNat, .utf8Byte, 1⟩

/-- `validate_tokenizer` -/
def validateTokenizer (sha : List UInt8 → Vector UInt8 32) (bytes : Buffer)
    (sections : Vector Section 7) : Opening Unit := do
  validateTokens sha bytes sections
  validateMerges sha bytes sections
  validateTemplate bytes sections

end Tokenizer

/-- What opening returns. -/
structure OpenedView where
  bytes : Buffer
  sections : Vector Section 7
  config : ModelConfig

/-- `open_authenticated`, without `validate_tokenizer`; the sections are the result. -/
def openDirectories (address : Nat) (bytes : Buffer) : Opening (Vector Section 7) := do
  checkHeader address bytes
  let (sections, previousEnd) ←
    checkSections bytes (List.finRange 7) (Vector.replicate 7 ⟨0, 0⟩) 704
  check (previousEnd = modelBytes)
    ⟨.sectionSchema, .section, 6, previousEnd, modelBytes, previousEnd, .rangeLength, 0⟩
  validateTensors bytes
  pure sections

/-- `open_authenticated` -/
def openAuthenticated (sha : List UInt8 → Vector UInt8 32) (address : Nat) (bytes : Buffer) :
    Opening OpenedView := do
  let sections ← openDirectories address bytes
  validateTokenizer sha bytes sections
  pure ⟨bytes, sections, .frozen⟩

namespace OpenedView

/-- The start and the length of a section of a view. -/
def extent (view : OpenedView) (k : Fin 7) : Extent :=
  (view.sections[k].offset, view.sections[k].length)

/-- `section` -/
def sectionAt (view : OpenedView) (id : Nat) : Opening (List UInt8) :=
  if bounds : 1 ≤ id ∧ id ≤ 7 then do
    let found := view.sections[id - 1]
    let stop ← plus found.offset found.length
    sliceIn view.bytes found.offset stop
  else reject ⟨.sectionSchema, .section, id, 0, 2 ^ 32 + 7, id, .sectionId, 0⟩

/-- `tensor` -/
def tensor (view : OpenedView) (id : Nat) : Opening TensorView :=
  if tensorCount ≤ id then reject ⟨.tensorSchema, .tensor, id, 0, tensorCount, id, .tensorId, 0⟩
  else do
    let (info, _) ← tensorMetaIn view.bytes id
    let stop ← plus info.dataOffset info.dataLength
    let data ← sliceIn view.bytes info.dataOffset stop
    pure ⟨info, data⟩

/-- `tensor_for` -/
def tensorFor (view : OpenedView) (layer role : Nat) : Opening TensorView :=
  let packed := layer * 2 ^ 16 + role
  if layer = 0xffff then
    match role with
    | 1 => view.tensor 0
    | 2 => view.tensor 289
    | 3 => view.tensor 290
    | _ => reject ⟨.tensorSchema, .tensor, packed, 0, 2 ^ 32 + 3, role, .role, 1⟩
  else if layer < 24 then
    if 10 ≤ role ∧ role ≤ 21 then
      view.tensor (1 + layer * 12 + (role - 10))
    else
      reject ⟨.tensorSchema, .tensor, packed, 0, 10 * 2 ^ 32 + 21, role, .role, 0⟩
  else
    reject ⟨.tensorSchema, .tensor, packed, 0, 24, layer, .layer, 0⟩

/-- `token_bytes` -/
def tokenBytes (view : OpenedView) (id : Nat) : Opening (List UInt8) :=
  if vocabCount ≤ id then reject ⟨.tokenId, .token, id, 0, vocabCount, id, .tokenIdField, 0⟩
  else do
    let range ← tokenRange view.bytes view.sections[0].offset id
    sliceIn view.bytes (view.sections[1].offset + range.1) (view.sections[1].offset + range.2)

/-- `token_type` -/
def tokenType (view : OpenedView) (id : Nat) : Opening UInt8 :=
  if vocabCount ≤ id then reject ⟨.tokenId, .token, id, 0, vocabCount, id, .tokenIdField, 0⟩
  else byteIn view.bytes (view.sections[2].offset + id)

/-- `merge` -/
def merge (view : OpenedView) (rank : Nat) : Opening Merge :=
  if mergeCount ≤ rank then
    reject ⟨.tokenizerSchema, .merge, rank, 0, mergeCount, rank, .mergeResult, 0⟩
  else do
    let base := view.sections[3].offset + rank * 12
    let left ← u32In view.bytes base
    let right ← u32In view.bytes (base + 4)
    let result ← u32In view.bytes (base + 8)
    pure ⟨left, right, result, rank⟩

end OpenedView

end Promptboot.Opening
