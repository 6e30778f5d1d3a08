import Promptboot.Lib.Memory

/-!
# The model container

The accessors of `ModelView` (`crates/promptboot-core/src/model.rs`) over the bytes of an opened
PBTQW25 container: tensors by id and by layer and role, token texts and types, and merges. A view
carries the container's bytes and its section directory. The digests and the validation that
precede a view belong to opening one; the accessors below only index.

`tensorFor_eq` says which id a layer and a role come to, and `tensor_isOk` and `tensorFor_isOk` that
the accessors answer within their counts.
-/

namespace Promptboot

/-- The status of a `ModelError`. -/
inductive ModelStatus where
  | ok | length | fullHash | magic | version | endian | identity | reserved | arithmeticOverflow
  | alignment | order | overlap | padding | sectionHash | tensorHash | contentHash
  | sectionSchema | tensorSchema | tokenizerSchema | utf8 | tokenId | input | outputCapacity
  | scratchCapacity | indexCapacity | indexAlignment | indexCorrupt | state
  deriving DecidableEq, Repr

/-- The part of the system a `ModelError` is about. -/
inductive ErrorDomain where
  | none | header | section | tensor | token | merge | chat | index | user | renderedOutput
  | tokenOutput | pieceOutput | scratch
  deriving DecidableEq, Repr

/-- The field a `ModelError` names. -/
inductive FieldKind where
  | none | fileBytes | baseAlignment | digestByte | magicByte | version | endian | headerField
  | reservedByte | sectionId | elementType | rangeStart | rangeLength | order | gapByte | tensorId
  | layer | role | dtype | rank | dimension | blockLength | tokenOffset | tokenType | utf8Byte
  | mergeLeft | mergeRight | mergeResult | mergeDuplicate | concatByte | templateByte
  | indexHashByte | indexMaxDisplacement | indexMaxCluster | indexHitBound | indexMissBound
  | userByte | tokenIdField | capacity | stateField | opAdd | opMul | opUsize
  deriving DecidableEq, Repr

/-- An error of the container or of the tokenizer; `kind` and `sub` are the two halves of the
source's packed `detail` word. -/
structure ModelError where
  status : ModelStatus
  domain : ErrorDomain
  index : Nat
  offset : Nat
  needed : Nat
  available : Nat
  kind : FieldKind
  sub : Nat
  deriving DecidableEq, Repr

def vocabCount : Nat := 151936
def mergeCount : Nat := 151387
def tensorCount : Nat := 291
def modelBytes : Nat := 426762944

/-- The frozen configuration values that the engine and the tokenizer read. -/
structure ModelConfig where
  vocabCount : Nat
  mergeCount : Nat
  eos : UInt32
  deriving DecidableEq, Repr

/-- `CONFIG` -/
def ModelConfig.frozen : ModelConfig where
  vocabCount := Promptboot.vocabCount
  mergeCount := Promptboot.mergeCount
  eos := 151645

/-- One section of the container. -/
structure Section where
  offset : Nat
  length : Nat
  deriving DecidableEq, Repr

/-- `SECTION_OFFSETS` and `SECTION_LENGTHS` -/
def frozenSections : Vector Section 7 :=
  #v[⟨704, 607748⟩, ⟨608512, 1372758⟩, ⟨1981312, 151936⟩, ⟨2133248, 1816644⟩, ⟨3949952, 2509⟩,
    ⟨3952512, 27936⟩, ⟨3980480, 422782464⟩]

/-- One entry of the tensor directory. -/
structure TensorMeta where
  id : UInt32
  layer : Nat
  role : Nat
  dtype : UInt32
  rank : UInt32
  dims : Vector UInt32 4
  dataOffset : Nat
  dataLength : Nat
  deriving DecidableEq, Repr

/-- A tensor's directory entry with its payload. -/
structure TensorView where
  info : TensorMeta
  data : List UInt8

structure Merge where
  left : UInt32
  right : UInt32
  result : UInt32
  rank : Nat
  deriving DecidableEq, Repr

abbrev sectionCount : Nat := 7

/-- An opened container. -/
structure ModelView where
  bytes : Nat → UInt8
  sections : Vector Section sectionCount
  config : ModelConfig

open Memory

/-- `u16_at` -/
def u16At (m : Nat → UInt8) (a : Nat) : Nat := (m a).toNat + (m (a + 1)).toNat * 2 ^ 8

/-- `u64_at` -/
def u64At (m : Nat → UInt8) (a : Nat) : Nat :=
  (u32At m a).toNat + (u32At m (a + 4)).toNat * 2 ^ 32

/-- The bytes from `start` up to `stop`. -/
def slice (m : Nat → UInt8) (start stop : Nat) : List UInt8 :=
  (List.range (stop - start)).map fun i => m (start + i)

namespace ModelView

/-- `tensor_meta_at` -/
def tensorMetaAt (bytes : Nat → UInt8) (id : Nat) : TensorMeta :=
  let entry := (frozenSections[5]).offset + id * 96
  { id := u32At bytes entry
    layer := u16At bytes (entry + 4)
    role := u16At bytes (entry + 6)
    dtype := u32At bytes (entry + 8)
    rank := u32At bytes (entry + 12)
    dims := #v[u32At bytes (entry + 16), u32At bytes (entry + 20), u32At bytes (entry + 24),
      u32At bytes (entry + 28)]
    dataOffset := u64At bytes (entry + 32)
    dataLength := u64At bytes (entry + 40) }

/-- `tensor` -/
def tensor (m : ModelView) (id : Nat) : Except ModelError TensorView :=
  if tensorCount ≤ id then
    .error ⟨.tensorSchema, .tensor, id, 0, tensorCount, id, .tensorId, 0⟩
  else
    let info := tensorMetaAt m.bytes id
    .ok ⟨info, slice m.bytes info.dataOffset (info.dataOffset + info.dataLength)⟩

/-- `tensor_for` -/
def tensorFor (m : ModelView) (layer role : Nat) : Except ModelError TensorView :=
  let packed := layer * 2 ^ 16 + role
  if layer = 0xffff then
    match role with
    | 1 => m.tensor 0
    | 2 => m.tensor 289
    | 3 => m.tensor 290
    | _ => .error ⟨.tensorSchema, .tensor, packed, 0, 2 ^ 32 + 3, role, .role, 1⟩
  else if layer < 24 then
    if 10 ≤ role ∧ role ≤ 21 then
      m.tensor (1 + layer * 12 + (role - 10))
    else
      .error ⟨.tensorSchema, .tensor, packed, 0, 10 * 2 ^ 32 + 21, role, .role, 0⟩
  else
    .error ⟨.tensorSchema, .tensor, packed, 0, 24, layer, .layer, 0⟩

/-- `token_bytes` -/
def tokenBytes (m : ModelView) (id : Nat) : Except ModelError (List UInt8) :=
  if vocabCount ≤ id then
    .error ⟨.tokenId, .token, id, 0, vocabCount, id, .tokenIdField, 0⟩
  else
    let offsets := (m.sections[0]).offset
    let start := (u32At m.bytes (offsets + id * 4)).toNat
    let stop := (u32At m.bytes (offsets + (id + 1) * 4)).toNat
    let base := (m.sections[1]).offset
    .ok (slice m.bytes (base + start) (base + stop))

/-- `token_type` -/
def tokenType (m : ModelView) (id : Nat) : Except ModelError UInt8 :=
  if vocabCount ≤ id then
    .error ⟨.tokenId, .token, id, 0, vocabCount, id, .tokenIdField, 0⟩
  else
    .ok (m.bytes ((m.sections[2]).offset + id))

/-- `merge` -/
def merge (m : ModelView) (rank : Nat) : Except ModelError Merge :=
  if mergeCount ≤ rank then
    .error ⟨.tokenizerSchema, .merge, rank, 0, mergeCount, rank, .mergeResult, 0⟩
  else
    let entry := (m.sections[3]).offset + rank * 12
    .ok ⟨u32At m.bytes entry, u32At m.bytes (entry + 4), u32At m.bytes (entry + 8), rank⟩

/-- Every decoder layer has all its roles. -/
lemma tensorFor_eq (m : ModelView) {layer role : Nat} (hl : layer < 24) (hr : 10 ≤ role ∧ role ≤ 21) :
    m.tensorFor layer role = m.tensor (1 + layer * 12 + (role - 10)) := by
  unfold tensorFor
  rw [if_neg (by omega), if_pos hl, if_pos hr]

/-- A tensor id below the count is found. -/
lemma tensor_isOk (m : ModelView) {id : Nat} (h : id < tensorCount) :
    ∃ view, m.tensor id = .ok view := by
  unfold tensor
  rw [if_neg (by omega)]
  exact ⟨_, rfl⟩

/-- A decoder layer's tensor is found. -/
lemma tensorFor_isOk (m : ModelView) {layer role : Nat} (hl : layer < 24)
    (hr : 10 ≤ role ∧ role ≤ 21) : ∃ view, m.tensorFor layer role = .ok view := by
  rw [tensorFor_eq m hl hr]
  apply tensor_isOk
  unfold tensorCount
  omega

end ModelView

end Promptboot
