import Promptboot.Tools.SourceReader
import Promptboot.Lib.Buffer
import Promptboot.Model.Open

/-!
# The container inspector

`inspect` (`inspect.rs`) with everything it calls, over the bytes of a container and of a source.
The comparisons of SHA-256 digests are the predicates `hashIs` and `digestIs`; the report is left
out. The state is the position that the source reader leaves.

The checks are in the order of the source, with its messages. `tensorTurn` is one row of the loop
over the tensors, in which the layout is checked first and then the evidence, a digest of the
payload on either side.
-/

namespace Promptboot.ContainerInspect
open Gguf

/-- What is asked of digests: of bytes and a digest, and of bytes and a digest in hexadecimal. -/
structure Digests where
  hashIs : List UInt8 → List UInt8 → Bool
  digestIs : List UInt8 → String → Bool

def canonicalSize : Nat := 426762944
def ceiling : Nat := 469762048

/-- `CANONICAL_OFFSETS` -/
def canonicalOffsets : List Nat := [704, 608512, 1981312, 2133248, 3949952, 3952512, 3980480]

/-- `CANONICAL_HASHES` -/
def canonicalHashes : List String :=
  ["6dba0abed184bf48dc2eabb85df22fb1abbe48cd43a1a7e4ed43f9825795922b",
    "ff42d75c5cfcc56b3eb4784e6f7b024ef4c8ed784d592bc19e4d77866dade74d",
    "d25702a9d41b2475a2cc04388091d0af2351b1c0e8c709546e7e9658243ca27f",
    "774198a3f5cbc298c6446fd4e7133e55a3676ac95ef21fcb9e792cb31e6c4c31",
    "d5495a1e5db0611132a97e46a65dbb64a642a499421228b9c8b93229097fa9a4",
    "8f45ffc679189fec8b4f5ddc89f876400c4cd80f352ed76d401b490d92b45698",
    "61710d62f0c5e616798c8d1a70f9140c3933e4f13a6b230341eb74517d8ba6b6"]

def readAt (model : Buffer) (offset length : Nat) : Read (List UInt8) :=
  if 2 ^ 64 ≤ offset + length then fileError "model read overflow"
  else if model.length < offset + length then fileError s!"truncated region at {offset}"
  else pure (model.slice offset length)

/-- `u16_at`, `u32_at` and `u64_at` for their widths. -/
def numberAt (width : Nat) (bytes : List UInt8) (offset : Nat) : Read Nat :=
  if offset + width ≤ bytes.length then pure (leNumber ((bytes.drop offset).take width))
  else .fail .fault

/-- `bytes[start..stop]` -/
def rangeOf (bytes : List UInt8) (start stop : Nat) : Read (List UInt8) :=
  if start ≤ stop ∧ stop ≤ bytes.length then pure ((bytes.drop start).take (stop - start))
  else .fail .fault

/-- The bytes that `hash_region` hashes. -/
def hashedRegion (model : Buffer) (offset length : Nat) : Read (List UInt8) :=
  if length = 0 ∨ offset + length ≤ model.length then pure (model.slice offset length)
  else fileError s!"truncated region at {max offset model.length}"

/-- `require_zero(..).is_ok()`, a piece of at most a mebibyte at a time. -/
def paddingZero (model : Buffer) (offset remaining : Nat) : Bool :=
  if remaining = 0 then true
  else
    let wanted := min remaining (1024 * 1024)
    if model.length < offset + wanted then false
    else (model.slice offset wanted).all (· = 0) &&
      paddingZero model (offset + wanted) (remaining - wanted)
termination_by remaining

/-- `same_region`, a piece of at most a mebibyte at a time. -/
def sameRegion (model : Buffer) (source : Source) (offset sourceOffset remaining : Nat) :
    Read Bool :=
  if remaining = 0 then pure true
  else
    let wanted := min remaining (1024 * 1024)
    if model.length < offset + wanted then fileError "truncated model tensor"
    else if source.bytes.length < sourceOffset + wanted then fileError "truncated source tensor"
    else if model.slice offset wanted ≠ (source.bytes.drop sourceOffset).take wanted then pure false
    else sameRegion model source (offset + wanted) (sourceOffset + wanted) (remaining - wanted)
termination_by remaining

/-- The 32-bit fields of the header. -/
def header32 : List (Nat × Nat) :=
  [(0x08, 1), (0x0c, 256), (0x10, 0x01020304), (0x14, 7), (0x18, 291), (0x1c, 151936),
    (0x20, 151387), (0x24, 32768), (0x28, 24), (0x2c, 896), (0x30, 4864), (0x34, 14), (0x38, 2),
    (0x3c, 64), (0x40, 151645), (0x44, 151643), (0x48, 151643), (0x4c, 0)]

/-- The 64-bit fields of the header. -/
def header64 (modelSize : Nat) : List (Nat × Nat) :=
  [(0x50, sourceBytes), (0x58, modelSize), (0x60, 256), (0x68, 448), (0x70, 5947744),
    (0x78, 422782464)]

/-- `0x{offset:02x}` -/
def hexOffset (offset : Nat) : String :=
  "0x" ++ (if offset < 16 then "0" else "") ++ String.ofList (Nat.toDigits 16 offset)

/-- A loop over fields of the header. -/
def checkFields (width : Nat) (header : List UInt8) (kind : String) :
    List (Nat × Nat) → Read Unit
  | [] => pure ()
  | (offset, expected) :: fields => do
    let actual ← numberAt width header offset
    require (actual = expected) s!"header {kind} mismatch at {hexOffset offset}"
    checkFields width header kind fields

def validateHeader (digests : Digests) (header : List UInt8) (modelSize : Nat)
    (content : List UInt8) : Read Unit := do
  require (header.length = 256) "truncated header"
  let start ← rangeOf header 0 8
  require (start = Opening.magic) "bad PBTQW25 magic"
  checkFields 4 header "u32" header32
  checkFields 8 header "u64" (header64 modelSize)
  let source ← rangeOf header 0x80 0xa0
  require (source = Opening.sourceHash) "embedded source digest mismatch"
  let contentHash ← rangeOf header 0xa0 0xc0
  require (digests.hashIs content contentHash) "content digest mismatch"
  let unused ← rangeOf header 0xc0 0x100
  require (unused.all (· = 0)) "header reserved bytes are nonzero"

structure SectionFields where
  id : Nat
  dtype : Nat
  count : Nat
  offset : Nat
  length : Nat
  digest : List UInt8

def sectionFields (row : List UInt8) : Read SectionFields := do
  let id ← numberAt 4 row 0
  let dtype ← numberAt 4 row 4
  let count ← numberAt 8 row 8
  let offset ← numberAt 8 row 16
  let length ← numberAt 8 row 24
  let digest ← rangeOf row 32 64
  pure ⟨id, dtype, count, offset, length, digest⟩

/-- The first six sections: number, type, count and length. -/
def expectedSections : List (Nat × Nat × Nat × Nat) :=
  [(1, 1, 151937, 151937 * 4), (2, 2, 1372758, 1372758), (3, 2, 151936, 151936),
    (4, 3, 151387, 151387 * 12), (5, 2, 2509, 2509), (6, 4, 291, 291 * 96)]

/-- What a section's entry has to say of itself. -/
def checkSectionSchema (index : Nat) (fields : SectionFields) : Read Unit :=
  match expectedSections[index]? with
  | some expected =>
    require ((fields.id, fields.dtype, fields.count, fields.length) = expected)
      s!"section {index + 1} schema mismatch"
  | none =>
    require (fields.id = 7 ∧ fields.dtype = 2 ∧ fields.count = fields.length)
      "tensor-data section schema mismatch"

def validateSectionLayout (index : Nat) (fields : SectionFields) (previousEnd modelSize : Nat) :
    Read Nat := do
  checkSectionSchema index fields
  let stop ← checkedAdd fields.offset fields.length s!"section {fields.id} end overflow"
  require (fields.offset % 64 = 0 ∧ previousEnd ≤ fields.offset ∧ stop ≤ modelSize)
    s!"section {fields.id} offset/alignment/overlap invalid"
  require (some fields.offset = canonicalOffsets[index]?)
    s!"section {fields.id} canonical offset mismatch"
  pure stop

def validateSectionEvidence (digests : Digests) (index : Nat) (fields : SectionFields)
    (hashed : List UInt8) (padding : Bool) : Read Unit := do
  require padding s!"nonzero padding before section {fields.id}"
  require (digests.hashIs hashed fields.digest) s!"section {fields.id} SHA-256 mismatch"
  require (digests.digestIs hashed (canonicalHashes.getD index ""))
    s!"section {fields.id} canonical SHA-256 mismatch"

/-- The loop over the section directory, `left` turns before its end: the sections behind and the
end of the last. -/
def sectionLoop (digests : Digests) (model : Buffer) (directory : List UInt8) :
    Nat → Nat → Nat → Read (List SectionFields × Nat)
  | 0, _, previousEnd => pure ([], previousEnd)
  | left + 1, index, previousEnd => do
    let row ← rangeOf directory (index * 64) ((index + 1) * 64)
    let fields ← sectionFields row
    let stop ← validateSectionLayout index fields previousEnd model.length
    let gap ← sub64 fields.offset previousEnd
    let hashed ← hashedRegion model fields.offset fields.length
    validateSectionEvidence digests index fields hashed (paddingZero model previousEnd gap)
    let (sections, last) ← sectionLoop digests model directory left (index + 1) stop
    pure (fields :: sections, last)

structure TensorFields where
  id : Nat
  layer : Nat
  role : Nat
  dtype : Nat
  rank : Nat
  dims : List Nat
  offset : Nat
  length : Nat
  digest : List UInt8
  reservedZero : Bool

def tensorFields (row : List UInt8) : Read TensorFields := do
  let id ← numberAt 4 row 0
  let layer ← numberAt 2 row 4
  let role ← numberAt 2 row 6
  let dtype ← numberAt 4 row 8
  let rank ← numberAt 4 row 12
  let dim0 ← numberAt 4 row 16
  let dim1 ← numberAt 4 row 20
  let dim2 ← numberAt 4 row 24
  let dim3 ← numberAt 4 row 28
  let offset ← numberAt 8 row 32
  let length ← numberAt 8 row 40
  let digest ← rangeOf row 48 80
  let unused ← rangeOf row 80 96
  pure ⟨id, layer, role, dtype, rank, [dim0, dim1, dim2, dim3], offset, length, digest,
    unused.all (· = 0)⟩

/-- The rows of `inspector_tensor_rows`, which are the packer's. -/
def inspectorTensorRows : List TensorRow := packTensorRows

/-- The container's number for a source's tensor type. -/
def mappedDtype (dtype : Nat) : Option Nat :=
  if dtype = 0 then some 1 else if dtype = 2 then some 2 else if dtype = 8 then some 3 else none

/-- The dimensions of a row, filled up with ones. -/
def paddedDims (dims : List Nat) : List Nat := (dims ++ [1, 1, 1, 1]).take 4

def validateTensorLayout (id : Nat) (fields : TensorFields) (row : TensorRow)
    (sourceTensor : Tensor) (previousEnd : Nat) : Read Unit :=
  match mappedDtype row.dtype with
  | none => fileError "inspector dtype table error"
  | some mapped => do
    require (row.dims.all (· < 2 ^ 32)) s!"expected tensor dimension exceeds u32 id={id}"
    require (fields.id = id ∧ fields.layer = row.layer ∧ fields.role = row.role ∧
      fields.dtype = mapped ∧ fields.rank = row.dims.length ∧ fields.dims = paddedDims row.dims)
      s!"tensor entry schema mismatch id={id}"
    require (sourceTensor.dims = row.dims ∧ sourceTensor.dtype = row.dtype)
      s!"source tensor schema mismatch id={id}"
    require (fields.length = sourceTensor.length ∧ fields.offset % 64 = 0 ∧
      previousEnd ≤ fields.offset) s!"tensor layout mismatch id={id}"
    require fields.reservedZero s!"tensor reserved bytes nonzero id={id}"

def validateTensorEvidence (digests : Digests) (id : Nat) (fields : TensorFields)
    (hashed : List UInt8) (padding same : Bool) : Read Unit := do
  require padding s!"nonzero padding before tensor {id}"
  require (digests.hashIs hashed fields.digest) s!"tensor digest mismatch id={id}"
  require same s!"tensor payload differs from source id={id}"

/-- `source_map.get(&name)`, with its error. -/
def sourceTensor (tensors : List (String × Tensor)) (name : String) : Read Tensor :=
  match lookup tensors name with
  | some tensor => pure tensor
  | none => fileError s!"source tensor missing: {name}"

/-- A turn of the loop over the rows; the end of the tensor is the result. -/
def tensorTurn (digests : Digests) (model : Buffer) (source : Source)
    (tensors : List (String × Tensor)) (entries : List UInt8) (id : Nat) (row : TensorRow)
    (previousEnd : Nat) : Read Nat := do
  let entry ← rangeOf entries (id * 96) ((id + 1) * 96)
  let fields ← tensorFields entry
  let tensor ← sourceTensor tensors row.name
  validateTensorLayout id fields row tensor previousEnd
  let gap ← sub64 fields.offset previousEnd
  let hashed ← hashedRegion model fields.offset fields.length
  let same ← sameRegion model source fields.offset tensor.offset fields.length
  validateTensorEvidence digests id fields hashed (paddingZero model previousEnd gap) same
  add64 fields.offset fields.length

/-- The loop over the rows of the tensors. -/
def tensorLoop (digests : Digests) (model : Buffer) (source : Source)
    (tensors : List (String × Tensor)) (entries : List UInt8) :
    List TensorRow → Nat → Nat → Read Nat
  | [], _, previousEnd => pure previousEnd
  | row :: rows, id, previousEnd => do
    let stop ← tensorTurn digests model source tensors entries id row previousEnd
    tensorLoop digests model source tensors entries rows (id + 1) stop

/-- A sum of 64-bit numbers, unchecked. -/
def sum64 : List Nat → Read Nat
  | [] => pure 0
  | number :: numbers => do
    let rest ← sum64 numbers
    add64 number rest

/-- What lies before each section. -/
def gapsOf : Nat → List SectionFields → Read (List Nat)
  | _, [] => pure []
  | stop, fields :: rest => do
    let gap ← sub64 fields.offset stop
    let gaps ← gapsOf (fields.offset + fields.length) rest
    pure (gap :: gaps)

/-- The final accounting. -/
def checkAccounting (sections : List SectionFields) (modelSize : Nat) : Read Unit := do
  let payloads ← sum64 (sections.map SectionFields.length)
  let gaps ← gapsOf 704 sections
  let padding ← sum64 gaps
  let total ← sum64 [256, 448, payloads, padding]
  require (total = modelSize) "size accounting does not sum to file size"

/-- The tensor directory and the tensor data. -/
def inspectTensors (digests : Digests) (model : Buffer) (source : Source)
    (tensors : List (String × Tensor)) (sections : List SectionFields) : Read Unit := do
  match sections with
  | [_, _, _, _, _, directory, data] =>
    let entries ← readAt model directory.offset directory.length
    let stop ← tensorLoop digests model source tensors entries inspectorTensorRows 0 data.offset
    require (stop = model.length) "tensor directory does not account for final file byte"
  | _ => .fail .fault

def inspect (digests : Digests) (model : Buffer) (source : Source) : Read Unit := do
  require (model.length ≤ ceiling) s!"container size {model.length} exceeds {ceiling}"
  require (source.size = sourceBytes) "source size mismatch"
  require (source.size ≤ source.bytes.length) s!"truncated region at {source.bytes.length}"
  require (digests.hashIs (source.bytes.take source.size) Opening.sourceHash)
    "source SHA-256 mismatch"
  let tensors ← SourceReader.sourceTensors source
  let header ← readAt model 0 256
  let content ← hashedRegion model 256 (model.length - 256)
  validateHeader digests header model.length content
  let directory ← readAt model 256 448
  let (sections, last) ← sectionLoop digests model directory 7 0 704
  require (last = model.length) "trailing bytes after tensor-data section"
  inspectTensors digests model source tensors sections
  require (model.length = canonicalSize) s!"canonical container size mismatch: {model.length}"
  checkAccounting sections model.length

end Promptboot.ContainerInspect
