import Promptboot.Tools.Gguf
import Promptboot.Lib.Buffer
import Promptboot.Model.Open

/-!
# The packer

`pack` (`pack.rs`) with everything it calls, over the bytes of a source and what `parse_reader` made
of them. The state is the output file with the position in it; SHA-256 is a parameter. The operating
system's own errors (a file that cannot be opened or created, a full disk) are left out.

`Packing` is the computation over the output. `tokenizerSections` makes the sections of the
tokenizer, `layOut` places the sections and the tensors, and `pack` writes them and goes back for
the directory and the header.
-/

namespace Promptboot

namespace Gguf

/-- A hexadecimal digit. -/
def hexDigit (digit : Char) : Nat :=
  if digit.toNat < 0x61 then digit.toNat - 0x30 else digit.toNat - 0x61 + 10

/-- The loop of `decode_hex` over pairs of digits. -/
def decodePairs : List Char → List UInt8
  | high :: low :: rest => UInt8.ofNat (hexDigit high * 16 + hexDigit low) :: decodePairs rest
  | _ => []

/-- `decode_hex` -/
def decodeHex (value : String) : List UInt8 := decodePairs value.toList

/-- The comparison of a digest with one in hexadecimal. -/
def shaIs (sha : List UInt8 → Vector UInt8 32) (bytes : List UInt8) (expected : String) : Bool :=
  (sha bytes).toList = decodeHex expected

end Gguf

/-- The file of a source. -/
def Source.file (source : Source) : Buffer where
  length := source.bytes.length
  byte i := source.bytes.getD i 0

end Promptboot

namespace Promptboot.Pack
open Gguf

def headerBytes : Nat := 256
def directoryBytes : Nat := 7 * 64
def ceiling : Nat := 448 * 1024 * 1024

/-- The output file and the position in it. -/
structure Output where
  file : Buffer
  position : Nat

/-- A computation that works on the output file. -/
abbrev Packing := Fallible Output Stop

/-- `OpenOptions::create_new` -/
def create : Packing Unit := .modify fun _ => ⟨Buffer.zeros 0, 0⟩

def seek (position : Nat) : Packing Unit := .modify fun output => { output with position }

def writeAll (bytes : List UInt8) : Packing Unit := .modify fun output =>
  ⟨output.file.put output.position bytes, output.position + bytes.length⟩

/-- `a - b` in 64 bits, unchecked. -/
def subtract (a b : Nat) : Packing Nat := if b ≤ a then pure (a - b) else .fail .fault

/-- The bytes of a number, the lowest first. -/
def leBytes (width value : Nat) : List UInt8 :=
  (List.range width).map fun i => UInt8.ofNat (value / 256 ^ i)

/-- The bytes of a text. -/
def asBytes (text : String) : List UInt8 := text.toUTF8.toList

def align (value : Nat) : Packing Nat := do
  let result ← checkedAdd value 63 "container alignment overflow"
  pure (result / 64 * 64)

def hashRegion (sha : List UInt8 → Vector UInt8 32) (file : Buffer) (offset length : Nat) :
    Packing (Vector UInt8 32) :=
  if length = 0 ∨ offset + length ≤ file.length then pure (sha (file.slice offset length))
  else fileError s!"short read hashing region offset={offset} length={length}"

/-- `hash_region` of the output, which moves the position. -/
def hashOutput (sha : List UInt8 → Vector UInt8 32) (offset length : Nat) :
    Packing (Vector UInt8 32) := do
  let output ← .get
  let digest ← hashRegion sha output.file offset length
  seek (offset + length)
  pure digest

/-- `copy_region`; what is hashed is the result. -/
def copyRegion (source : Buffer) (offset length : Nat) : Packing (List UInt8) :=
  if length = 0 ∨ offset + length ≤ source.length then do
    writeAll (source.slice offset length)
    pure (source.slice offset length)
  else fileError "source ended while copying tensor"

section Tokenizer

/-- The token numbers by text. -/
def indexTokens : List String → Nat → List (String × UInt32) → Packing (List (String × UInt32))
  | [], _, ids => pure ids
  | token :: tokens, index, ids => do
    require (!(token.isEmpty || ids.any fun row => row.1 = token))
      "token strings must be unique and nonempty"
    indexTokens tokens (index + 1) (ids ++ [(token, UInt32.ofNat index)])

/-- What the loop over the token texts fills. -/
structure TextLayout where
  offsets : List UInt8
  texts : List UInt8
  longest : Nat

def layTexts : List String → TextLayout → Packing TextLayout
  | [], layout => pure layout
  | token :: tokens, layout => do
    let encoded := asBytes token
    let texts := layout.texts ++ encoded
    require (texts.length < 2 ^ 32) "token byte offsets exceed u32"
    layTexts tokens
      ⟨layout.offsets ++ leBytes 4 texts.length, texts, max layout.longest encoded.length⟩

def typeBytes : List Int → Packing (List UInt8)
  | [] => pure []
  | value :: values => do
    require (0 ≤ value ∧ value < 256) s!"token type does not fit u8: {value}"
    let bytes ← typeBytes values
    pure (UInt8.ofNat value.toNat :: bytes)

/-- `split_once(' ')` -/
def splitOnce (text : String) : Option (String × String) :=
  match text.toList.dropWhile (· ≠ ' ') with
  | [] => none
  | _ :: right => some (String.ofList (text.toList.takeWhile (· ≠ ' ')), String.ofList right)

/-- `ids.get(text)`, with its error. -/
def idOf (ids : List (String × UInt32)) (text message : String) : Packing UInt32 :=
  match lookup ids text with
  | some id => pure id
  | none => fileError message

/-- The loop over the merges. -/
def mergeBytes (ids : List (String × UInt32)) :
    List String → Nat → List (UInt32 × UInt32) → Packing (List UInt8)
  | [], _, _ => pure []
  | merge :: merges, rank, seen =>
    match splitOnce merge with
    | none => fileError s!"invalid source merge at rank {rank}"
    | some (left, right) => do
      require (!right.toList.contains ' ') s!"invalid source merge at rank {rank}"
      let leftId ← idOf ids left s!"unknown left merge token at rank {rank}"
      let rightId ← idOf ids right s!"unknown right merge token at rank {rank}"
      require (!seen.contains (leftId, rightId)) s!"duplicate merge pair at rank {rank}"
      let resultId ← idOf ids (left ++ right) s!"merge result has no token at rank {rank}"
      let bytes ← mergeBytes ids merges (rank + 1) (seen ++ [(leftId, rightId)])
      pure (leBytes 4 leftId.toNat ++ leBytes 4 rightId.toNat ++ leBytes 4 resultId.toNat ++ bytes)

/-- The five sections of the tokenizer. -/
structure Sections where
  offsets : List UInt8
  texts : List UInt8
  types : List UInt8
  merges : List UInt8
  template : List UInt8

def Sections.all (small : Sections) : List (List UInt8) :=
  [small.offsets, small.texts, small.types, small.merges, small.template]

/-- A metadata entry of the type that `read` asks for, with the two errors. -/
def entryOf {α : Type} (metadata : List (String × Value)) (key : String) (read : Value → Option α)
    (missing wrong : String) : Packing α :=
  match lookup metadata key with
  | none => fileError missing
  | some value =>
    match read value with
    | some result => pure result
    | none => fileError wrong

def strings : Value → Option (List String)
  | .arrayString values => some values
  | _ => none

def integers : Value → Option (List Int)
  | .arrayI32 values => some values
  | _ => none

def text : Value → Option String
  | .scalarString value => some value
  | _ => none

def tokenizerSections (metadata : List (String × Value)) : Packing Sections := do
  let tokens ← entryOf metadata "tokenizer.ggml.tokens" strings "missing token strings"
    "token strings have wrong type"
  let tokenTypes ← entryOf metadata "tokenizer.ggml.token_type" integers "missing token types"
    "token types have wrong type"
  let merges ← entryOf metadata "tokenizer.ggml.merges" strings "missing merges"
    "merges have wrong type"
  let template ← entryOf metadata "tokenizer.chat_template" text "missing chat template"
    "chat template has wrong type"
  let ids ← indexTokens tokens 0 []
  require (ids.length = 151936) "token count mismatch"
  let layout ← layTexts tokens ⟨leBytes 4 0, [], 0⟩
  require (layout.texts.length = 1372758 ∧ layout.longest = 256) "token byte accounting mismatch"
  let types ← typeBytes tokenTypes
  let mergeTable ← mergeBytes ids merges 0 []
  pure ⟨layout.offsets, layout.texts, types, mergeTable, asBytes template⟩

end Tokenizer

def putU32 (buffer : Buffer) (offset value : Nat) : Buffer := buffer.put offset (leBytes 4 value)

def putU64 (buffer : Buffer) (offset value : Nat) : Buffer := buffer.put offset (leBytes 8 value)

section Header

/-- The 32-bit fields of the header. -/
def headerWords : List (Nat × Nat) :=
  [(0x08, 1), (0x0c, 256), (0x10, 0x01020304), (0x14, 7), (0x18, 291), (0x1c, 151936),
    (0x20, 151387), (0x24, 32768), (0x28, 24), (0x2c, 896), (0x30, 4864), (0x34, 14), (0x38, 2),
    (0x3c, 64), (0x40, 151645), (0x44, 151643), (0x48, 151643), (0x4c, 0)]

/-- The 64-bit fields of the header. -/
def headerLongs (fileSize : Nat) : List (Nat × Nat) :=
  [(0x50, sourceBytes), (0x58, fileSize), (0x60, 256), (0x68, 448), (0x70, 5947744),
    (0x78, 422782464)]

/-- `SOURCE_SHA256` -/
def sourceSha256 : List UInt8 :=
  [0x76, 0x71, 0xc0, 0xc3, 0x04, 0xe6, 0xce, 0x5a, 0x7f, 0xc5, 0x77, 0xbc, 0xb1, 0x2a, 0xba, 0x01,
    0xe2, 0xc1, 0x55, 0xcc, 0x2e, 0xfd, 0x29, 0xb2, 0x21, 0x3c, 0x95, 0xb1, 0x8e, 0xda, 0xf6, 0xed]

def header (fileSize : Nat) (contentHash : Vector UInt8 32) : List UInt8 :=
  let result := (Buffer.zeros 256).put 0 Opening.magic
  let result := headerWords.foldl (fun result field => putU32 result field.1 field.2) result
  let result :=
    (headerLongs fileSize).foldl (fun result field => putU64 result field.1 field.2) result
  let result := result.put 0x80 sourceSha256
  (result.put 0xa0 contentHash.toList).slice 0 256

def sectionEntry (id element count offset length : Nat) (digest : Vector UInt8 32) : List UInt8 :=
  let result := putU32 (Buffer.zeros 64) 0 id
  let result := putU32 result 4 element
  let result := putU64 result 8 count
  let result := putU64 result 16 offset
  let result := putU64 result 24 length
  (result.put 32 digest.toList).slice 0 64

end Header

/-- `write_padding`; what is hashed is the result. -/
def writePadding (target : Nat) : Packing (List UInt8) := do
  let output ← .get
  require (output.position ≤ target) "output layout moved backwards"
  let zeros := List.replicate (target - output.position) 0
  writeAll zeros
  pure zeros

/-- Where the tokenizer's sections go, and the end of the last. -/
def layOut : List (List UInt8) → Nat → Packing (List Nat × Nat)
  | [], cursor => pure ([], cursor)
  | data :: rest, cursor => do
    let start ← align cursor
    let stop ← checkedAdd start data.length "section layout overflow"
    let (offsets, last) ← layOut rest stop
    pure (start :: offsets, last)

section Tensors

/-- Where the payload of a tensor comes from and goes to. -/
structure Placement where
  sourceOffset : Nat
  destination : Nat
  length : Nat

/-- The container's number for a source's tensor type, with its error. -/
def packedDtype (dtype : Nat) : Packing Nat :=
  match dtype with
  | 0 => pure 1
  | 2 => pure 2
  | 8 => pure 3
  | _ => fileError s!"unmapped source dtype {dtype}"

/-- The four dimensions of an entry. -/
def entryDims (row : TensorRow) : List Nat := (List.range 4).map fun index => row.dims.getD index 1

def tensorEntry (id : Nat) (row : TensorRow) (dtype destination length : Nat)
    (rawHash : Vector UInt8 32) : List UInt8 :=
  let entry := putU32 (Buffer.zeros 96) 0 id
  let entry := entry.put 4 (leBytes 2 row.layer)
  let entry := entry.put 6 (leBytes 2 row.role)
  let entry := putU32 entry 8 dtype
  let entry := putU32 entry 12 row.dims.length
  let entry := (entryDims row).zipIdx.foldl
    (fun entry dim => putU32 entry (16 + dim.2 * 4) dim.1) entry
  let entry := putU64 entry 32 destination
  let entry := putU64 entry 40 length
  (entry.put 48 rawHash.toList).slice 0 96

/-- The loop over the rows: the entries, the placements and the end of the last tensor. -/
def layTensors (sha : List UInt8 → Vector UInt8 32) (source : Source)
    (tensors : List (String × Tensor)) :
    List TensorRow → Nat → Nat → Packing (List UInt8 × List Placement × Nat)
  | [], _, cursor => pure ([], [], cursor)
  | row :: rows, id, cursor =>
    match lookup tensors row.name with
    | none => fileError s!"source tensor disappeared: {row.name}"
    | some tensor => do
      let destination ← align cursor
      let rawHash ← hashRegion sha source.file tensor.offset tensor.length
      let dtype ← packedDtype row.dtype
      require ((entryDims row).all (· < 2 ^ 32)) s!"tensor dimension exceeds u32: {row.name}"
      let entry := tensorEntry id row dtype destination tensor.length rawHash
      let stop ← checkedAdd destination tensor.length "tensor data layout overflow"
      let (entries, placements, last) ← layTensors sha source tensors rows (id + 1) stop
      pure (entry ++ entries, ⟨tensor.offset, destination, tensor.length⟩ :: placements, last)

/-- The loop that copies the payloads; what is hashed is the result. -/
def copyTensors (source : Source) : List Placement → List UInt8 → Packing (List UInt8)
  | [], hashed => pure hashed
  | placement :: placements, hashed => do
    let padding ← writePadding placement.destination
    let payload ← copyRegion source.file placement.sourceOffset placement.length
    copyTensors source placements (hashed ++ padding ++ payload)

end Tensors

/-- The loop that writes the tokenizer's sections. -/
def writeSections : List (Nat × List UInt8) → Packing Unit
  | [] => pure ()
  | (offset, data) :: rest => do
    let _ ← writePadding offset
    writeAll data
    writeSections rest

/-- The loop over the definitions of the first six sections. -/
def sectionEntries (sha : List UInt8 → Vector UInt8 32) :
    List (Nat × Nat × Nat × Nat × Nat) → Packing (List UInt8)
  | [] => pure []
  | (id, element, count, offset, length) :: rest => do
    let digest ← hashOutput sha offset length
    let entries ← sectionEntries sha rest
    pure (sectionEntry id element count offset length digest ++ entries)

/-- The definitions of the first six sections. -/
def definitions (small : Sections) (offsets : List Nat) (directoryOffset entriesLength : Nat) :
    List (Nat × Nat × Nat × Nat × Nat) :=
  [(1, 1, 151937, offsets.getD 0 0, small.offsets.length),
    (2, 2, 1372758, offsets.getD 1 0, small.texts.length),
    (3, 2, 151936, offsets.getD 2 0, small.types.length),
    (4, 3, 151387, offsets.getD 3 0, small.merges.length),
    (5, 2, 2509, offsets.getD 4 0, small.template.length),
    (6, 4, 291, directoryOffset, entriesLength)]

/-- The first part of `pack`: where everything goes. -/
structure Layout where
  small : Sections
  offsets : List Nat
  directoryOffset : Nat
  dataOffset : Nat
  entries : List UInt8
  placements : List Placement
  fileSize : Nat

def layout (sha : List UInt8 → Vector UInt8 32) (source : Source) (model : GgufFile) :
    Packing Layout := do
  let small ← tokenizerSections model.metadata
  let (offsets, cursor) ← layOut small.all (headerBytes + directoryBytes)
  let directoryOffset ← align cursor
  let cursor ← checkedAdd directoryOffset (291 * 96) "tensor directory overflow"
  let dataOffset ← align cursor
  let (entries, placements, fileSize) ←
    layTensors sha source model.tensors packTensorRows 0 dataOffset
  require (fileSize ≤ ceiling) s!"packed size {fileSize} exceeds {ceiling}"
  pure ⟨small, offsets, directoryOffset, dataOffset, entries, placements, fileSize⟩

/-- The second part of `pack`: the file from its front to its end; what is hashed of the tensors is
the result. -/
def writeBody (source : Source) (layout : Layout) : Packing (List UInt8) := do
  create
  writeAll (List.replicate (headerBytes + directoryBytes) 0)
  writeSections ((layout.offsets.take 5).zip layout.small.all)
  let _ ← writePadding layout.directoryOffset
  writeAll layout.entries
  let _ ← writePadding layout.dataOffset
  let hashed ← copyTensors source layout.placements []
  let output ← .get
  require (output.position = layout.fileSize) "final packed size mismatch"
  pure hashed

/-- The third part of `pack`: the section directory and the header. -/
def writeDirectory (sha : List UInt8 → Vector UInt8 32) (layout : Layout) (hashed : List UInt8) :
    Packing Unit := do
  let directory ← sectionEntries sha
    (definitions layout.small layout.offsets layout.directoryOffset layout.entries.length)
  let dataLength ← subtract layout.fileSize layout.dataOffset
  seek headerBytes
  writeAll (directory ++ sectionEntry 7 2 dataLength layout.dataOffset dataLength (sha hashed))
  let contentLength ← subtract layout.fileSize headerBytes
  let contentHash ← hashOutput sha headerBytes contentLength
  seek 0
  writeAll (header layout.fileSize contentHash)

def pack (sha : List UInt8 → Vector UInt8 32) (source : Source) (model : GgufFile) :
    Packing Unit := do
  let layout ← layout sha source model
  let hashed ← writeBody source layout
  writeDirectory sha layout hashed

end Promptboot.Pack
