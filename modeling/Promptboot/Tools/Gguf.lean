import Promptboot.Tools.Stop
import Mathlib.Algebra.GroupWithZero.Nat
import Mathlib.Data.Nat.Find
import Mathlib.Algebra.BigOperators.Group.List.Defs

/-!
# The packer's GGUF reader

`parse_reader` (`gguf.rs`) with everything it calls. A read moves the position of a source whose
bytes do not change.

A `BTreeMap` is the list of its entries in the order of insertion; nothing here depends on more than
which keys there are. The comparisons of SHA-256 digests are the predicate `digestIs`.

The reader is a computation over the position (`Read`) with the loops of the source as `repeatRead`;
the checks of the metadata and of the tensors follow in its order, with its messages.
-/

namespace Promptboot

/-- A file or a reader, with the size that was announced for it. -/
structure Source where
  bytes : List UInt8
  size : Nat

/-- A computation that reads a source: its state is the position. -/
abbrev Read := Fallible Nat Stop

/-- `a + b` in 64 bits, unchecked. -/
def add64 (a b : Nat) : Read Nat :=
  if a + b < 2 ^ 64 then pure (a + b) else .fail .fault

/-- `a - b` in 64 bits, unchecked. -/
def sub64 (a b : Nat) : Read Nat :=
  if b ≤ a then pure (a - b) else .fail .fault

/-- The number that little-endian bytes denote. -/
def leNumber : List UInt8 → Nat
  | [] => 0
  | byte :: bytes => byte.toNat + 256 * leNumber bytes

/-- `from_le_bytes(bytes.try_into().unwrap())` for an integer of `width` bytes. -/
def unwrapLe (width : Nat) (bytes : List UInt8) : Read Nat :=
  if bytes.length = width then pure (leNumber bytes) else .fail .fault

/-- `count` results of an action. -/
def repeatRead {α : Type} (action : Read α) : Nat → Read (List α)
  | 0 => pure []
  | count + 1 => do
    let value ← action
    let values ← repeatRead action count
    pure (value :: values)

/-- The texts of a bounded read's errors. -/
structure ReadErrors where
  overflow : String
  exceeds : String
  short : String

/-- `Reader::read` and `SourceReader::read`: `length` bytes within the announced size. -/
def boundedRead (errors : ReadErrors) (source : Source) (length : Nat) : Read (List UInt8) :=
  fun position =>
    if position + length ≥ 2 ^ 64 then
      (.error (.error errors.overflow), position)
    else if source.size < position + length then
      (.error (.error errors.exceeds), position)
    else if source.bytes.length < position + length then
      (.error (.error errors.short), position)
    else
      (.ok ((source.bytes.drop position).take length), position + length)

structure Tensor where
  dims : List Nat
  dtype : Nat
  offset : Nat
  length : Nat

namespace Gguf

def sourceBytes : Nat := 428730208

inductive Value where
  | scalarU64 (dtype value : Nat)
  | scalarString (value : String)
  | arrayString (values : List String)
  | arrayI32 (values : List Int)

def read (source : Source) (length : Nat) : Read (List UInt8) := fun position =>
  boundedRead
    ⟨"GGUF read offset overflow",
      s!"read of {length} bytes at {position} exceeds bounded input {source.size}",
      s!"short read at {position}"⟩
    source length position

def u8 (source : Source) : Read Nat := do
  let bytes ← read source 1
  unwrapLe 1 bytes

def u32 (source : Source) : Read Nat := do
  let bytes ← read source 4
  unwrapLe 4 bytes

def u64 (source : Source) : Read Nat := do
  let bytes ← read source 8
  unwrapLe 8 bytes

/-- The two-byte reads of `scalar_bits`. -/
def u16 (source : Source) : Read Nat := do
  let bytes ← read source 2
  unwrapLe 2 bytes

/-- A signed number of `width` bytes. -/
def signed (width value : Nat) : Int :=
  if value < 2 ^ (8 * width - 1) then value else value - 2 ^ (8 * width)

def i32 (source : Source) : Read Int := do
  let value ← u32 source
  pure (signed 4 value)

/-- A signed number of `width` bytes, extended to 64 bits. -/
def extend (width value : Nat) : Nat :=
  (signed width value % 2 ^ 64).toNat

def scalarBits (source : Source) (dtype : Nat) : Read Nat :=
  match dtype with
  | 0 => u8 source
  | 1 => do
    let value ← u8 source
    pure (extend 1 value)
  | 2 => u16 source
  | 3 => do
    let value ← u16 source
    pure (extend 2 value)
  | 4 => u32 source
  | 5 => do
    let value ← u32 source
    pure (extend 4 value)
  | 6 => u32 source
  | 7 => u8 source
  | 10 => u64 source
  | 11 => u64 source
  | 12 => u64 source
  | _ => fileError s!"unknown or nonscalar GGUF value type {dtype}"

/-- `String::from_utf8` -/
def fromUtf8 (bytes : List UInt8) : Option String :=
  String.fromUTF8? ⟨bytes.toArray⟩

/-- `valid_up_to`: the length of the longest beginning that is UTF-8. -/
def validUpTo (bytes : List UInt8) : Nat :=
  Nat.findGreatest (fun n => (fromUtf8 (bytes.take n)).isSome) bytes.length

def string (source : Source) (maximum : Nat) : Read String := do
  let length ← u64 source
  require (length ≤ maximum) s!"string length {length} exceeds {maximum}"
  let bytes ← read source length
  match fromUtf8 bytes with
  | some value => pure value
  | none => fileError s!"invalid UTF-8 string at {validUpTo bytes}"

/-- The product of the dimensions. -/
def elementsOf (dims : List Nat) : List Nat → Nat → Read Nat
  | [], elements => pure elements
  | dim :: rest, elements => do
    require (dim ≠ 0) s!"invalid zero tensor dimension {dims}"
    let elements ← checkedMul elements dim s!"tensor dimension product overflow {dims}"
    elementsOf dims rest elements

def tensorLength (dims : List Nat) (dtype : Nat) : Read Nat := do
  let elements ← elementsOf dims dims 1
  match dtype with
  | 0 => checkedMul elements 4 "F32 tensor length overflow"
  | 2 =>
    if elements % 32 = 0 then checkedMul (elements / 32) 18 "Q4_0 tensor length overflow"
    else fileError s!"quantized tensor is not block divisible: {dims}"
  | 8 =>
    if elements % 32 = 0 then checkedMul (elements / 32) 34 "Q8_0 tensor length overflow"
    else fileError s!"quantized tensor is not block divisible: {dims}"
  | _ => fileError s!"unsupported tensor type {dtype}"

def readValue (source : Source) (dtype : Nat) : Read Value :=
  match dtype with
  | 8 => do
    let value ← string source (16 * 1024 * 1024)
    pure (.scalarString value)
  | 9 => do
    let element ← u32 source
    let count ← u64 source
    require (count ≤ 200000) s!"array count {count} exceeds 200000"
    match element with
    | 8 => do
      let values ← repeatRead (string source 4096) count
      pure (.arrayString values)
    | 5 => do
      let values ← repeatRead (i32 source) count
      pure (.arrayI32 values)
    | _ => do
      let _ ← repeatRead (scalarBits source element) count
      fileError s!"unsupported frozen GGUF array element type {element}"
  | _ => do
    let value ← scalarBits source dtype
    pure (.scalarU64 dtype value)

/-- The loop over the metadata: a map without duplicate keys. -/
def readMetadata (source : Source) : Nat → List (String × Value) → Read (List (String × Value))
  | 0, metadata => pure metadata
  | count + 1, metadata => do
    let key ← string source 1024
    let dtype ← u32 source
    let value ← readValue source dtype
    require (!metadata.any fun row => row.1 = key) s!"duplicate metadata key {key}"
    readMetadata source count (metadata ++ [(key, value)])

/-- A tensor before the start of the data is known: its offset is relative. -/
structure TensorInfo where
  name : String
  dims : List Nat
  dtype : Nat
  relative : Nat
  length : Nat

/-- The loop over the tensor infos. -/
def readInfos (source : Source) : Nat → List TensorInfo → Read (List TensorInfo)
  | 0, infos => pure infos
  | count + 1, infos => do
    let name ← string source 1024
    require (!infos.any fun info => info.name = name) s!"duplicate tensor name {name}"
    let rank ← u32 source
    require (1 ≤ rank ∧ rank ≤ 4) s!"invalid rank {rank} for {name}"
    let dims ← repeatRead (u64 source) rank
    let dtype ← u32 source
    let relative ← u64 source
    let length ← tensorLength dims dtype
    readInfos source count (infos ++ [⟨name, dims, dtype, relative, length⟩])

/-- The loop that turns relative offsets into absolute ones. -/
def placeTensors (dataStart size : Nat) : List TensorInfo → Read (List (String × Tensor))
  | [] => pure []
  | info :: infos => do
    let offset ← checkedAdd dataStart info.relative s!"tensor offset overflow {info.name}"
    let stop ← checkedAdd offset info.length s!"tensor end overflow {info.name}"
    require (stop ≤ size) s!"tensor {info.name} exceeds input"
    let tensors ← placeTensors dataStart size infos
    pure ((info.name, ⟨info.dims, info.dtype, offset, info.length⟩) :: tensors)

/-- Tuples are sorted by their first difference. -/
def beforeNamed (a b : Nat × Nat × String) : Bool :=
  a.1 < b.1 || (a.1 = b.1 && (a.2.1 < b.2.1 || (a.2.1 = b.2.1 && a.2.2 ≤ b.2.2)))

/-- The loop over the sorted intervals. -/
def checkOverlap : List (Nat × Nat × String) → Nat → Read Unit
  | [], _ => pure ()
  | (start, stop, name) :: rest, previous => do
    require (previous ≤ start) s!"tensor {name} overlaps previous tensor"
    checkOverlap rest stop

section Validation
variable (digestIs : List UInt8 → String → Bool)

/-- The little-endian bytes of a 64-bit value. -/
def le64 (value : Nat) : List UInt8 :=
  (List.range 8).map fun i => UInt8.ofNat (value / 256 ^ i)

def canonicalStrings (values : List String) : List UInt8 :=
  values.flatMap fun value => le64 value.utf8ByteSize ++ value.toUTF8.toList

def canonicalI32 (values : List Int) : List UInt8 :=
  values.flatMap fun value => le64 (value % 2 ^ 64).toNat

def validateStringArray (value : Option Value) (key : String) (count : Nat) (expected : String) :
    Read Unit :=
  match value with
  | some (.arrayString values) => do
    require (values.length = count) s!"{key} array count mismatch"
    require (digestIs (canonicalStrings values) expected) s!"{key} canonical SHA-256 mismatch"
  | _ => fileError s!"{key} array schema mismatch"

def validateI32Array (value : Option Value) (key : String) (count : Nat) (expected : String) :
    Read Unit :=
  match value with
  | some (.arrayI32 values) => do
    require (values.length = count) s!"{key} array count mismatch"
    require (digestIs (canonicalI32 values) expected) s!"{key} canonical SHA-256 mismatch"
  | _ => fileError s!"{key} array schema mismatch"

def validateTemplate (value : Option Value) : Read Unit :=
  match value with
  | some (.scalarString template) =>
    require (template.utf8ByteSize = 2509 && digestIs template.toUTF8.toList
      "d5495a1e5db0611132a97e46a65dbb64a642a499421228b9c8b93229097fa9a4")
      "tokenizer.chat_template identity mismatch"
  | _ => fileError "tokenizer.chat_template type mismatch"

def expectedStrings : List (String × String) :=
  [("general.architecture", "qwen2"),
    ("general.type", "model"),
    ("general.name", "qwen2.5-0.5b-instruct"),
    ("general.version", "v0.1"),
    ("general.finetune", "qwen2.5-0.5b-instruct"),
    ("general.size_label", "630M"),
    ("tokenizer.ggml.model", "gpt2"),
    ("tokenizer.ggml.pre", "qwen2")]

def expectedScalars : List (String × Nat × Nat) :=
  [("qwen2.block_count", 4, 24),
    ("qwen2.context_length", 4, 32768),
    ("qwen2.embedding_length", 4, 896),
    ("qwen2.feed_forward_length", 4, 4864),
    ("qwen2.attention.head_count", 4, 14),
    ("qwen2.attention.head_count_kv", 4, 2),
    ("qwen2.rope.freq_base", 6, 0x49742400),
    ("qwen2.attention.layer_norm_rms_epsilon", 6, 0x358637bd),
    ("general.file_type", 4, 2),
    ("tokenizer.ggml.eos_token_id", 4, 151645),
    ("tokenizer.ggml.padding_token_id", 4, 151643),
    ("tokenizer.ggml.bos_token_id", 4, 151643),
    ("tokenizer.ggml.add_bos_token", 7, 0),
    ("general.quantization_version", 4, 2)]

def expectedKeys : List String :=
  expectedStrings.map Prod.fst ++ expectedScalars.map Prod.fst ++
    ["tokenizer.ggml.tokens", "tokenizer.ggml.token_type", "tokenizer.ggml.merges",
      "tokenizer.chat_template"]

/-- `BTreeMap::get` -/
def lookup {α : Type} (map : List (String × α)) (key : String) : Option α :=
  (map.find? fun row => row.1 = key).map Prod.snd

def stringMatches (expected : String) : Value → Bool
  | .scalarString actual => actual = expected
  | _ => false

def scalarMatches (dtype expected : Nat) : Value → Bool
  | .scalarU64 actualType actual => actualType = dtype && actual = expected
  | _ => false

def validateMetadata (metadata : List (String × Value)) : Read Unit := do
  require ((metadata.all fun row => expectedKeys.contains row.1) &&
    expectedKeys.all fun key => metadata.any fun row => row.1 = key) "metadata key set mismatch"
  expectedStrings.forM fun (key, expected) =>
    require ((lookup metadata key).any (stringMatches expected)) s!"{key} value mismatch"
  expectedScalars.forM fun (key, dtype, expected) =>
    require ((lookup metadata key).any (scalarMatches dtype expected)) s!"{key} value mismatch"
  validateStringArray digestIs (lookup metadata "tokenizer.ggml.tokens") "tokenizer.ggml.tokens"
    151936 "8656e079473b857729cf444f772368cd6428dcd64513d46aac3f694b2f695282"
  validateI32Array digestIs (lookup metadata "tokenizer.ggml.token_type")
    "tokenizer.ggml.token_type" 151936
    "f3760e7fbfc96d388f5b8d7cd67c5cd46535c8682ff84ebc9817cda61bc98f4d"
  validateStringArray digestIs (lookup metadata "tokenizer.ggml.merges") "tokenizer.ggml.merges"
    151387 "907981a313a6e78ef2223229042674a39cd4995ee4c4ed40a31b58754e82c26c"
  validateTemplate digestIs (lookup metadata "tokenizer.chat_template")

/-- A row of the frozen schema. -/
structure TensorRow where
  name : String
  dims : List Nat
  dtype : Nat
  layer : Nat
  role : Nat

def layerRoles : List (String × List Nat × Nat × Nat) :=
  [("attn_norm.weight", [896], 0, 10),
    ("ffn_down.weight", [4864, 896], 2, 11),
    ("ffn_gate.weight", [896, 4864], 2, 12),
    ("ffn_up.weight", [896, 4864], 2, 13),
    ("ffn_norm.weight", [896], 0, 14),
    ("attn_k.bias", [128], 0, 15),
    ("attn_k.weight", [896, 128], 2, 16),
    ("attn_output.weight", [896, 896], 2, 17),
    ("attn_q.bias", [896], 0, 18),
    ("attn_q.weight", [896, 896], 2, 19),
    ("attn_v.bias", [128], 0, 20),
    ("attn_v.weight", [896, 128], 2, 21)]

def packTensorRows : List TensorRow :=
  [⟨"token_embd.weight", [896, 151936], 2, 65535, 1⟩] ++
    ((List.range 24).flatMap fun layer => layerRoles.map fun (suffix, dims, dtype, role) =>
      ⟨s!"blk.{layer}.{suffix}", dims, dtype, layer, role⟩) ++
    [⟨"output_norm.weight", [896], 0, 65535, 2⟩, ⟨"output.weight", [896, 151936], 8, 65535, 3⟩]

/-- `counts[dtype] += 1` in an array of nine. -/
def countType (counts : List Nat) (dtype : Nat) : Read (List Nat) :=
  if dtype < counts.length then pure (counts.set dtype (counts.getD dtype 0 + 1)) else .fail .fault

/-- The loop over the expected rows. -/
def checkRows (tensors : List (String × Tensor)) : List TensorRow → List Nat → Read (List Nat)
  | [], counts => pure counts
  | row :: rows, counts => do
    match lookup tensors row.name with
    | none => fileError s!"missing tensor {row.name}"
    | some tensor => do
      require (tensor.offset % 32 = 0 ∧ tensor.dims = row.dims ∧ tensor.dtype = row.dtype)
        s!"tensor schema mismatch for {row.name}"
      let counts ← countType counts row.dtype
      checkRows tensors rows counts

/-- The intervals of the tensors, with the check of their ends. -/
def tensorIntervals : List (String × Tensor) → Read (List (Nat × Nat))
  | [] => pure []
  | (_, tensor) :: tensors => do
    let stop ← checkedAdd tensor.offset tensor.length "source tensor interval overflow"
    let intervals ← tensorIntervals tensors
    pure ((tensor.offset, stop) :: intervals)

def before (a b : Nat × Nat) : Bool :=
  a.1 < b.1 || (a.1 = b.1 && a.2 ≤ b.2)

/-- Sorted intervals begin at `dataStart`, end at `size`, and each begins where the one before
ends. -/
def spans (intervals : List (Nat × Nat)) (dataStart size : Nat) : Bool :=
  intervals.head?.map Prod.fst = some dataStart && intervals.getLast?.map Prod.snd = some size &&
    (intervals.zip intervals.tail).all fun (a, b) => a.2 = b.1

def validateTensors (tensors : List (String × Tensor)) (dataStart size : Nat) : Read Unit := do
  require (tensors.length = packTensorRows.length &&
    tensors.all fun (name, _) => packTensorRows.any fun row => row.name = name)
    "tensor name set is not the frozen 291-tensor schema"
  let counts ← checkRows tensors packTensorRows (List.replicate 9 0)
  require (counts.getD 0 0 = 121 ∧ counts.getD 2 0 = 169 ∧ counts.getD 8 0 = 1)
    "tensor dtype counts mismatch"
  let intervals ← tensorIntervals tensors
  let intervals := intervals.mergeSort before
  require (spans intervals dataStart size) "source tensor payload layout mismatch"
  let payload ← sub64 size dataStart
  require (payload = 422782464) "source tensor payload layout mismatch"

def validateExact (metadata : List (String × Value)) (tensors : List (String × Tensor))
    (infoEnd dataStart size : Nat) : Read Unit := do
  require (size = sourceBytes) s!"unexpected source size {size}"
  require (infoEnd = 5947741 ∧ dataStart = 5947744)
    s!"unexpected tensor-info/data offsets {infoEnd}/{dataStart}"
  validateMetadata digestIs metadata
  validateTensors tensors dataStart size

end Validation

end Gguf

/-- `Gguf` -/
structure GgufFile where
  metadata : List (String × Gguf.Value)
  tensors : List (String × Tensor)

namespace Gguf

/-- `value & !31` -/
def alignDown32 (value : Nat) : Nat := value / 32 * 32

def parseReader (digestIs : List UInt8 → String → Bool) (source : Source) : Read GgufFile := do
  let magic ← read source 4
  require (magic = [0x47, 0x47, 0x55, 0x46]) "bad GGUF magic"
  let version ← u32 source
  require (version = 3) s!"expected GGUF version 3, got {version}"
  let tensorCount ← u64 source
  let metadataCount ← u64 source
  require (tensorCount ≤ 4096 ∧ metadataCount ≤ 1024) "GGUF header count exceeds parser bounds"
  let metadata ← readMetadata source metadataCount []
  let infos ← readInfos source tensorCount []
  let infoEnd ← .get
  let aligned ← checkedAdd infoEnd 31 "GGUF data alignment overflow"
  let dataStart := alignDown32 aligned
  require (dataStart ≤ source.size) "aligned tensor data starts beyond input"
  let tensors ← placeTensors dataStart source.size infos
  let intervals := tensors.map fun (name, tensor) =>
    (tensor.offset, tensor.offset + tensor.length, name)
  checkOverlap (intervals.mergeSort beforeNamed) dataStart
  validateExact digestIs metadata tensors infoEnd dataStart source.size
  pure ⟨metadata, tensors⟩

end Gguf

end Promptboot
