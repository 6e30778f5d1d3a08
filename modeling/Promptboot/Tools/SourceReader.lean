import Promptboot.Tools.Gguf

/-!
# The inspector's GGUF reader

`source_tensors` (`inspect.rs`), which reads the same format for the tensors alone and skips what
the metadata hold.

The skips have the sizes of the scalars in a table of their own (`scalarSize`), and an array is
skipped element by element, as the source does it. The loops are those of the packer's reader.
-/

namespace Promptboot.SourceReader
open Gguf

def read (source : Source) (amount : Nat) : Read (List UInt8) :=
  boundedRead ⟨"source read overflow", "source GGUF is truncated", "source GGUF short read"⟩
    source amount

def u32 (source : Source) : Read Nat := do
  let bytes ← read source 4
  unwrapLe 4 bytes

def u64 (source : Source) : Read Nat := do
  let bytes ← read source 8
  unwrapLe 8 bytes

def string (source : Source) : Read String := do
  let length ← u64 source
  require (length ≤ 16 * 1024 * 1024) "source string exceeds inspector bound"
  let bytes ← read source length
  match fromUtf8 bytes with
  | some value => pure value
  | none => fileError "source contains invalid UTF-8"

def scalarSize (kind : Nat) : Option Nat :=
  if kind = 0 ∨ kind = 1 ∨ kind = 7 then some 1
  else if kind = 2 ∨ kind = 3 then some 2
  else if kind = 4 ∨ kind = 5 ∨ kind = 6 then some 4
  else if 10 ≤ kind ∧ kind ≤ 12 then some 8
  else none

/-- One element of an array. -/
def skipElement (source : Source) (element : Nat) : Read Unit := do
  if element = 8 then
    let _ ← string source
  else
    match scalarSize element with
    | some size =>
      let _ ← read source size
    | none => fileError s!"unsupported source array type {element}"

def skipValue (source : Source) (dtype : Nat) : Read Unit :=
  match dtype with
  | 8 => do
    let _ ← string source
  | 9 => do
    let element ← u32 source
    let count ← u64 source
    require (count ≤ 200000) "source array exceeds inspector bound"
    let _ ← repeatRead (skipElement source element) count
  | _ => do
    match scalarSize dtype with
    | some size =>
      let _ ← read source size
    | none => fileError s!"unsupported source value type {dtype}"

/-- The loop over the metadata. -/
def skipMetadata (source : Source) : Nat → List String → Read Unit
  | 0, _ => pure ()
  | count + 1, keys => do
    let key ← string source
    require (!keys.contains key) "duplicate source metadata key"
    let dtype ← u32 source
    skipValue source dtype
    skipMetadata source count (keys ++ [key])

/-- The loop over the dimensions of a tensor, with their product. -/
def readDims (source : Source) : Nat → Nat → Read (List Nat × Nat)
  | 0, count => pure ([], count)
  | rank + 1, count => do
    let dim ← u64 source
    require (dim ≠ 0) "zero source tensor dimension"
    let count ← checkedMul count dim "source tensor dimension overflow"
    let (dims, count) ← readDims source rank count
    pure (dim :: dims, count)

def tensorBytes (dtype count : Nat) : Read Nat :=
  let message := "bad source tensor dtype or length"
  if dtype = 0 then checkedMul count 4 message
  else if dtype = 2 ∧ count % 32 = 0 then checkedMul (count / 32) 18 message
  else if dtype = 8 ∧ count % 32 = 0 then checkedMul (count / 32) 34 message
  else fileError message

/-- The loop over the tensor infos. -/
def readInfos (source : Source) : Nat → List TensorInfo → Read (List TensorInfo)
  | 0, infos => pure infos
  | count + 1, infos => do
    let name ← string source
    require (!infos.any fun info => info.name = name) "duplicate source tensor name"
    let rank ← u32 source
    require (1 ≤ rank ∧ rank ≤ 4) "bad source tensor rank"
    let (dims, elements) ← readDims source rank 1
    let dtype ← u32 source
    let relative ← u64 source
    let length ← tensorBytes dtype elements
    readInfos source count (infos ++ [⟨name, dims, dtype, relative, length⟩])

/-- The loop that turns relative offsets into absolute ones. -/
def placeTensors (dataStart size : Nat) : List TensorInfo → Read (List (String × Tensor))
  | [] => pure []
  | info :: infos => do
    let offset ← checkedAdd dataStart info.relative "source tensor offset overflow"
    let stop ← checkedAdd offset info.length "source tensor end overflow"
    require (stop ≤ size) "source tensor exceeds source file"
    let tensors ← placeTensors dataStart size infos
    pure ((info.name, ⟨info.dims, info.dtype, offset, info.length⟩) :: tensors)

def sourceTensors (source : Source) : Read (List (String × Tensor)) := do
  let magic ← read source 4
  require (magic = [0x47, 0x47, 0x55, 0x46]) "source is not little-endian GGUF v3"
  let version ← u32 source
  require (version = 3) "source is not little-endian GGUF v3"
  let tensorCount ← u64 source
  let metadataCount ← u64 source
  require (tensorCount = 291 ∧ metadataCount = 26)
    "source GGUF counts do not match frozen identity"
  skipMetadata source metadataCount []
  let infos ← readInfos source tensorCount []
  let position ← .get
  require (position = 5947741) "source tensor-info end mismatch"
  let aligned ← add64 position 31
  let dataStart := alignDown32 aligned
  let tensors ← placeTensors dataStart source.size infos
  let intervals := tensors.map fun (_, tensor) => (tensor.offset, tensor.offset + tensor.length)
  require (spans (intervals.mergeSort before) dataStart source.size)
    "source tensors do not span source data exactly"
  pure tensors

end Promptboot.SourceReader
