import Promptboot.Lib.Access
import Promptboot.Engine.Attention
import Promptboot.Primitive.Divide
import Promptboot.Primitive.Entry

/-!
# The primitive kernels

`execute` and the kernels of the nine operations (`fp32_sse2.rs`), over floating-point instructions
that are left open. A kernel reads through raw pointers and computes every index itself: here each
read, each write and each product or sum of an index is an access that the run keeps, with nothing
checked. An index is cut to 64 bits as `usize` is.

`Exec` is the computation with its log of accesses. The nine kernels share `rowDot` and `dequantize`
as the source's do; `runKernel` chooses one by the operation's number and `executeUntil` is
`execute` up to a given access.
-/

namespace Promptboot.Primitive
open Memory Fallible

/-- The scalar instructions of `fp32_sse2.rs` on the bits of their operands. -/
structure Sse2Ops extends Fp32Ops where
  div : Word → Word → Word
  sqrt : Word → Word
  fromI32 : Int32 → Word
  fromU32 : UInt32 → Word
  truncI32 : Word → Int32

/-- The base pointers of a kernel, and that of `ROPE_TABLE`. -/
inductive Pointer where
  | input | aux | table | output
  deriving DecidableEq

inductive Access where
  /-- A product or a sum of an index, not yet cut. -/
  | index (value : Nat)
  /-- `read_bits` of a word behind a pointer. -/
  | word (base : Pointer) (word : Nat)
  /-- A read of so many bytes at a byte behind a pointer. -/
  | bytes (base : Pointer) (byte count : Nat)
  /-- `write_bits` of a word of the output. -/
  | write (word : Nat)
  deriving DecidableEq

/-- What lies behind each pointer. -/
abbrev Memories := Pointer → Nat → UInt8

/-- A kernel at work: it stops with an error of `ε`. -/
abbrev Exec (ε α : Type) := Fallible (Logged Memories Access) ε α

section Accesses

variable {ε : Type}

def indexMul (left right : Nat) : Exec ε Nat :=
  Logged.access (.index (left * right)) fun m => (left * right % 2 ^ 64, m)

def indexAdd (left right : Nat) : Exec ε Nat :=
  Logged.access (.index (left + right)) fun m => ((left + right) % 2 ^ 64, m)

/-- `read_bits` -/
def readBits (base : Pointer) (word : Nat) : Exec ε Word := do
  let byte ← indexMul word 4
  Logged.access (.word base word) fun m => (u32At (m base) byte, m)

/-- `write_bits`, to the output. -/
def writeBits (word : Nat) (bits : Word) : Exec ε Unit := do
  let byte ← indexMul word 4
  Logged.access (.write word) fun m =>
    ((), Function.update m .output (putU32 (m .output) byte bits))

/-- `ptr::read` of one byte. -/
def readByte (base : Pointer) (byte : Nat) : Exec ε UInt8 :=
  Logged.access (.bytes base byte 1) fun m => (m base byte, m)

/-- `u16::from_le(ptr::read_unaligned(..))` -/
def readHalf (base : Pointer) (byte : Nat) : Exec ε UInt16 :=
  Logged.access (.bytes base byte 2) fun m =>
    ((m base byte).toUInt16 ||| (m base (byte + 1)).toUInt16 <<< 8, m)

def checkFinite (base : Pointer) (words : Nat) : Exec UInt32 Unit :=
  loop 0 words () fun index _ => do
    let bits ← readBits base index
    if !finite bits then fail (UInt32.ofNat index) else pure ()

end Accesses

/-- The bits of a half as those of a single. -/
def halfToF32Bits (bits : UInt16) : UInt32 :=
  let sign := (bits &&& 0x8000).toUInt32 <<< 16
  let exponent := ((bits >>> 10) &&& 0x1f).toUInt32
  let fraction := (bits &&& 0x03ff).toUInt32
  if exponent = 0 ∧ fraction = 0 then
    sign
  else if exponent = 0 then
    -- `leading_zeros` of a fraction that is not zero
    let shift := UInt32.ofNat (31 - Nat.log2 fraction.toNat) - 21
    let normalized := fraction <<< shift
    sign ||| (113 - shift) <<< 23 ||| (normalized &&& 0x03ff) <<< 13
  else if exponent = 31 then
    sign ||| (0x7f800000 : UInt32) ||| fraction <<< 13
  else
    sign ||| (exponent + 112) <<< 23 ||| fraction <<< 13

section Exponential

variable (ops : Sse2Ops)

def scalbnf (value : Word) (exponent : Int32) : Word :=
  let (value, exponent) :=
    if exponent > 127 then
      let value := ops.mul value 0x7f000000
      let exponent := exponent - 127
      if exponent > 127 then
        let value := ops.mul value 0x7f000000
        let exponent := exponent - 127
        (value, if exponent > 127 then 127 else exponent)
      else
        (value, exponent)
    else if exponent < -126 then
      let value := ops.mul value (ops.mul 0x00800000 0x4b800000)
      let exponent := exponent + (126 - 24)
      if exponent < -126 then
        let value := ops.mul value (ops.mul 0x00800000 0x4b800000)
        let exponent := exponent + (126 - 24)
        (value, if exponent < -126 then -126 else exponent)
      else
        (value, exponent)
    else
      (value, exponent)
  ops.mul value ((0x7f + exponent).toUInt32 <<< 23)

/-- The reduction of an argument, its high and its low part. -/
def expfReduction (value : Word) : Int32 × Word × Word :=
  let sign := value >>> 31
  let reduction :=
    if value &&& 0x7fffffff > 0x3f851592 then
      let half := if sign = 0 then 0x3f000000 else 0xbf000000
      ops.truncI32 (ops.add (ops.mul 0x3fb8aa3b value) half)
    else
      1 - sign.toInt32 - sign.toInt32
  let reductionBits := ops.fromI32 reduction
  (reduction, ops.sub value (ops.mul reductionBits 0x3f317200), ops.mul reductionBits 0x35bfbe8e)

/-- The polynomial of a reduced argument. -/
def expfReduced (value high low : Word) (reduction : Int32) : Word :=
  let square := ops.mul value value
  let coefficient :=
    ops.sub value (ops.mul square (ops.add 0x3e2aaa8f (ops.mul square 0xbb355215)))
  let fraction := ops.div (ops.mul value coefficient) (ops.sub 0x40000000 coefficient)
  let result := ops.add 0x3f800000 (ops.add (ops.sub fraction low) high)
  if reduction = 0 then result else scalbnf ops result reduction

def expf (value : Word) : Word :=
  let magnitude := value &&& 0x7fffffff
  let sign := value >>> 31
  if magnitude > 0x7f800000 then
    value
  else if magnitude ≥ 0x42b17218 ∧ sign = 0 then
    ops.mul value 0x7f000000
  else if sign ≠ 0 ∧ magnitude ≥ 0x42cff1b5 then
    0
  else if magnitude > 0x3eb17218 then
    let (reduction, high, low) := expfReduction ops value
    expfReduced ops (ops.sub high low) high low reduction
  else if magnitude > 0x39000000 then
    expfReduced ops value value 0 0
  else
    ops.add 0x3f800000 value

end Exponential

section Kernels

variable (ops : Sse2Ops) {ε : Type}

def biasResidual (count : Nat) : Exec ε Unit :=
  loop 0 count () fun index _ => do
    let sum := ops.add (← readBits .input index) (← readBits .input (← indexAdd count index))
    let rest ← readBits .input (← indexAdd (← indexMul count 2) index)
    writeBits index (ops.add sum rest)

/-- `block_bytes` of `quantized` -/
def blockBytes (q4 : Bool) : Nat := if q4 then 18 else 34

/-- A quant of the block at a byte of the input. -/
def readQuant (q4 : Bool) (block element : Nat) : Exec ε Int32 :=
  if q4 then do
    let packed ← readByte .input (← indexAdd block (2 + element % 16))
    pure (if element < 16 then (packed &&& 0x0f).toUInt32.toInt32 - 8
      else (packed >>> 4).toUInt32.toInt32 - 8)
  else do
    let quant ← readByte .input (← indexAdd block (2 + element))
    pure quant.toInt8.toInt32

/-- The first loop of `quantized` over one block. -/
def dequantize (columns : Nat) (q4 : Bool) (row blockIndex : Nat) : Exec UInt32 Unit := do
  let blockNumber ← indexAdd (← indexMul row (columns / 32)) blockIndex
  let block ← indexMul blockNumber (blockBytes q4)
  let scale := halfToF32Bits (← readHalf .input block)
  if !finite scale then
    fail (UInt32.ofNat blockNumber)
  else
    loop 0 32 () fun element _ => do
      let quant ← readQuant q4 block element
      let word ← indexAdd (← indexAdd (← indexMul row columns) (← indexMul blockIndex 32)) element
      writeBits word (ops.mul scale (ops.fromI32 quant))

/-- The second loop of `quantized` over one row. -/
def rowDot (dotBase columns row : Nat) : Exec ε Unit := do
  let total ← loop 0 columns 0 fun column total => do
    let left ← readBits .output (← indexAdd (← indexMul row columns) column)
    let right ← readBits .aux column
    pure (ops.add total (ops.mul left right))
  (if row = 0 then writeBits dotBase total else pure ())
  writeBits (← indexAdd (← indexAdd dotBase 1) row) total

def quantized (rows columns : Nat) (q4 : Bool) : Exec UInt32 Unit := do
  loop 0 rows () fun row _ =>
    loop 0 (columns / 32) () fun blockIndex _ => dequantize ops columns q4 row blockIndex
  let dotBase ← indexMul rows columns
  loop 0 rows () fun row _ => rowDot ops dotBase columns row

def rmsnorm (count : Nat) : Exec ε Unit := do
  let squares ← loop 0 count 0 fun index squares => do
    let value ← readBits .input index
    pure (ops.add squares (ops.mul value value))
  let mean := ops.div squares (ops.fromU32 (UInt32.ofNat count))
  let inverse := ops.div 0x3f800000 (ops.sqrt (ops.add mean 0x358637bd))
  loop 0 count () fun index _ => do
    let value ← readBits .input index
    writeBits index (ops.mul (ops.mul value inverse) (← readBits .aux index))

def ropeBits (position pair component : Nat) : Exec ε Word := do
  let entry ← indexAdd (← indexMul position 32) pair
  let byte ← indexMul (← indexAdd (← indexMul entry 2) component) 4
  Logged.access (.bytes .table byte 4) fun m => (u32At (m .table) byte, m)

/-- A turn of `rope` on one pair of a head. -/
def ropePair (headDim position base pair : Nat) : Exec ε Unit := do
  let half := headDim / 2
  let tableStride := if headDim = 4 then 16 else 1
  let cosine ← ropeBits position (← indexMul pair tableStride) 0
  let sine ← ropeBits position (← indexMul pair tableStride) 1
  let left ← readBits .input (← indexAdd base pair)
  let right ← readBits .input (← indexAdd (← indexAdd base pair) half)
  writeBits (← indexAdd base pair) (ops.sub (ops.mul left cosine) (ops.mul right sine))
  writeBits (← indexAdd (← indexAdd base pair) half)
    (ops.add (ops.mul left sine) (ops.mul right cosine))

def rope (headDim heads position : Nat) : Exec ε Unit :=
  loop 0 heads () fun head _ => do
    let base ← indexMul head headDim
    loop 0 (headDim / 2) () fun pair _ => ropePair ops headDim position base pair

def softmax (count : Nat) : Exec ε Unit := do
  let first ← readBits .input 0
  let maximum ← loop 1 count first fun index maximum => do
    let value ← readBits .input index
    pure (if ops.greater value maximum then value else maximum)
  let total ← loop 0 count 0 fun index total => do
    let value := expf ops (ops.sub (← readBits .input index) maximum)
    writeBits index value
    pure (ops.add total value)
  loop 0 count () fun index _ => do
    writeBits index (ops.div (← readBits .output index) total)

/-- The KV head of a query head, by the group that `gqa_attention` divides by. -/
def kvHeadOf (queryHeads kvHeads queryHead : Nat) : Nat :=
  let group := unsignedDivide (UInt64.ofNat queryHeads) (UInt64.ofNat kvHeads)
  (unsignedDivide (UInt64.ofNat queryHead) group).toNat

/-- `base + (position * kv_heads + kv_head) * head_dim + element` -/
def kvIndex (base kvHeads headDim kvHead position element : Nat) : Exec ε Nat := do
  let head ← indexAdd (← indexMul position kvHeads) kvHead
  indexAdd (← indexAdd base (← indexMul head headDim)) element

/-- The scores of a query head, and their maximum. -/
def gqaScores (keysBase kvHeads positions headDim queryHead kvHead scoreBase : Nat) :
    Exec ε Word := do
  let scale := ops.div 0x3f800000 (ops.sqrt (ops.fromU32 (UInt32.ofNat headDim)))
  loop 0 positions 0xff800000 fun position maximum => do
    let dot ← loop 0 headDim 0 fun element dot => do
      let key ← kvIndex keysBase kvHeads headDim kvHead position element
      let query ← readBits .input (← indexAdd (← indexMul queryHead headDim) element)
      pure (ops.add dot (ops.mul query (← readBits .input key)))
    let score := ops.mul dot scale
    writeBits (← indexAdd scoreBase position) score
    pure (if ops.greater score maximum then score else maximum)

/-- The probabilities of the scores, divided by their sum. -/
def gqaProbabilities (positions probabilityBase scoreBase : Nat) (maximum : Word) :
    Exec ε Unit := do
  let sum ← loop 0 positions 0 fun position sum => do
    let score ← readBits .output (← indexAdd scoreBase position)
    let probability := expf ops (ops.sub score maximum)
    writeBits (← indexAdd probabilityBase position) probability
    pure (ops.add sum probability)
  loop 0 positions () fun position _ => do
    let word ← indexAdd probabilityBase position
    let probability ← readBits .output (← indexAdd probabilityBase position)
    writeBits word (ops.div probability sum)

/-- The result of a head: its values weighed with the probabilities. -/
def gqaResult (valuesBase kvHeads positions headDim kvHead probabilityBase resultBase : Nat) :
    Exec ε Unit :=
  loop 0 headDim () fun element _ => do
    let total ← loop 0 positions 0 fun position total => do
      let value ← kvIndex valuesBase kvHeads headDim kvHead position element
      let probability ← readBits .output (← indexAdd probabilityBase position)
      pure (ops.add total (ops.mul probability (← readBits .input value)))
    writeBits (← indexAdd resultBase element) total

def gqaAttention (queryHeads kvHeads positions headDim : Nat) : Exec ε Unit := do
  let keysBase ← indexMul queryHeads headDim
  let kvWords ← indexMul (← indexMul positions kvHeads) headDim
  let valuesBase ← indexAdd keysBase kvWords
  let perHead ← indexAdd headDim (← indexMul positions 2)
  loop 0 queryHeads () fun queryHead _ => do
    let kvHead := kvHeadOf queryHeads kvHeads queryHead
    let resultBase ← indexMul queryHead perHead
    let probabilityBase ← indexAdd resultBase headDim
    let scoreBase ← indexAdd probabilityBase positions
    let maximum ←
      gqaScores ops keysBase kvHeads positions headDim queryHead kvHead scoreBase
    gqaProbabilities ops positions probabilityBase scoreBase maximum
    gqaResult ops valuesBase kvHeads positions headDim kvHead probabilityBase resultBase

def siluSwiglu (count : Nat) : Exec ε Unit :=
  loop 0 count () fun index _ => do
    let x ← readBits .input index
    let exponent := expf ops (x ^^^ 0x80000000)
    let sigmoid := ops.div 0x3f800000 (ops.add 0x3f800000 exponent)
    let silu := ops.mul x sigmoid
    writeBits index (ops.mul silu (← readBits .aux index))
    writeBits (← indexAdd count index) silu

/-- `argmax`, the word selected so far and its value. -/
def argmax (count : Nat) : Exec ε Unit := do
  let first ← readBits .input 0
  let (selected, _) ← loop 1 count (0, first) fun index (selected, best) => do
    let value ← readBits .input index
    pure (if ops.greater value best then (index, value) else (selected, best))
  writeBits 0 (UInt32.ofNat selected)

end Kernels

section Execute

variable (ops : Sse2Ops) {ε : Type}

/-- The words of the input that are checked. -/
def checkedInputWords (operation : UInt32) (dim0 dim1 dim2 dim3 : Nat) : Exec ε Nat :=
  if operation = 1 then
    indexMul dim0 3
  else if operation = 2 ∨ operation = 3 then
    pure 0
  else if operation = 4 ∨ operation = 6 ∨ operation = 8 ∨ operation = 9 then
    pure dim0
  else if operation = 5 then
    indexMul dim0 dim1
  else if operation = 7 then do
    let queries ← indexMul dim0 dim3
    indexAdd queries (← indexMul (← indexMul (← indexMul dim2 dim1) dim3) 2)
  else
    pure 0

/-- The words of the auxiliary data that are checked. -/
def checkedAuxWords (operation : UInt32) (dim0 dim1 : Nat) : Nat :=
  if operation = 2 ∨ operation = 3 then dim1
  else if operation = 4 ∨ operation = 8 then dim0
  else 0

/-- The kernel of an operation, and the words of its output; an error is what `execute` returns
from here. -/
def runKernel (operation : UInt32) (dim0 dim1 dim2 dim3 position : Nat) : Exec Outcome Nat :=
  if operation = 1 then do
    biasResidual ops dim0
    pure dim0
  else if operation = 2 ∨ operation = 3 then do
    (quantized ops dim0 dim1 (operation = 2)).mapError (⟨.blockEncoding, ·⟩)
    indexAdd (← indexAdd (← indexMul dim0 dim1) 1) dim0
  else if operation = 4 then do
    rmsnorm ops dim0
    pure dim0
  else if operation = 5 then do
    rope ops dim0 dim1 position
    indexMul dim0 dim1
  else if operation = 6 then do
    softmax ops dim0
    pure dim0
  else if operation = 7 then do
    gqaAttention ops dim0 dim1 dim2 dim3
    indexMul dim0 (← indexAdd dim3 (← indexMul dim2 2))
  else if operation = 8 then do
    siluSwiglu ops dim0
    indexMul dim0 2
  else if operation = 9 then do
    argmax ops dim0
    -- the result is an index, so it is not checked
    fail ⟨.ok, 0⟩
  else
    fail ⟨.unsupportedOperation, 0⟩

/-- `execute`, by its early returns. -/
def executeUntil (operation : UInt32) (dim0 dim1 dim2 dim3 position : Nat) :
    Exec Outcome Outcome := do
  let inputWords ← checkedInputWords operation dim0 dim1 dim2 dim3
  (if inputWords ≠ 0 then (checkFinite .input inputWords).mapError (⟨.nonfiniteInput, ·⟩)
    else pure ())
  let auxWords := checkedAuxWords operation dim0 dim1
  (if auxWords ≠ 0 then (checkFinite .aux auxWords).mapError (⟨.nonfiniteInput, ·⟩)
    else pure ())
  let outputWords ← runKernel ops operation dim0 dim1 dim2 dim3 position
  (checkFinite .output outputWords).mapError (⟨.nonfiniteOutput, ·⟩)
  pure ⟨.ok, 0⟩

/-- What `execute` returns for a request, and its accesses in order. -/
def execute (r : PrimitiveRequest) (m : Memories) : Outcome × List Access :=
  match executeUntil ops r.operation r.dim0.toNat r.dim1.toNat r.dim2.toNat r.dim3.toNat
      r.position.toNat ⟨m, []⟩ with
  | (.ok outcome, s) => (outcome, s.accesses)
  | (.error outcome, s) => (outcome, s.accesses)

end Execute

end Promptboot.Primitive
