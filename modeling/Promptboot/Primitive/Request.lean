import Promptboot.Lib.Words

/-!
# Primitive requests

The records of the primitive interface, the schema of each of the nine operations, and the arena
that is cut out of the caller's scratch memory. Pointers and lengths are 64-bit numbers.

The checks are in the order of the source, because the order decides which status a request with two
faults gets. `schema` is the table of the operations, with a row for each of the five shapes.
-/

namespace Promptboot.Primitive

inductive PrimitiveStatus where
  | ok | null | alignment | length | overlap | arithmeticOverflow | arenaCapacity | arenaSealed
  | blockEncoding | dimension | index | state | nonfiniteInput | nonfiniteOutput
  | unsupportedOperation
  deriving DecidableEq

/-- `status as u32` -/
def PrimitiveStatus.code : PrimitiveStatus → UInt32
  | ok => 0
  | null => 1
  | alignment => 2
  | length => 3
  | overlap => 4
  | arithmeticOverflow => 5
  | arenaCapacity => 6
  | arenaSealed => 7
  | blockEncoding => 8
  | dimension => 9
  | index => 10
  | state => 11
  | nonfiniteInput => 12
  | nonfiniteOutput => 13
  | unsupportedOperation => 14

inductive ArenaKind where
  | none | primitiveScratch

def ArenaKind.code : ArenaKind → UInt32
  | none => 0
  | primitiveScratch => 1

def abiVersion : UInt32 := 1
def contextLimit : Nat := 32768

structure PrimitiveRequest where
  abiVersion : UInt32
  operation : UInt32
  input : Nat
  inputBytes : Nat
  aux : Nat
  auxBytes : Nat
  output : Nat
  outputCapacityWords : Nat
  scratch : Nat
  scratchBytes : Nat
  dim0 : UInt32
  dim1 : UInt32
  dim2 : UInt32
  dim3 : UInt32
  position : UInt32
  flags : UInt32

structure Schema where
  inputBytes : Nat
  auxBytes : Nat
  outputWords : Nat
  inputF32 : Bool
  auxF32 : Bool

def refuse {ε : Type} (condition : Bool) (error : ε) : Except ε Unit :=
  if condition then .error error else .ok ()

def checkedMul (left right : Nat) : Except PrimitiveStatus Nat :=
  if left * right < 2 ^ 64 then .ok (left * right) else .error .arithmeticOverflow

def checkedAdd (left right : Nat) : Except PrimitiveStatus Nat :=
  if left + right < 2 ^ 64 then .ok (left + right) else .error .arithmeticOverflow

def f32Bytes (words : Nat) : Except PrimitiveStatus Nat := checkedMul words 4

/-- The bitwise remainder, highest bit first. -/
def isDivisible (numerator denominator : UInt64) : Bool :=
  (List.range 64).reverse.foldl (fun (remainder : UInt64) bit =>
    let remainder := remainder <<< 1 ||| (numerator >>> UInt64.ofNat bit) &&& 1
    if remainder ≥ denominator then remainder - denominator else remainder) 0 == 0

def unusedZero (values : List UInt32) : Bool := values.all (· == 0)

/-- Operations of one dimension: so many times its words in each input, and the words of the
output. -/
def vectorSchema (request : PrimitiveRequest) (inputFactor auxFactor : Nat)
    (outputWords : Nat → Except PrimitiveStatus Nat) (auxF32 : Bool) :
    Except PrimitiveStatus Schema :=
  let d0 := request.dim0.toNat
  if d0 = 0 || !unusedZero [request.dim1, request.dim2, request.dim3, request.position] then
    .error .dimension
  else do
    let inputBytes ← f32Bytes (← checkedMul d0 inputFactor)
    let auxBytes ← f32Bytes (← checkedMul d0 auxFactor)
    let outputWords ← outputWords d0
    .ok ⟨inputBytes, auxBytes, outputWords, true, auxF32⟩

/-- The two quantized products. -/
def quantizedSchema (request : PrimitiveRequest) (blockBytes : Nat) :
    Except PrimitiveStatus Schema :=
  let d0 := request.dim0.toNat
  let d1 := request.dim1.toNat
  if d0 = 0 || d1 = 0 || d1 % 32 ≠ 0 ||
      !unusedZero [request.dim2, request.dim3, request.position] then
    .error .dimension
  else do
    let blocks ← checkedMul d0 (d1 / 32)
    let dequant ← checkedMul d0 d1
    let inputBytes ← checkedMul blocks blockBytes
    let auxBytes ← f32Bytes d1
    let outputWords ← checkedAdd (← checkedAdd dequant 1) d0
    .ok ⟨inputBytes, auxBytes, outputWords, false, true⟩

def ropeSchema (request : PrimitiveRequest) : Except PrimitiveStatus Schema :=
  let d0 := request.dim0.toNat
  let d1 := request.dim1.toNat
  if !(d0 = 4 || d0 = 64) || d1 = 0 || request.position.toNat ≥ contextLimit ||
      !unusedZero [request.dim2, request.dim3] then
    .error .dimension
  else do
    let words ← checkedMul d0 d1
    let inputBytes ← f32Bytes words
    .ok ⟨inputBytes, 0, words, true, false⟩

def attentionSchema (request : PrimitiveRequest) : Except PrimitiveStatus Schema :=
  let d0 := request.dim0.toNat
  let d1 := request.dim1.toNat
  let d2 := request.dim2.toNat
  let d3 := request.dim3.toNat
  if d0 = 0 || d1 = 0 || !isDivisible request.dim0.toUInt64 request.dim1.toUInt64 ||
      !(d3 = 2 || d3 = 64) || d2 = 0 || d2 > contextLimit || request.position ≠ 0 then
    .error .dimension
  else do
    let queries ← checkedMul d0 d3
    let kvWords ← checkedMul (← checkedMul d2 d1) d3
    let inputWords ← checkedAdd queries (← checkedMul kvWords 2)
    let perHead ← checkedAdd d3 (← checkedMul d2 2)
    let inputBytes ← f32Bytes inputWords
    let outputWords ← checkedMul d0 perHead
    .ok ⟨inputBytes, 0, outputWords, true, false⟩

/-- `schema`. -/
def schema (request : PrimitiveRequest) : Except PrimitiveStatus Schema :=
  if request.operation = 1 then vectorSchema request 3 0 .ok false
  else if request.operation = 2 then quantizedSchema request 18
  else if request.operation = 3 then quantizedSchema request 34
  else if request.operation = 4 then vectorSchema request 1 1 .ok true
  else if request.operation = 5 then ropeSchema request
  else if request.operation = 6 then vectorSchema request 1 0 .ok false
  else if request.operation = 7 then attentionSchema request
  else if request.operation = 8 then vectorSchema request 1 1 (checkedMul · 2) true
  else if request.operation = 9 then vectorSchema request 1 0 (fun _ => .ok 1) false
  else .error .unsupportedOperation

structure AddressRange where
  start : Nat
  stop : Nat

def AddressRange.overlaps (self other : AddressRange) : Bool :=
  self.start < other.stop && other.start < self.stop

def fixedRange (address bytes : Nat) : Except PrimitiveStatus AddressRange :=
  if address + bytes < 2 ^ 64 then .ok ⟨address, address + bytes⟩ else .error .arithmeticOverflow

def declaredRange (pointer bytes : Nat) : Except PrimitiveStatus (Option AddressRange) :=
  if pointer = 0 ∨ bytes = 0 then .ok none
  else (fixedRange pointer bytes).map some

def invalidEmpty (pointer bytes : Nat) : Option PrimitiveStatus :=
  if pointer = 0 ∧ bytes ≠ 0 then some .null
  else if pointer ≠ 0 ∧ bytes = 0 then some .length
  else none

structure ArenaUsage where
  capacity : Nat
  requested : Nat
  committed : Nat
  current : Nat
  highWater : Nat

structure ArenaError where
  status : PrimitiveStatus
  neededBytes : Nat
  availableBytes : Nat

structure Region where
  offset : Nat
  length : Nat

/-- The arena, its storage by address and length. -/
structure Arena where
  storage : Nat
  storageLength : Nat
  requested : Nat
  committed : Nat
  current : Nat
  highWater : Nat
  isSealed : Bool

namespace Arena

def new (storage storageLength : Nat) : Except ArenaError Arena :=
  if storageLength = 0 then .error ⟨.arenaCapacity, 1, 0⟩
  else if storage % 64 ≠ 0 then .error ⟨.alignment, 64, 0⟩
  else .ok ⟨storage, storageLength, 0, 0, 0, 0, false⟩

/-- `usize::is_power_of_two` -/
def isPowerOfTwo (n : Nat) : Bool := n ≠ 0 && n &&& (n - 1) == 0

/-- `left.checked_add(right)` with the arena's error. -/
def addOr (self : Arena) (bytes left right : Nat) : Except ArenaError Nat :=
  if left + right < 2 ^ 64 then .ok (left + right)
  else .error ⟨.arithmeticOverflow, bytes, self.storageLength⟩

def allocate (self : Arena) (bytes alignment : Nat) : Except ArenaError (Region × Arena) := do
  refuse self.isSealed ⟨.arenaSealed, bytes, self.storageLength⟩
  refuse (bytes = 0) ⟨.length, 1, 0⟩
  refuse (alignment = 0 || !isPowerOfTwo alignment || alignment > 64) ⟨.alignment, alignment, 64⟩
  let mask := alignment - 1
  let raised ← self.addOr bytes self.committed mask
  let offset := raised - raised % alignment
  let stop ← self.addOr bytes offset bytes
  let requested ← self.addOr bytes self.requested bytes
  let current ← self.addOr bytes self.current bytes
  refuse (stop > self.storageLength) ⟨.arenaCapacity, stop, self.storageLength⟩
  .ok (⟨offset, bytes⟩, { self with
    requested, committed := stop, current, highWater := max self.highWater current })

/-- `seal`. -/
def sealUp (self : Arena) : Except ArenaError Arena :=
  if self.isSealed then .error ⟨.state, 0, 0⟩ else .ok { self with isSealed := true }

def usage (self : Arena) : ArenaUsage :=
  ⟨self.storageLength, self.requested, self.committed, self.current, self.highWater⟩

def regionBounds (self : Arena) (region : Region) : Except ArenaError (Nat × Nat) :=
  if region.length = 0 then .error ⟨.length, 1, 0⟩
  else if 2 ^ 64 ≤ region.offset + region.length then
    .error ⟨.arithmeticOverflow, region.length, self.committed⟩
  else if region.offset + region.length > self.committed then
    .error ⟨.length, region.offset + region.length, self.committed⟩
  else .ok (region.offset, region.offset + region.length)

/-- `region_mut`, the address of the slice. -/
def regionMut (self : Arena) (region : Region) : Except ArenaError Nat :=
  if !self.isSealed then .error ⟨.state, 0, 0⟩
  else (self.regionBounds region).map fun bounds => self.storage + bounds.1

end Arena

end Promptboot.Primitive
