import Promptboot.Primitive.Request

/-!
# The primitive entry

`runPrimitive` reads the request record, checks its ranges, its shape and its alignment in the
order of the source, stages the output in the arena and copies it when the kernel succeeds. A
kernel is a parameter: a function that writes inside its stage only. A pointer is 64 bits wide, as
`usize` is, so that the conversions between the two never fail.

`Failure.fields` are the words of the record that a refusal leaves, in the order of the source's
stores, and `failureSafe` the condition for leaving them at all. `runPrimitive` never stops before
it has looked at the record's own range.
-/

namespace Promptboot.Primitive
open Memory

/-- The fields of the record at `base`, stored in order, each with its offset. -/
def storeFields (m : Nat → UInt8) (base : Nat) (fields : List (Nat × UInt32)) : Nat → UInt8 :=
  fields.foldl (fun m field => putU32 m (base + field.1) field.2) m

/-- A 64-bit field is two words. -/
def long (offset value : Nat) : List (Nat × UInt32) :=
  [(offset, UInt32.ofNat value), (offset + 4, UInt32.ofNat (value / 2 ^ 32))]

def u64At (m : Nat → UInt8) (a : Nat) : Nat :=
  (u32At m a).toNat + (u32At m (a + 4)).toNat * 2 ^ 32

/-- `ptr::read(request)`. -/
def readRequest (m : Nat → UInt8) (request : Nat) : PrimitiveRequest where
  abiVersion := u32At m request
  operation := u32At m (request + 4)
  input := u64At m (request + 8)
  inputBytes := u64At m (request + 16)
  aux := u64At m (request + 24)
  auxBytes := u64At m (request + 32)
  output := u64At m (request + 40)
  outputCapacityWords := u64At m (request + 48)
  scratch := u64At m (request + 56)
  scratchBytes := u64At m (request + 64)
  dim0 := u32At m (request + 72)
  dim1 := u32At m (request + 76)
  dim2 := u32At m (request + 80)
  dim3 := u32At m (request + 84)
  position := u32At m (request + 88)
  flags := u32At m (request + 92)

def requestSize : Nat := 96
def resultSize : Nat := 80

/-- The five counters of the arena in the result record. -/
def usageFields (usage : ArenaUsage) : List (Nat × UInt32) :=
  long 40 usage.capacity ++ long 48 usage.requested ++ long 56 usage.committed ++
    long 64 usage.current ++ long 72 usage.highWater

def failureSafe : List (Nat × UInt32) :=
  [(0, PrimitiveStatus.state.code), (4, 0), (8, 0), (12, ArenaKind.none.code), (16, 0), (20, 0)] ++
    long 24 0 ++ long 32 0 ++ usageFields ⟨0, 0, 0, 0, 0⟩

structure Failure where
  status : PrimitiveStatus
  arena : ArenaKind
  index : UInt32
  needed : Nat
  available : Nat
  usage : Option ArenaUsage

def Failure.ofStatus (status : PrimitiveStatus) : Failure := ⟨status, .none, 0, 0, 0, none⟩

def Failure.fields (self : Failure) (operation : UInt32) : List (Nat × UInt32) :=
  [(0, self.status.code), (4, 0), (8, operation), (12, self.arena.code), (16, self.index)] ++
    long 24 self.needed ++ long 32 self.available ++ (self.usage.map usageFields).getD []

def writeFailure (m : Nat → UInt8) (result : Nat) (operation : UInt32) (failure : Failure) :
    UInt32 × (Nat → UInt8) :=
  (failure.status.code, storeFields m result (failure.fields operation))

/-- Both ranges are there and overlap. -/
def overlapping : Option AddressRange → Option AddressRange → Bool
  | some left, some right => left.overlaps right
  | _, _ => false

/-- The request, read, with the ranges it declares. -/
structure Call where
  request : PrimitiveRequest
  outputBytesDeclared : Nat
  requestRange : AddressRange
  inputRange : Option AddressRange
  auxRange : Option AddressRange
  outputRange : Option AddressRange
  scratchRange : Option AddressRange

/-- What is checked before the result record is written. -/
def checkRanges (m : Nat → UInt8) (request result : Nat) : Except PrimitiveStatus Call := do
  refuse (result = 0) .null
  refuse (result % 8 ≠ 0) .alignment
  let resultRange ← fixedRange result resultSize
  refuse (request = 0) .null
  refuse (request % 8 ≠ 0) .alignment
  let requestRange ← fixedRange request requestSize
  refuse (requestRange.overlaps resultRange) .overlap
  let r := readRequest m request
  let outputBytesDeclared ← checkedMul r.outputCapacityWords 4
  let inputRange ← declaredRange r.input r.inputBytes
  let auxRange ← declaredRange r.aux r.auxBytes
  let outputRange ← declaredRange r.output outputBytesDeclared
  let scratchRange ← declaredRange r.scratch r.scratchBytes
  refuse ([inputRange, auxRange, outputRange, scratchRange].any (overlapping (some resultRange)))
    .overlap
  .ok ⟨r, outputBytesDeclared, requestRange, inputRange, auxRange, outputRange, scratchRange⟩

namespace Call
variable (c : Call)

def forbidden : List (Option AddressRange × Option AddressRange) :=
  [(c.outputRange, c.scratchRange), (c.outputRange, some c.requestRange),
    (c.outputRange, c.inputRange), (c.outputRange, c.auxRange),
    (c.scratchRange, some c.requestRange), (c.scratchRange, c.inputRange),
    (c.scratchRange, c.auxRange)]

def checkForbidden : Except Failure Unit :=
  refuse (c.forbidden.any fun pair => overlapping pair.1 pair.2) (.ofStatus .overlap)

def checkVersion : Except Failure Unit := do
  refuse (c.request.abiVersion != abiVersion || c.request.flags != 0)
    ⟨.state, .none, 0, abiVersion.toNat, c.request.abiVersion.toNat, none⟩
  refuse (c.request.operation == 5 && contextLimit ≤ c.request.position.toNat)
    ⟨.index, .none, c.request.position, contextLimit, c.request.position.toNat, none⟩

def checkSchema : Except Failure Schema := do
  let schema ← (schema c.request).mapError .ofStatus
  refuse (schema.outputWords > 2 ^ 32 - 1)
    ⟨.arithmeticOverflow, .none, 0, schema.outputWords, 2 ^ 32 - 1, none⟩
  .ok schema

/-- `invalid_empty` of each declared range. -/
def checkEmpty : Except Failure Unit :=
  match [invalidEmpty c.request.input c.request.inputBytes,
      invalidEmpty c.request.aux c.request.auxBytes,
      invalidEmpty c.request.output c.outputBytesDeclared,
      invalidEmpty c.request.scratch c.request.scratchBytes].findSome? id with
  | some status => .error (.ofStatus status)
  | none => .ok ()

def checkLengths (schema : Schema) : Except Failure Unit := do
  let r := c.request
  let outputBytes := schema.outputWords * 4
  refuse (r.inputBytes ≠ schema.inputBytes)
    ⟨.length, .none, 0, schema.inputBytes, r.inputBytes, none⟩
  refuse (r.auxBytes ≠ schema.auxBytes) ⟨.length, .none, 0, schema.auxBytes, r.auxBytes, none⟩
  refuse (r.output = 0) ⟨.length, .none, 0, schema.outputWords, 0, none⟩
  refuse (r.outputCapacityWords < schema.outputWords)
    ⟨.length, .none, 0, schema.outputWords, r.outputCapacityWords, none⟩
  refuse (r.scratch = 0) ⟨.arenaCapacity, .primitiveScratch, 0, outputBytes, 0, none⟩
  refuse (r.scratchBytes < outputBytes)
    ⟨.arenaCapacity, .primitiveScratch, 0, outputBytes, r.scratchBytes, none⟩

def checkAlignment (schema : Schema) : Except Failure Unit := do
  let r := c.request
  refuse (schema.inputF32 && r.input % 4 ≠ 0) ⟨.alignment, .none, 0, 4, 0, none⟩
  refuse (schema.auxF32 && r.aux % 4 ≠ 0) ⟨.alignment, .none, 0, 4, 0, none⟩
  refuse (r.output % 4 ≠ 0) ⟨.alignment, .none, 0, 4, 0, none⟩
  refuse (r.scratch % 64 ≠ 0) ⟨.alignment, .primitiveScratch, 0, 64, 0, none⟩

/-- An arena's error in the result record. -/
def arenaFailure (usage : Option ArenaUsage) (error : ArenaError) : Failure :=
  ⟨error.status, .primitiveScratch, 0, error.neededBytes, error.availableBytes, usage⟩

/-- The stage in the caller's scratch memory, and the counters of its arena. -/
def openStage (outputBytes : Nat) : Except Failure (Nat × ArenaUsage) := do
  let arena ← (Arena.new c.request.scratch c.request.scratchBytes).mapError (arenaFailure none)
  let (region, arena) ← (arena.allocate outputBytes 64).mapError (arenaFailure arena.usage)
  let arena ← arena.sealUp.mapError (arenaFailure arena.usage)
  let stage ← (arena.regionMut region).mapError (arenaFailure arena.usage)
  .ok (stage, arena.usage)

/-- What is checked once failures are reported in the result record. -/
def prepare : Except Failure (Schema × Nat × ArenaUsage) := do
  c.checkForbidden
  c.checkVersion
  let schema ← c.checkSchema
  c.checkEmpty
  c.checkLengths schema
  c.checkAlignment schema
  let (stage, usage) ← c.openStage (schema.outputWords * 4)
  .ok (schema, stage, usage)

end Call

structure Outcome where
  status : PrimitiveStatus
  index : UInt32

/-- The kernels of the nine operations: each writes its output words at the stage and nothing else,
also when it fails half-way. -/
structure Kernel where
  execute (operation : UInt32) (input aux stage : Nat) (dim0 dim1 dim2 dim3 position : UInt32)
    (m : Nat → UInt8) : Outcome × (Nat → UInt8)
  inside (r : PrimitiveRequest) (s : Schema) (stage : Nat) (m : Nat → UInt8) :
    schema r = .ok s →
      SameOutside stage (stage + s.outputWords * 4) m
        (execute r.operation r.input r.aux stage r.dim0 r.dim1 r.dim2 r.dim3 r.position m).2

/-- A kernel that knows no operation. -/
instance : Inhabited Kernel :=
  ⟨⟨fun _ _ _ _ _ _ _ _ _ m => (⟨.unsupportedOperation, 0⟩, m), fun _ _ _ _ _ => .refl⟩⟩

/-- `ptr::copy_nonoverlapping`. -/
def copyBytes (m : Nat → UInt8) (source target bytes : Nat) : Nat → UInt8 := fun a =>
  if target ≤ a ∧ a < target + bytes then m (source + (a - target)) else m a

/-- The status the call returns, and the memory it leaves. -/
def runPrimitive (kernel : Kernel) (m : Nat → UInt8) (request result : Nat) :
    UInt32 × (Nat → UInt8) :=
  match checkRanges m request result with
  | .error status => (status.code, m)
  | .ok c =>
    let r := c.request
    let m := storeFields m result failureSafe
    match c.prepare with
    | .error failure => writeFailure m result r.operation failure
    | .ok (schema, stage, usage) =>
      let (outcome, m) :=
        kernel.execute r.operation r.input r.aux stage r.dim0 r.dim1 r.dim2 r.dim3 r.position m
      if outcome.status ≠ .ok then
        writeFailure m result r.operation
          ⟨outcome.status, .primitiveScratch, outcome.index, 0, 0, some usage⟩
      else
        let m := copyBytes m stage r.output (schema.outputWords * 4)
        (PrimitiveStatus.ok.code, storeFields m result
          (usageFields usage ++
            [(4, UInt32.ofNat schema.outputWords), (0, PrimitiveStatus.ok.code)]))

end Promptboot.Primitive
