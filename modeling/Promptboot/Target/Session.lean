import Mathlib.Data.BitVec
import Mathlib.Data.List.FinRange
import Promptboot.Engine.Types
import Promptboot.Lib.Fallible

/-!
# The target session

`execute` and `Session::cleanup` (`model_target.rs`) with the transitions they use of
`model_contract.rs`: opening the model file, acquiring the six page regions, and releasing what was
acquired. The firmware is what it answers to each call. The computation between the last grant and
the end makes no call that concerns the session's regions, so only its outcome is kept of it; what
the processors' adapter allocates on the way is.

`acquire` and `release` are one region, `runTarget` is `execute` with the `cleanup` behind it. The
mask of what is held is recomputed from the session, as the source does it, and `nextCleanupBit_set`
says which bit the walk takes next.
-/

namespace Promptboot

/-- `model_contract::Mode` -/
inductive TargetMode where
  | loadOnly
  | firstToken
  | identity
  | repl
  deriving DecidableEq

/-- What `Failure::contract` keeps of an `ErrorTuple`. -/
structure TargetFailure where
  code : String
  phase : String
  efi : Option Nat
  region : Option String

namespace TargetFailure

def simple (code phase : String) : TargetFailure := ⟨code, phase, none, none⟩

def efiStatus (code phase : String) (status : Nat) : TargetFailure := ⟨code, phase, some status, none⟩

end TargetFailure

def efiSuccess : Nat := 0

def efiOutOfResources : Nat := 0x8000000000000009

def efiNotFound : Nat := 0x800000000000000e

/-- An interface that a call hands out, or not: `callable` is `device_present` or `open_volume`. -/
structure InterfaceReply where
  status : Nat
  present : Bool
  revision : Nat
  callable : Bool

/-- A file protocol that a call hands out, or not. -/
structure FileReply where
  status : Nat
  present : Bool
  revision : Nat
  opens : Bool
  closes : Bool
  reads : Bool

def loadedTransition (reply : InterfaceReply) : Option TargetFailure :=
  if reply.status ≠ efiSuccess then
    some (.efiStatus "MODEL_LOADED_IMAGE" "loaded_image" reply.status)
  else if !reply.present ∨ reply.revision < 0x1000 ∨ !reply.callable then
    some (.simple "MODEL_LOADED_IMAGE" "loaded_image")
  else
    none

def simpleTransition (reply : InterfaceReply) : Option TargetFailure :=
  if reply.status ≠ efiSuccess then
    some (.efiStatus "MODEL_SIMPLE_FS" "simple_fs" reply.status)
  else if !reply.present ∨ reply.revision < 0x10000 ∨ !reply.callable then
    some (.simple "MODEL_SIMPLE_FS" "simple_fs")
  else
    none

def volumeTransition (reply : FileReply) : Option TargetFailure :=
  if reply.status ≠ efiSuccess then
    some (.efiStatus "MODEL_OPEN_VOLUME" "open_volume" reply.status)
  else if !reply.present then
    some (.simple "MODEL_OPEN_VOLUME" "open_volume")
  else
    none

def fileOpenTransition (reply : FileReply) : Option TargetFailure :=
  if reply.status ≠ efiSuccess then
    some (.efiStatus (if reply.status = efiNotFound then "MODEL_MISSING" else "MODEL_OPEN") "open"
      reply.status)
  else if !reply.present then
    some (.simple "MODEL_OPEN" "open")
  else
    none

def fileAbiTransition (root : Bool) (reply : FileReply) : Option TargetFailure :=
  if reply.revision ≥ 0x10000 ∧ reply.opens ∧ reply.closes ∧ reply.reads then
    none
  else
    some (.simple "MODEL_FILE_ABI" (if root then "root_abi" else "file_abi"))

structure RegionSpec where
  name : String
  pages : Nat
  active : Nat
  guard : Nat

def indexBytes : Nat := 4195328

/-- `REGIONS` -/
def regions : Fin 6 → RegionSpec
  | 0 => ⟨"weights", 104191, modelBytes, 3392⟩
  | 1 => ⟨"index", 1025, indexBytes, 3072⟩
  | 2 => ⟨"kv", (kvBytes + 4095) / 4096, kvBytes, 0⟩
  | 3 => ⟨"scratch", (scratchBytes + 4095) / 4096, scratchBytes, 0⟩
  | 4 => ⟨"logits", 149, logitWords * 4, 2560⟩
  | 5 => ⟨"prompt", 1, 2048, 2048⟩

/-- `repl_contract::SESSION_BYTES` -/
def sessionBytes : Nat := contextLimit * 2 * 4 + 1024 * 48 + (logitWords + 7) / 8

instance regionsNeZero : NeZero 6 := ⟨by decide⟩

def regionSpec (index : Fin 6) (mode : TargetMode) : RegionSpec :=
  if index = 5 ∧ mode = .repl then
    ⟨"prompt", (sessionBytes + 4095) / 4096, sessionBytes, 0⟩
  else
    regions index

/-- Pages at an address. -/
structure PageRange where
  address : Nat
  pages : Nat

inductive PageCall where
  | granted (range : PageRange)
  | freed (range : PageRange)

/-- `Session`, its handles reduced to whether they are null, and the page calls made so far. -/
structure TargetSession where
  loadedOpen : Bool
  simpleOpen : Bool
  root : Bool
  file : Bool
  rootCloseValid : Bool
  fileCloseValid : Bool
  addresses : Fin 6 → Nat
  calls : List PageCall

/-- What `AllocatePages` answers. -/
structure Grant where
  status : Nat
  address : Nat

/-- What the firmware and the computation answer in one run. Page 0 is never granted. -/
structure Firmware where
  loadedImage : InterfaceReply
  simpleFs : InterfaceReply
  root : FileReply
  file : FileReply
  started : Bool
  grant : Fin 6 → Grant
  grant_ne_zero : ∀ index, (grant index).status = efiSuccess → (grant index).address ≠ 0
  emitted : Fin 6 → Bool
  /-- from the first read to the record of the arenas -/
  load : Except TargetFailure Unit
  closeFile : Nat
  closeRoot : Nat
  closeSimple : Nat
  closeLoaded : Nat
  /-- what `MpInferenceAdapter::prepare` has allocated, if anything -/
  adapter : Option PageRange
  /-- the rest of `model_repl::run` -/
  session : Except TargetFailure Unit
  /-- the rest of the other modes -/
  ending : Except TargetFailure Unit
  /-- the statuses of the calls of `cleanup`, by bit -/
  cleanup : Nat → Nat

namespace TargetSession

abbrev Target := Fallible TargetSession TargetFailure

/-- `Session::new` -/
def new : TargetSession where
  loadedOpen := false
  simpleOpen := false
  root := false
  file := false
  rootCloseValid := false
  fileCloseValid := false
  addresses _ := 0
  calls := []

/-- Stops with what a transition found. -/
def check (found : Option TargetFailure) : Target Unit :=
  match found with
  | none => pure ()
  | some failure => .fail failure

/-- `emit_built` and `emit_checked` -/
def emit (emitted : Bool) : Target Unit :=
  if emitted then pure () else .fail (.simple "MODEL_RECORD" "record")

/-- `execute` up to the allocations. -/
def openModel (fw : Firmware) : Target Unit := do
  .modify fun s => { s with loadedOpen := fw.loadedImage.status = efiSuccess }
  check (loadedTransition fw.loadedImage)
  .modify fun s => { s with simpleOpen := fw.simpleFs.status = efiSuccess }
  check (simpleTransition fw.simpleFs)
  .modify fun s => { s with root := fw.root.present }
  check (volumeTransition fw.root)
  .modify fun s => { s with rootCloseValid := fw.root.closes }
  check (fileAbiTransition true fw.root)
  .modify fun s => { s with file := fw.file.present }
  check (fileOpenTransition fw.file)
  .modify fun s => { s with fileCloseValid := fw.file.closes }
  check (fileAbiTransition false fw.file)
  emit fw.started

/-- `MODEL_OOM` of a region. -/
def allocationFailure (index : Fin 6) (status : Nat) : TargetFailure :=
  ⟨"MODEL_OOM", "allocate", some status, some (regions index).name⟩

/-- `AllocatePages`: a failed call leaves the address alone. -/
def allocatePages (grant : Grant) (index : Fin 6) (pages : Nat) (s : TargetSession) :
    TargetSession :=
  if grant.status = efiSuccess then
    { s with
      addresses := Function.update s.addresses index grant.address
      calls := s.calls ++ [.granted ⟨grant.address, pages⟩] }
  else
    s

/-- One turn of the allocation loop. -/
def acquire (fw : Firmware) (mode : TargetMode) (index : Fin 6) : Target Unit := do
  .modify (allocatePages (fw.grant index) index (regionSpec index mode).pages)
  check (if (fw.grant index).status ≠ efiSuccess then
    some (allocationFailure index (fw.grant index).status) else none)
  .lift fun s => if s.addresses index = 0 ∨ s.addresses index &&& 63 ≠ 0 then
    .error (allocationFailure index efiOutOfResources) else .ok ()
  emit (fw.emitted index)

/-- `ensure_nonoverlap` for two regions. -/
def nonoverlap (addresses : Fin 6 → Nat) (left right : Fin 6) : Except TargetFailure Unit :=
  let leftEnd := addresses left + (regions left).pages * 4096
  let rightEnd := addresses right + (regions right).pages * 4096
  if leftEnd ≥ 2 ^ 64 ∨ rightEnd ≥ 2 ^ 64 then
    .error (.simple "MODEL_OOM" "allocate")
  else if addresses left < rightEnd ∧ addresses right < leftEnd then
    .error (allocationFailure right efiOutOfResources)
  else
    .ok ()

def ensureNonoverlap : Target Unit :=
  (List.finRange 6).forM fun left =>
    ((List.finRange 6).filter fun right => left < right).forM fun right =>
      .lift fun s => nonoverlap s.addresses left right

/-- `close_storage`: a resource that is closed is no longer the session's. -/
def closeStorage (fw : Firmware) : Target Unit := do
  .lift fun s => if s.file ∧ !s.fileCloseValid then
    .error (.simple "MODEL_FILE_ABI" "close") else .ok ()
  .lift fun s => if s.file ∧ fw.closeFile ≠ efiSuccess then
    .error (.efiStatus "MODEL_FILE_CLOSE" "close" fw.closeFile) else .ok ()
  .modify fun s => { s with file := false }
  .lift fun s => if s.root ∧ !s.rootCloseValid then
    .error (.simple "MODEL_ROOT_ABI" "close") else .ok ()
  .lift fun s => if s.root ∧ fw.closeRoot ≠ efiSuccess then
    .error (.efiStatus "MODEL_ROOT_CLOSE" "close" fw.closeRoot) else .ok ()
  .modify fun s => { s with root := false }
  .lift fun s => if s.simpleOpen ∧ fw.closeSimple ≠ efiSuccess then
    .error (.efiStatus "MODEL_SIMPLE_CLOSE" "close" fw.closeSimple) else .ok ()
  .modify fun s => { s with simpleOpen := false }
  .lift fun s => if s.loadedOpen ∧ fw.closeLoaded ≠ efiSuccess then
    .error (.efiStatus "MODEL_LOADED_CLOSE" "close" fw.closeLoaded) else .ok ()
  .modify fun s => { s with loadedOpen := false }

/-- The pages that `MpInferenceAdapter::prepare` takes for its records. -/
def prepareAdapter (range : Option PageRange) (s : TargetSession) : TargetSession :=
  match range with
  | none => s
  | some range => { s with calls := s.calls ++ [.granted range] }

/-- `execute` behind the allocations. -/
def compute (fw : Firmware) (mode : TargetMode) : Target Unit := do
  ensureNonoverlap
  .lift fun _ => fw.load
  if mode = .repl then
    closeStorage fw
    .modify (prepareAdapter fw.adapter)
    .lift fun _ => fw.session
  else
    .lift fun _ => fw.ending

def execute (fw : Firmware) (mode : TargetMode) : Target Unit := do
  openModel fw
  (List.finRange 6).forM (acquire fw mode)
  compute fw mode

/-- `model_contract::acquired_mask` -/
def acquiredMask (s : TargetSession) : BitVec 32 :=
  let mask := 0#32
  let mask := if s.file then mask ||| 1#32 <<< 0 else mask
  let mask := if s.root then mask ||| 1#32 <<< 1 else mask
  let mask := if s.simpleOpen then mask ||| 1#32 <<< 2 else mask
  let mask := if s.loadedOpen then mask ||| 1#32 <<< 3 else mask
  (List.finRange 6).foldl
    (fun mask index => if s.addresses index ≠ 0 then mask ||| 1#32 <<< (9 - index.val) else mask)
    mask

/-- `next_cleanup_bit` -/
def nextCleanupBit (pending : BitVec 32) : Option Nat :=
  (List.range 10).find? fun bit => pending &&& 1#32 <<< bit != 0

/-- What `cleanup` has found out so far. -/
structure Outcome where
  callable : BitVec 32
  failed : BitVec 32
  first : Option (String × Nat)

/-- The region that a bit of 4 to 9 stands for. -/
def regionOfBit (bit : Nat) : Fin 6 := Fin.ofNat 6 (9 - bit)

/-- The release behind one bit: whether there was one, its status and its region. -/
def release (fw : Firmware) (bit : Nat) (s : TargetSession) : (Bool × Nat × String) × TargetSession :=
  if bit = 0 then
    ((s.fileCloseValid, if s.fileCloseValid then fw.cleanup 0 else efiSuccess, "none"),
      { s with file := false })
  else if bit = 1 then
    ((s.rootCloseValid, if s.rootCloseValid then fw.cleanup 1 else efiSuccess, "none"),
      { s with root := false })
  else if bit = 2 then
    ((true, fw.cleanup 2, "none"), { s with simpleOpen := false })
  else if bit = 3 then
    ((true, fw.cleanup 3, "none"), { s with loadedOpen := false })
  else
    let index := regionOfBit bit
    ((true, fw.cleanup bit, (regions index).name),
      { s with
        addresses := Function.update s.addresses index 0
        calls := s.calls ++ [.freed ⟨s.addresses index, (regions index).pages⟩] })

def Outcome.note (o : Outcome) (bit : Nat) (released : Bool × Nat × String) : Outcome :=
  if !released.1 then
    { o with callable := o.callable &&& ~~~(1#32 <<< bit) }
  else if released.2.1 ≠ efiSuccess then
    { o with
      failed := o.failed ||| 1#32 <<< bit
      first := o.first.or (some (released.2.2, released.2.1)) }
  else
    o

/-- Clearing a bit that is set makes the mask smaller. -/
lemma toNat_clear_lt {pending : BitVec 32} {bit : Nat} (set : pending &&& 1#32 <<< bit ≠ 0) :
    (pending &&& ~~~(1#32 <<< bit)).toNat < pending.toNat := by
  have split : (pending &&& ~~~(1#32 <<< bit)) ||| (pending &&& 1#32 <<< bit) = pending := by
    ext i
    simp only [BitVec.getElem_or, BitVec.getElem_and, BitVec.getElem_not]
    cases pending[i] <;> cases (1#32 <<< bit)[i] <;> rfl
  apply lt_of_le_of_ne
  · rw [BitVec.toNat_and]
    exact Nat.and_le_left
  · intro same
    apply set
    have clear := BitVec.eq_of_toNat_eq same
    rw [← clear, BitVec.and_assoc]
    simp

/-- The next bit is set. -/
lemma nextCleanupBit_set {pending : BitVec 32} {bit : Nat}
    (h : nextCleanupBit pending = some bit) : pending &&& 1#32 <<< bit ≠ 0 := by
  have found := List.find?_some h
  simpa using found

/-- The loop of `cleanup`. -/
def releaseAll (fw : Firmware) (pending : BitVec 32) (o : Outcome) (s : TargetSession) :
    Outcome × TargetSession :=
  match h : nextCleanupBit pending with
  | none => (o, s)
  | some bit =>
    let released := release fw bit s
    releaseAll fw (pending &&& ~~~(1#32 <<< bit)) (o.note bit released.1) released.2
termination_by pending.toNat
decreasing_by exact toNat_clear_lt (nextCleanupBit_set h)

/-- The masks of attempted and successful releases, the first failure, and the session left. -/
def cleanup (fw : Firmware) (s : TargetSession) :
    (BitVec 32 × BitVec 32 × Option (String × Nat)) × TargetSession :=
  let attempted := s.acquiredMask
  let (o, s) := releaseAll fw attempted ⟨attempted, 0, none⟩ s
  ((attempted, attempted &&& o.callable &&& ~~~o.failed, o.first), s)

/-- The page calls of `execute` and the `cleanup` behind it. -/
def runTarget (fw : Firmware) (mode : TargetMode) : List PageCall :=
  (cleanup fw (execute fw mode new).2).2.calls

end TargetSession

end Promptboot
