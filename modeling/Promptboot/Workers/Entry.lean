import Mathlib.Data.BitVec
import Mathlib.Data.Fintype.Basic
import Mathlib.Logic.Function.Basic

/-!
# Application processors enter

`ap_entry` and `dispatch_token` (`mp_inference.rs`): every application processor takes a slot, says
whether it is ready, waits for the others and decides with them whether the token is computed. As
with the jobs, the code is cut into single accesses to the shared `MpCall`, a program counter holds
the locals, and there are `n + 2` callbacks, since `prepare` declines with fewer than two workers.

`step` is one access of one callback and `dispatchToken` what slot 0 does with the records when all
are back: `inspectMask` and `inspectRecord` are its loops.
-/

namespace Promptboot

/-- What the processors that run the callbacks answer: `cpu_state_ready`, `avx2_capable`,
`inference_worker_entry`, and whether the restored state equals the captured one. -/
structure Processors (n : Nat) where
  ready : Fin (n + 2) → Bool
  avx2 : Fin (n + 2) → Bool
  workerStatus : Fin (n + 2) → Nat
  restored : Fin (n + 2) → Bool

namespace Processors
variable {n : Nat}

def capable (cpus : Processors n) (c : Fin (n + 2)) : Bool :=
  cpus.ready c && cpus.avx2 c

/-- The word that a callback publishes. -/
def flags (cpus : Processors n) (c : Fin (n + 2)) : Nat :=
  (cpus.ready c).toNat ||| (cpus.capable c).toNat <<< 1

end Processors

/-- The atomics of an `ApRecord`. -/
structure ApRecord where
  ready : Nat
  backend : Nat
  workerStatus : Nat
  restored : Nat

/-- `ApRecord::new` -/
def ApRecord.new : ApRecord := ⟨0, 2 ^ 32 - 1, 2 ^ 32 - 1, 0⟩

/-- `all_ready` and `common_avx2` -/
structure Verdict where
  allReady : Bool
  commonAvx2 : Bool

inductive EntryPc where
  | takeSlot
  | rejectSlot
  | turnedAway
  | mark (slot : Nat)
  | rejectMark (slot : Nat)
  | storeReady (slot : Nat)
  -- `EntryBarrier::wait`
  | loadGeneration (slot : Nat)
  | arrive (slot generation : Nat)
  | resetArrivals (slot : Nat)
  | release (slot : Nat)
  | spin (slot generation : Nat)
  -- the loop over the peers, and what follows from it
  | readPeer (slot peer : Nat) (v : Verdict)
  | rejectReady (slot : Nat) (v : Verdict)
  | storeBackend (slot : Nat) (v : Verdict)
  | loadRejection (slot : Nat) (v : Verdict)
  | callWorker (slot : Nat) (v : Verdict)
  | storeStatus (slot : Nat) (v : Verdict) (called : Bool) (status : Nat)
  | storeRestored (slot : Nat) (v : Verdict) (called : Bool)
  | countReturn (slot : Nat) (v : Verdict) (called : Bool)
  | returned (slot : Nat) (v : Verdict) (called : Bool)

/-- An `MpCall` with the records and masks it points to, and where its callbacks stand. -/
structure MpCall (n : Nat) where
  records : Nat → ApRecord
  slotMasks : Nat → BitVec 64
  nextSlot : Nat
  callbacksReturned : Nat
  rejection : Nat
  arrivals : Nat
  generation : Nat
  pc : Fin (n + 2) → EntryPc

namespace MpCall
variable {n : Nat}

/-- The call that `dispatch_token` starts the processors with. -/
def new : MpCall n where
  records _ := .new
  slotMasks _ := 0
  nextSlot := 0
  callbacksReturned := 0
  rejection := 0
  arrivals := 0
  generation := 0
  pc _ := .takeSlot

def goto (s : MpCall n) (c : Fin (n + 2)) (pc : EntryPc) : MpCall n :=
  { s with pc := Function.update s.pc c pc }

def setRecord (s : MpCall n) (slot : Nat) (record : ApRecord) : MpCall n :=
  { s with records := Function.update s.records slot record }

/-- What a callback knows after reading one more peer. -/
def Verdict.read (v : Verdict) (state : Nat) : Verdict :=
  ⟨v.allReady && state &&& 1 != 0, v.commonAvx2 && state &&& 2 != 0⟩

/-- Where a callback goes with all peers read. -/
def judged (slot : Nat) (v : Verdict) : EntryPc :=
  if v.allReady then .storeBackend slot v else .rejectReady slot v

/-- One access of one callback. -/
def step (cpus : Processors n) (s : MpCall n) (c : Fin (n + 2)) : MpCall n :=
  match s.pc c with
  | .takeSlot =>
    { s with nextSlot := s.nextSlot + 1 }.goto c
      (if s.nextSlot ≥ n + 2 then .rejectSlot else .mark s.nextSlot)
  | .rejectSlot => { s with rejection := 40 }.goto c .turnedAway
  | .turnedAway => s
  | .mark slot =>
    let bit := 1#64 <<< (slot % 64)
    let word := s.slotMasks (slot / 64)
    { s with slotMasks := Function.update s.slotMasks (slot / 64) (word ||| bit) }.goto c
      (if word &&& bit ≠ 0 then .rejectMark slot else .storeReady slot)
  | .rejectMark slot => { s with rejection := 41 }.goto c (.storeReady slot)
  | .storeReady slot =>
    (s.setRecord slot { s.records slot with ready := cpus.flags c }).goto c (.loadGeneration slot)
  | .loadGeneration slot => s.goto c (.arrive slot s.generation)
  | .arrive slot generation =>
    { s with arrivals := s.arrivals + 1 }.goto c
      (if s.arrivals + 1 = n + 2 then .resetArrivals slot else .spin slot generation)
  | .resetArrivals slot => { s with arrivals := 0 }.goto c (.release slot)
  | .release slot =>
    { s with generation := s.generation + 1 }.goto c (.readPeer slot 0 ⟨true, true⟩)
  | .spin slot generation =>
    if s.generation = generation then s else s.goto c (.readPeer slot 0 ⟨true, true⟩)
  | .readPeer slot peer v =>
    let v := Verdict.read v (s.records peer).ready
    s.goto c (if peer + 1 = n + 2 then judged slot v else .readPeer slot (peer + 1) v)
  | .rejectReady slot v => { s with rejection := 42 }.goto c (.storeBackend slot v)
  | .storeBackend slot v =>
    (s.setRecord slot { s.records slot with backend := v.commonAvx2.toNat }).goto c
      -- `&&` loads the rejection only if all are ready
      (if v.allReady then .loadRejection slot v else .storeStatus slot v false 42)
  | .loadRejection slot v =>
    s.goto c (if s.rejection = 0 then .callWorker slot v else .storeStatus slot v false 42)
  | .callWorker slot v => s.goto c (.storeStatus slot v true (cpus.workerStatus c))
  | .storeStatus slot v called status =>
    (s.setRecord slot { s.records slot with workerStatus := status }).goto c
      (.storeRestored slot v called)
  | .storeRestored slot v called =>
    (s.setRecord slot { s.records slot with restored := (cpus.restored c).toNat }).goto c
      (.countReturn slot v called)
  | .countReturn slot v called =>
    { s with callbacksReturned := s.callbacksReturned + 1 }.goto c (.returned slot v called)
  | .returned .. => s

def run (cpus : Processors n) (schedule : List (Fin (n + 2))) : MpCall n :=
  schedule.foldl (step cpus) new

/-- `reject` -/
def reject (shared status : Nat) : Nat :=
  if shared = 0 ∧ status ≠ 0 then status else shared

/-- The mask that `dispatch_token` expects in a word. -/
def expectedMask (n word : Nat) : BitVec 64 :=
  let remaining := n + 2 - word * 64
  if remaining ≥ 64 then BitVec.allOnes 64 else (1#64 <<< remaining) - 1#64

def inspectMask (s : MpCall n) (shared word : Nat) : Nat :=
  if s.slotMasks word ≠ expectedMask n word then reject shared 30 else shared

/-- One record; the backend of the one before is checked against it. -/
def inspectRecord (s : MpCall n) : Nat × Option Nat → Nat → Nat × Option Nat
  | (shared, backend), slot =>
    let record := s.records slot
    let shared := if record.restored ≠ 1 then reject shared 31 else shared
    let shared := if record.workerStatus ≠ 0 then reject shared record.workerStatus else shared
    let selected := record.backend
    (if backend.any (fun value => value != selected) then reject shared 32 else shared,
      some selected)

/-- What `dispatch_token` makes of the call once the processors are back. -/
def inspect (s : MpCall n) (protocolStatus : Nat) : Nat :=
  let shared := s.rejection
  let shared :=
    if s.nextSlot ≠ n + 2 ∨ s.callbacksReturned ≠ n + 2 ∨ s.arrivals ≠ 0 ∨ s.generation ≠ 1 then
      reject shared 30
    else
      shared
  let shared := (List.range ((n + 2 + 63) / 64)).foldl (inspectMask s) shared
  let shared := ((List.range (n + 2)).foldl (inspectRecord s) (shared, none)).1
  reject shared protocolStatus

/-- `dispatch_fatal`, with the status of the firmware and the shared one. -/
structure DispatchFatal where
  status : Nat
  shared : Nat

/-- The end of `dispatch_token`, given what `startup_all_aps` returned and left behind. -/
def dispatchToken (startup : Nat) (s : MpCall n) (protocolStatus : Nat) :
    Except DispatchFatal Unit :=
  if startup ≠ 0 then
    .error ⟨startup, 0⟩
  else if s.inspect protocolStatus ≠ 0 then
    .error ⟨0, s.inspect protocolStatus⟩
  else
    .ok ()

end MpCall

end Promptboot
