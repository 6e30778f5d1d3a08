import Mathlib.Algebra.GroupWithZero.Nat
import Mathlib.Logic.Function.Basic
import Promptboot.Engine.Evaluate

/-!
# Worker jobs

`InferenceWorkerJob` (`inference.rs`): the memory that the processors of one token's dispatch share,
and `run` of its participants, with `publish`, `CompletionBarrier::wait` and `protocol_status`, cut
into single accesses to that memory. A program counter holds the locals of the code it stands in.
There are `n + 2` participants, who enter with slots `0` to `n + 1`; slot 0 runs the coordinator,
and what its engine publishes and when it stops is the schedule's choice.

Counters are unbounded here: a token has at most 169 jobs.
-/

namespace Promptboot

structure JobPointers where
  weights : List UInt8
  output : Nat

structure JobShape where
  rows : Nat
  columns : Nat
  q8 : Bool

/-- The `MatvecJob` that a coordinator publishes. Copying it is not atomic: the pointers go first,
then the shape. Nobody writes the weights; `prepared` points to the staging area of the scratch. -/
structure JobDescriptor where
  pointers : JobPointers
  shape : JobShape

/-- `MatvecJob::EMPTY` -/
def JobDescriptor.empty : JobDescriptor := ⟨⟨[], 0⟩, ⟨0, 0, false⟩⟩

/-- The product that a descriptor asks for, on what the staging area holds. -/
def JobDescriptor.job (d : JobDescriptor) (prepared : Vector UInt8 q8StagingBytes) : MatvecJob :=
  ⟨d.pointers.weights, prepared, d.shape.rows, d.shape.columns, d.shape.q8⟩

/-- A job as it was published. -/
structure PublishedJob where
  descriptor : JobDescriptor
  prepared : Vector UInt8 q8StagingBytes

inductive Pc where
  -- `run`
  | enter
  | exchangeBackend
  | loadBackend
  -- the coordinator, and `publish`
  | coordinate
  | writePointers (epoch : Nat) (d : JobDescriptor)
  | writeShape (epoch : Nat) (d : JobDescriptor)
  | clearHits (epoch : Nat) (d : JobDescriptor)
  | storeEpoch (epoch : Nat) (d : JobDescriptor)
  | loadWorkers (epoch : Nat) (d : JobDescriptor)
  | reloadWorkers (epoch : Nat) (d : JobDescriptor)
  | checkHits (d : JobDescriptor)
  | reject
  -- the loop of the other slots
  | pollEpoch (observed : Nat)
  | readPointers (epoch : Nat)
  | readShape (epoch : Nat) (pointers : JobPointers)
  | pollTerminal (observed : Nat)
  -- `run_matvec_rows` and the counter of rows
  | rows (epoch : Nat) (d : JobDescriptor) (first next stop : Nat)
  -- `CompletionBarrier::wait`
  | loadGeneration (epoch : Nat) (d : JobDescriptor) (workers : Nat)
  | arrive (epoch : Nat) (d : JobDescriptor) (workers generation : Nat)
  | resetArrivals (epoch : Nat) (d : JobDescriptor)
  | release (epoch : Nat) (d : JobDescriptor)
  | spin (epoch : Nat) (d : JobDescriptor) (generation : Nat)
  -- `protocol_status`
  | statusRejection
  | statusTerminal
  | statusEpoch (terminal : Nat)
  | statusArrivals (epoch : Nat)
  | statusGeneration (epoch : Nat)
  | returned (code : Nat)

/-- The state of a dispatch: the atomics of the job and its descriptor, the output memory and the
staging area, the backend of slot 0's coordinator, and where the participants stand. The last four
fields are observed by nobody: the jobs published, the memory when the last of them was, the
participants that computed a row of it, and the number of slices a participant has left. -/
structure Dispatch (n : Nat) where
  workers : Nat
  backend : Nat
  rejection : Nat
  jobEpoch : Nat
  terminal : Nat
  rowHits : Nat
  descriptor : JobDescriptor
  arrivals : Nat
  generation : Nat
  expectedJobs : Nat
  memory : Nat → Word
  staging : Vector UInt8 q8StagingBytes
  selected : InferenceBackend
  pc : Fin (n + 2) → Pc
  published : List PublishedJob
  base : Nat → Word
  writers : Nat → List (Fin (n + 2))
  left : Fin (n + 2) → Nat

/-- What the engine of slot 0 does next: anything to the memory, a product, or its end. -/
inductive EngineChoice where
  | serial (memory : Nat → Word) (staging : Vector UInt8 q8StagingBytes)
  | publish (d : JobDescriptor)
  | finish (succeeded : Bool)

/-- `u32::MAX`, the backend of a job that nobody has entered. -/
def noBackend : Nat := 2 ^ 32 - 1

/-- The instructions that a backend code stands for. -/
def chosenBackend (backend : Nat) : InferenceBackend :=
  if backend = 0 then .sse2 else .avx2

namespace Dispatch

variable {n : Nat}

scoped instance (priority := 2000) workersNeZero : NeZero (n + 2) := ⟨Nat.succ_ne_zero _⟩

/-- `InferenceWorkerJob::new` -/
def new (n expectedJobs : Nat) (memory : Nat → Word) (staging : Vector UInt8 q8StagingBytes) :
    Dispatch n where
  workers := 0
  backend := noBackend
  rejection := 0
  jobEpoch := 0
  terminal := 0
  rowHits := 0
  descriptor := .empty
  arrivals := 0
  generation := 0
  expectedJobs
  memory
  staging
  selected := .sse2
  pc _ := .enter
  published := []
  base := memory
  writers _ := []
  left _ := 0

def goto (s : Dispatch n) (slot : Fin (n + 2)) (pc : Pc) : Dispatch n :=
  { s with pc := Function.update s.pc slot pc }

/-- Where a participant goes once it has entered. -/
def entered (slot : Fin (n + 2)) : Pc :=
  if slot = 0 then .loadBackend else .pollEpoch 0

/-- Where a participant goes from the barrier. -/
def joined (slot : Fin (n + 2)) (epoch : Nat) (d : JobDescriptor) : Pc :=
  if slot = 0 then .checkHits d else .pollEpoch epoch

/-- Row `next` of a slice. -/
def computeRow (K : Kernels) (backend : InferenceBackend) (slot : Fin (n + 2)) (d : JobDescriptor)
    (next : Nat) (s : Dispatch n) : Dispatch n :=
  { s with
    memory := Function.update s.memory (d.pointers.output + next)
      ((d.job s.staging).row K backend next)
    writers := Function.update s.writers next (s.writers next ++ [slot]) }

/-- One access of one participant, all of whom entered with `backend`. -/
def step (K : Kernels) (backend : Nat) (slot : Fin (n + 2)) (choice : EngineChoice)
    (s : Dispatch n) : Dispatch n :=
  match s.pc slot with
  | .enter =>
    if n + 2 < 2 ∨ n + 2 ≤ slot.val ∨ 1 < backend then
      { s with rejection := 1 }.goto slot (.returned 1)
    else if s.workers = 0 then
      { s with workers := n + 2 }.goto slot .exchangeBackend
    else if s.workers = n + 2 then
      s.goto slot .exchangeBackend
    else
      { s with rejection := 2 }.goto slot (.returned 2)
  | .exchangeBackend =>
    if s.backend = noBackend then
      { s with backend }.goto slot (entered slot)
    else if s.backend = backend then
      s.goto slot (entered slot)
    else
      { s with rejection := 3 }.goto slot (.returned 3)
  | .loadBackend => { s with selected := chosenBackend s.backend }.goto slot .coordinate
  | .coordinate =>
    match choice with
    | .serial memory staging => { s with memory, staging }
    | .publish d => s.goto slot (.writePointers (s.jobEpoch + 1) d)
    | .finish succeeded => { s with terminal := if succeeded then 1 else 2 }.goto slot .statusRejection
  | .writePointers epoch d =>
    { s with descriptor := { s.descriptor with pointers := d.pointers } }.goto slot
      (.writeShape epoch d)
  | .writeShape epoch d =>
    { s with descriptor := { s.descriptor with shape := d.shape } }.goto slot (.clearHits epoch d)
  | .clearHits epoch d => { s with rowHits := 0 }.goto slot (.storeEpoch epoch d)
  | .storeEpoch epoch d =>
    { s with
      jobEpoch := epoch
      published := s.published ++ [PublishedJob.mk d s.staging]
      base := s.memory
      writers := fun _ => [] }.goto slot (.loadWorkers epoch d)
  | .loadWorkers epoch d => s.goto slot (.rows epoch d 0 0 (d.shape.rows / s.workers))
  | .reloadWorkers epoch d => s.goto slot (.loadGeneration epoch d s.workers)
  | .checkHits d =>
    if s.rowHits = d.shape.rows then s.goto slot .coordinate else s.goto slot .reject
  | .reject => { s with rejection := 4 }.goto slot .coordinate
  | .pollEpoch observed =>
    if s.jobEpoch = observed then
      s.goto slot (.pollTerminal observed)
    else
      s.goto slot (.readPointers s.jobEpoch)
  | .readPointers epoch => s.goto slot (.readShape epoch s.descriptor.pointers)
  | .readShape epoch pointers =>
    let rows := s.descriptor.shape.rows
    let first := rows * slot / (n + 2)
    s.goto slot (.rows epoch ⟨pointers, s.descriptor.shape⟩ first first (rows * (slot + 1) / (n + 2)))
  | .pollTerminal observed =>
    if s.terminal = 0 then s.goto slot (.pollEpoch observed) else s.goto slot .statusRejection
  | .rows epoch d first next stop =>
    if next < stop then
      let backend := if slot = 0 then s.selected else chosenBackend backend
      (s.computeRow K backend slot d next).goto slot (.rows epoch d first (next + 1) stop)
    else
      -- the coordinator loads the number of workers once more
      { s with
        rowHits := s.rowHits + (stop - first)
        left := Function.update s.left slot (s.left slot + 1) }.goto slot
          (if slot = 0 then .reloadWorkers epoch d else .loadGeneration epoch d (n + 2))
  | .loadGeneration epoch d workers => s.goto slot (.arrive epoch d workers s.generation)
  | .arrive epoch d workers generation =>
    { s with arrivals := s.arrivals + 1 }.goto slot
      (if s.arrivals + 1 = workers then .resetArrivals epoch d else .spin epoch d generation)
  | .resetArrivals epoch d => { s with arrivals := 0 }.goto slot (.release epoch d)
  | .release epoch d => { s with generation := s.generation + 1 }.goto slot (joined slot epoch d)
  | .spin epoch d generation =>
    if s.generation = generation then s else s.goto slot (joined slot epoch d)
  | .statusRejection =>
    if s.rejection ≠ 0 then s.goto slot (.returned s.rejection) else s.goto slot .statusTerminal
  | .statusTerminal =>
    if s.terminal = 0 then s.goto slot (.returned 10) else s.goto slot (.statusEpoch s.terminal)
  | .statusEpoch terminal =>
    if (terminal = 1 ∧ s.jobEpoch ≠ s.expectedJobs) ∨
        (terminal = 2 ∧ s.expectedJobs < s.jobEpoch) then
      s.goto slot (.returned 11)
    else
      s.goto slot (.statusArrivals s.jobEpoch)
  | .statusArrivals epoch =>
    if s.arrivals ≠ 0 then s.goto slot (.returned 12) else s.goto slot (.statusGeneration epoch)
  | .statusGeneration epoch =>
    s.goto slot (.returned (if s.generation ≠ epoch then 12 else 0))
  | .returned _ => s

/-- Who takes the next step; the choice matters when slot 0's engine has one. -/
abbrev Turn (n : Nat) := Fin (n + 2) × EngineChoice

def run (K : Kernels) (backend : Nat) (schedule : List (Turn n)) (s : Dispatch n) : Dispatch n :=
  schedule.foldl (fun s turn => s.step K backend turn.1 turn.2) s

end Dispatch

end Promptboot
