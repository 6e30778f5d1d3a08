import Promptboot.Lib.ForkJoin
import Promptboot.Workers.Job

/-!
# Worker jobs: simulation

Every access of a participant is a step of the fork-join protocol, or none. `Follows` relates the
code a participant stands in to its phase, `Sound` is what the protocol does not know about: the
entry of the participants, the copies of the descriptor, and the locals of `protocol_status`.

`Simulates.stutter` is the rule for an access that the protocol does not see, `Related.advance` the
one for an access that is a step of it. `Holds` says, for each program counter, what the
participant's locals have to do with the shared memory.
-/

namespace Promptboot

open ForkJoin (Phase)

/-- The slices of the participants, and what a row of a job comes to. -/
def slicePlan (K : Kernels) (backend n : ℕ) : ForkJoin.Plan (Fin (n + 2)) PublishedJob ℕ Word :=
  .ofCuts (fun job => job.descriptor.shape.rows)
    (fun job slot => job.descriptor.shape.rows * slot / (n + 2))
    (fun job row => job.descriptor.pointers.output + row)
    (fun job row => (job.descriptor.job job.prepared).row K (chosenBackend backend) row)
    (fun _ _ _ h => Nat.div_le_div_right (Nat.mul_le_mul_left _ h))
    (fun _ => by simp)
    (fun _ => Nat.mul_div_cancel _ (Nat.succ_pos _))
    (fun h => Nat.add_left_cancel h)

namespace Dispatch

variable {n : ℕ}

/-- The phase of a participant that stands at a program counter. -/
def Follows (K : Kernels) (backend : ℕ) (i : Fin (n + 2)) : Pc → Phase PublishedJob → Prop
  | .enter, p | .exchangeBackend, p => p = if i = 0 then .leading else .resting 0
  | .loadBackend, p | .coordinate, p | .writePointers _ _, p | .writeShape _ _, p
  | .clearHits _ _, p => p = .leading
  | .storeEpoch _ _, p => p = .prepared
  | .loadWorkers epoch d, p => i = 0 ∧ ∃ job, d = job.descriptor ∧ p = .working job epoch 0
  | .reloadWorkers epoch d, p => i = 0 ∧ ∃ job, d = job.descriptor ∧ p = .counted job epoch
  | .checkHits d, p => ∃ job, d = job.descriptor ∧ p = .checking job
  | .reject, p => p = .failed
  | .pollEpoch observed, p | .pollTerminal observed, p => p = .resting observed
  | .readPointers epoch, p =>
    i ≠ 0 ∧ ∃ job, p = .working job epoch ((slicePlan K backend n).first job i)
  | .readShape epoch pointers, p =>
    i ≠ 0 ∧ ∃ job, pointers = job.descriptor.pointers ∧
      p = .working job epoch ((slicePlan K backend n).first job i)
  | .rows epoch d first next stop, p =>
    ∃ job, d = job.descriptor ∧ first = (slicePlan K backend n).first job i ∧
      stop = (slicePlan K backend n).stop job i ∧ p = .working job epoch next
  | .loadGeneration epoch d workers, p =>
    workers = n + 2 ∧ ∃ job, d = job.descriptor ∧ p = .counted job epoch
  | .arrive epoch d workers generation, p =>
    workers = n + 2 ∧ ∃ job, d = job.descriptor ∧ p = .arriving job epoch generation
  | .resetArrivals epoch d, p => ∃ job, d = job.descriptor ∧ p = .last job epoch
  | .release epoch d, p => ∃ job, d = job.descriptor ∧ p = .releasing job epoch
  | .spin epoch d generation, p => ∃ job, d = job.descriptor ∧ p = .waiting job epoch generation
  | .statusRejection, p | .statusTerminal, p | .statusEpoch _, p | .statusArrivals _, p
  | .statusGeneration _, p | .returned _, p => p = .finished

abbrev Protocol (n : ℕ) := ForkJoin.State (Fin (n + 2)) PublishedJob ℕ Word

/-- The shared state agrees with that of the protocol. -/
structure Matches (s : Dispatch n) (a : Protocol n) : Prop where
  jobs : a.jobs = s.published
  generation : a.generation = s.generation
  arrivals : a.arrivals = s.arrivals
  hits : a.hits = s.rowHits
  closed : a.closed = s.terminal
  out : a.out = s.memory
  base : a.base = s.base
  writers : a.writers = s.writers
  left : a.left = s.left

structure Simulates (K : Kernels) (backend : ℕ) (s : Dispatch n) (a : Protocol n) : Prop where
  shared : Matches s a
  phases : ∀ i, Follows K backend i (s.pc i) (a.phase i)

/-- The condition under which a dispatch that has ended counts as complete. -/
def Complete (s : Dispatch n) : Prop :=
  (s.terminal = 1 → s.jobEpoch = s.expectedJobs) ∧ (s.terminal = 2 → s.jobEpoch ≤ s.expectedJobs)

/-- What the locals of a participant say about the shared state. -/
def Holds (s : Dispatch n) : Pc → Prop
  | .writePointers epoch _ => epoch = s.jobEpoch + 1
  | .writeShape epoch d => epoch = s.jobEpoch + 1 ∧ s.descriptor.pointers = d.pointers
  | .clearHits epoch d | .storeEpoch epoch d => epoch = s.jobEpoch + 1 ∧ s.descriptor = d
  | .statusRejection | .statusTerminal => s.terminal ≠ 0
  | .statusEpoch terminal => s.terminal ≠ 0 ∧ terminal = s.terminal
  | .statusArrivals epoch | .statusGeneration epoch =>
    s.terminal ≠ 0 ∧ s.Complete ∧ epoch = s.jobEpoch
  | .returned code => s.terminal ≠ 0 ∧ (code = 0 ↔ s.Complete)
  | _ => True

/-- How far a participant is in entering the job. -/
def stage : Pc → ℕ
  | .enter => 0
  | .exchangeBackend => 1
  | .loadBackend => 2
  | _ => 3

/-- Whoever has entered found the job as the others did. -/
structure Entered (backend : ℕ) (s : Dispatch n) : Prop where
  workers : s.workers = 0 ∨ s.workers = n + 2
  codes : s.backend = noBackend ∨ s.backend = backend
  stored : ∀ i, 1 ≤ stage (s.pc i) → s.workers = n + 2
  exchanged : ∀ i, 2 ≤ stage (s.pc i) → s.backend = backend
  selected : 3 ≤ stage (s.pc 0) → s.selected = chosenBackend backend

structure Sound (s : Dispatch n) : Prop where
  rejection : s.rejection = 0
  jobEpoch : s.jobEpoch = s.published.length
  terminal : s.terminal ≤ 2
  shares : s.published.length = s.generation + 1 → ∀ job, s.published.getLast? = some job →
    s.descriptor = job.descriptor ∧ s.staging = job.prepared
  locals : ∀ i, s.Holds (s.pc i)

/-- The dispatch stands in a state of the protocol that the protocol can reach. -/
structure Related (K : Kernels) (backend : ℕ) (s : Dispatch n) (a : Protocol n) : Prop where
  simulates : Simulates K backend s a
  inv : ForkJoin.Inv (slicePlan K backend n) 0 a
  entered : Entered backend s
  sound : Sound s

section Steps

variable {K : Kernels} {backend : ℕ} {s t : Dispatch n} {a b : Protocol n} {i : Fin (n + 2)} {pc : Pc}
  {p : Phase PublishedJob}

/-- The processor that moves is where it goes. -/
@[simp] lemma goto_self : (s.goto i pc).pc i = pc := by
  simp [goto]

/-- The other processors stay. -/
lemma goto_of_ne {k : Fin (n + 2)} (h : k ≠ i) : (s.goto i pc).pc k = s.pc k := by
  simp [goto, h]

/-- A step of one processor keeps the simulation of the others. -/
lemma Simulates.goto (sim : Simulates K backend s a) (code : t.pc = s.pc)
    (phase : b.phase = a.phase) (shared : Matches t b) (own : Follows K backend i pc p) :
    Simulates K backend (t.goto i pc) (b.move i p) := by
  refine ⟨⟨shared.jobs, shared.generation, shared.arrivals, shared.hits, shared.closed, shared.out,
    shared.base, shared.writers, shared.left⟩, ?_⟩
  intro k
  by_cases same : k = i
  · subst same
    rw [goto_self, ForkJoin.State.move_self]
    exact own
  · rw [goto_of_ne same, ForkJoin.State.move_of_ne same, code, phase]
    exact sim.phases k

/-- An access that the protocol does not see. -/
lemma Simulates.stutter (sim : Simulates K backend s a) (code : t.pc = s.pc) (shared : Matches t a)
    (own : Follows K backend i pc (a.phase i)) : Simulates K backend (t.goto i pc) a := by
  have moved := sim.goto (b := a) code rfl shared own
  rwa [ForkJoin.State.move, Function.update_eq_self] at moved

/-- The fields that only the coordinator and its jobs change. -/
structure SameControl (s t : Dispatch n) : Prop where
  rejection : t.rejection = s.rejection
  jobEpoch : t.jobEpoch = s.jobEpoch
  published : t.published = s.published
  expectedJobs : t.expectedJobs = s.expectedJobs
  terminal : t.terminal = s.terminal
  descriptor : t.descriptor = s.descriptor
  staging : t.staging = s.staging

/-- What `Holds` looks at. -/
lemma Holds.congr (jobEpoch : t.jobEpoch = s.jobEpoch) (expected : t.expectedJobs = s.expectedJobs)
    (terminal : t.terminal = s.terminal) (descriptor : t.descriptor = s.descriptor)
    (h : s.Holds pc) : t.Holds pc := by
  cases pc <;> simp only [Holds, Complete, jobEpoch, expected, terminal, descriptor] at h ⊢ <;>
    exact h

/-- A step keeps the entries of the others. -/
lemma Entered.goto (entered : Entered backend s) (code : t.pc = s.pc)
    (workers : t.workers = s.workers ∨ t.workers = n + 2)
    (codes : t.backend = s.backend ∨ t.backend = backend)
    (selected : t.selected = s.selected ∨ t.selected = chosenBackend backend)
    (stored : 1 ≤ stage pc → t.workers = n + 2) (exchanged : 2 ≤ stage pc → t.backend = backend)
    (coordinates : i = 0 → 3 ≤ stage pc → t.selected = chosenBackend backend) :
    Entered backend (t.goto i pc) := by
  refine ⟨?_, ?_, ?_, ?_, ?_⟩
  · show t.workers = 0 ∨ t.workers = n + 2
    rcases workers with eq | eq
    · rw [eq]
      exact entered.workers
    · exact .inr eq
  · show t.backend = noBackend ∨ t.backend = backend
    rcases codes with eq | eq
    · rw [eq]
      exact entered.codes
    · exact .inr eq
  · intro k hk
    by_cases same : k = i
    · subst same
      rw [goto_self] at hk
      exact stored hk
    · rw [goto_of_ne same, code] at hk
      rcases workers with eq | eq
      · exact eq.trans (entered.stored k hk)
      · exact eq
  · intro k hk
    by_cases same : k = i
    · subst same
      rw [goto_self] at hk
      exact exchanged hk
    · rw [goto_of_ne same, code] at hk
      rcases codes with eq | eq
      · exact eq.trans (entered.exchanged k hk)
      · exact eq
  · intro hk
    by_cases same : 0 = i
    · subst same
      rw [goto_self] at hk
      exact coordinates rfl hk
    · rw [goto_of_ne same, code] at hk
      rcases selected with eq | eq
      · exact eq.trans (entered.selected hk)
      · exact eq

/-- A participant that has entered goes on. -/
lemma Entered.proceed (entered : Entered backend s) (code : t.pc = s.pc)
    (workers : t.workers = s.workers) (codes : t.backend = s.backend)
    (selected : t.selected = s.selected) (ready : 3 ≤ stage (s.pc i)) :
    Entered backend (t.goto i pc) := by
  refine entered.goto code (.inl workers) (.inl codes) (.inl selected) ?_ ?_ ?_
  · intro _
    exact workers.trans (entered.stored i (le_trans (by decide) ready))
  · intro _
    exact codes.trans (entered.exchanged i (le_trans (by decide) ready))
  · rintro rfl _
    exact selected.trans (entered.selected ready)

/-- A step keeps the counters sound. -/
lemma Sound.goto (sound : Sound s) (code : t.pc = s.pc) (same : SameControl s t)
    (generation : t.generation = s.generation ∨ s.published.length ≠ t.generation + 1)
    (own : s.Holds pc) : Sound (t.goto i pc) := by
  refine ⟨same.rejection.trans sound.rejection, ?_, ?_, ?_, ?_⟩
  · show t.jobEpoch = t.published.length
    rw [same.jobEpoch, same.published, sound.jobEpoch]
  · show t.terminal ≤ 2
    rw [same.terminal]
    exact sound.terminal
  · show t.published.length = t.generation + 1 → ∀ job, t.published.getLast? = some job →
      t.descriptor = job.descriptor ∧ t.staging = job.prepared
    rw [same.published, same.descriptor, same.staging]
    intro open_
    rcases generation with eq | other
    · rw [eq] at open_
      exact sound.shares open_
    · exact absurd open_ other
  · intro k
    have keeps : ∀ {q}, s.Holds q → (t.goto i pc).Holds q :=
      fun h => h.congr same.jobEpoch same.expectedJobs same.terminal same.descriptor
    by_cases h : k = i
    · subst h
      rw [goto_self]
      exact keeps own
    · rw [goto_of_ne h, code]
      exact keeps (sound.locals k)

/-- An access that the protocol does not see. -/
lemma Related.stutter (r : Related K backend s a) (own : Follows K backend i pc (a.phase i))
    (ready : 3 ≤ stage (s.pc i)) (holds : s.Holds pc) : Related K backend (s.goto i pc) a :=
  ⟨r.simulates.stutter rfl r.simulates.shared own, r.inv,
    r.entered.proceed rfl rfl rfl rfl ready,
    r.sound.goto rfl ⟨rfl, rfl, rfl, rfl, rfl, rfl, rfl⟩ (.inl rfl) holds⟩

/-- An access that is a step of the protocol and changes counters or memory only. -/
lemma Related.advance (r : Related K backend s a)
    (step : ForkJoin.Step (slicePlan K backend n) 0 a (b.move i p)) (phase : b.phase = a.phase)
    (shared : Matches t b) (own : Follows K backend i pc p) (code : t.pc = s.pc)
    (workers : t.workers = s.workers) (codes : t.backend = s.backend)
    (selected : t.selected = s.selected) (same : SameControl s t)
    (generation : t.generation = s.generation ∨ s.published.length ≠ t.generation + 1)
    (ready : 3 ≤ stage (s.pc i)) (holds : s.Holds pc) :
    Related K backend (t.goto i pc) (b.move i p) :=
  ⟨r.simulates.goto code phase shared own, ForkJoin.step_inv r.inv step,
    r.entered.proceed code workers codes selected ready,
    r.sound.goto code same generation holds⟩

end Steps

end Dispatch

end Promptboot
