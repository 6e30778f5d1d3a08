import Promptboot.Workers.Steps

/-!
# Worker jobs: correctness

What is right in every state that the accesses lead to, whatever their order and whatever jobs are
published: nobody works on a job before all have left the one before, every row is computed once,
the product of a joined job is the serial one, and whoever returns returns the verdict on the token.

`Correct` says so of a state, and `Related.correct` reads it off the protocol state that the
simulation gives; `Rejected.correct` is the case of a backend that nobody gets in with. Once slot 0
has ended the token, `Related.ending` says where the participants can stand and `Related.step_rank`
that each of their steps brings them nearer to their return, so that ten steps are enough
(`Related.run_ended`).
-/

namespace Promptboot

open ForkJoin (Phase)

namespace Dispatch

variable {n : ℕ}

/-- A participant is reading the descriptor of job `epoch`. -/
def Reads (epoch : ℕ) : Pc → Prop
  | .readPointers number | .readShape number _ => number = epoch
  | _ => False

/-- The state at the end of a `publish`, before its last load. -/
structure Computed (K : Kernels) (backend : ℕ) (s : Dispatch n) (job : PublishedJob) : Prop where
  hits : s.rowHits = job.descriptor.shape.rows
  writers : ∀ row, row < job.descriptor.shape.rows → ∃ slot, s.writers row = [slot]
  beyond : ∀ row, job.descriptor.shape.rows ≤ row → s.writers row = []
  output : ∀ row, s.memory (job.descriptor.pointers.output + row) =
    runMatvecRows K (job.descriptor.job job.prepared) (chosenBackend backend) 0
      job.descriptor.shape.rows (fun row => s.base (job.descriptor.pointers.output + row)) row
  frame : ∀ address, (∀ row, row < job.descriptor.shape.rows →
    address ≠ job.descriptor.pointers.output + row) → s.memory address = s.base address

structure Correct (K : Kernels) (backend : ℕ) (s : Dispatch n) : Prop where
  reads : ∀ slot epoch, Reads epoch (s.pc slot) → (∀ other, epoch ≤ s.left other + 1) ∧
    ∃ job, s.published.getLast? = some job ∧ epoch = s.published.length ∧
      s.descriptor = job.descriptor
  works : ∀ slot epoch d first next stop, s.pc slot = .rows epoch d first next stop →
    ∃ job, s.published.getLast? = some job ∧ epoch = s.published.length ∧ d = job.descriptor ∧
      first = d.shape.rows * slot / (n + 2) ∧ stop = d.shape.rows * (slot + 1) / (n + 2)
  once : ∀ row, (s.writers row).length ≤ 1
  product : ∀ slot d, s.pc slot = .checkHits d →
    ∃ job, s.published.getLast? = some job ∧ d = job.descriptor ∧ s.Computed K backend job
  rejection : s.rejection ≠ 4
  quiet : s.terminal ≠ 0 → s.arrivals = 0 ∧ s.generation = s.jobEpoch
  terminal : s.terminal ≤ 2
  status : ∀ slot code, s.pc slot = .returned code → s.terminal ≠ 0 → (code = 0 ↔ s.Complete)

section Related

variable {K : Kernels} {backend : ℕ} {s : Dispatch n} {a : Protocol n}

/-- Before anybody has entered. -/
lemma related_new (K : Kernels) (backend n expectedJobs : ℕ) (memory : ℕ → Word)
    (staging : Vector UInt8 q8StagingBytes) :
    ∃ a, Related K backend (new n expectedJobs memory staging) a := by
  refine ⟨⟨[], 0, 0, 0, 0, memory, memory, fun _ => [], fun _ => 0,
    fun i => if i = 0 then .leading else .resting 0⟩, ?_, ?_, ?_, ?_⟩
  · exact ⟨⟨rfl, rfl, rfl, rfl, rfl, rfl, rfl, rfl, rfl⟩, fun _ => rfl⟩
  · exact ForkJoin.inv_init ⟨rfl, rfl, rfl, rfl, fun _ => rfl, fun _ => rfl, fun _ => rfl⟩
  · refine ⟨.inl rfl, .inl rfl, ?_, ?_, ?_⟩
    · intro _ late
      cases late
    · intro _ late
      cases late
    · intro late
      cases late
  · exact ⟨rfl, rfl, Nat.zero_le 2, nofun, fun _ => trivial⟩

/-- When all rows of a job are complete, the product is computed. -/
lemma Related.computed (r : Related K backend s a) {job : PublishedJob}
    (complete : ForkJoin.Complete (slicePlan K backend n) a job) : s.Computed K backend job := by
  obtain ⟨jobs, _, _, hits, _, out, base, writers, _⟩ := r.simulates.shared
  refine ⟨?_, ?_, ?_, ?_, ?_⟩
  · rw [← hits]
    exact complete.hits
  · intro row below
    obtain ⟨slot, lower, upper⟩ := (slicePlan K backend n).cover job row below
    rw [← writers]
    exact ⟨slot, complete.writers slot row lower upper⟩
  · intro row above
    rw [← writers]
    exact complete.outside row above
  · intro row
    rw [← out, ← base]
    by_cases below : row < job.descriptor.shape.rows
    · exact (complete.out row below).trans (runMatvecRows_of_lt below).symm
    · have above : (job.descriptor.job job.prepared).rows ≤ row := Nat.not_lt.mp below
      refine (complete.frame _ ?_).trans (Eq.symm (runMatvecRows_of_le above))
      intro other inside same
      have eq : row = other := Nat.add_left_cancel same
      exact below (eq ▸ inside)
  · intro address outside
    rw [← out, ← base]
    exact complete.frame address outside

/-- A related state is correct. -/
lemma Related.correct (r : Related K backend s a) : s.Correct K backend := by
  -- the open job is the last one published, and its epoch their number
  have current_job : ∀ {job epoch}, ForkJoin.Current a job epoch →
      s.published.getLast? = some job ∧ epoch = s.published.length := by
    rintro job epoch ⟨_, number, last⟩
    rw [← r.simulates.shared.jobs]
    exact ⟨last, number⟩
  refine ⟨?_, ?_, ?_, ?_, ?_, r.quiet, r.sound.terminal, ?_⟩
  · intro slot epoch reads
    have reading : ∃ job, ForkJoin.Current a job epoch := by
      cases h : s.pc slot <;> rw [h] at reads <;> try exact reads.elim
      case readPointers number =>
        obtain ⟨_, job, phase⟩ := r.follows h
        cases reads
        exact ⟨job, (r.at_phase phase).1⟩
      case readShape number pointers =>
        obtain ⟨_, job, _, phase⟩ := r.follows h
        cases reads
        exact ⟨job, (r.at_phase phase).1⟩
    obtain ⟨job, current⟩ := reading
    obtain ⟨last, number⟩ := current_job current
    refine ⟨?_, job, last, number, (r.shared_job current).1⟩
    intro other
    have done := r.inv.generation_le_left other
    rw [r.simulates.shared.left] at done
    rw [current.epoch, current.open_]
    omega
  · intro slot epoch d first next stop h
    obtain ⟨job, rfl, rfl, rfl, phase⟩ := r.follows h
    obtain ⟨last, number⟩ := current_job (r.at_phase phase).1
    exact ⟨job, last, number, rfl, rfl, rfl⟩
  · intro row
    rw [← r.simulates.shared.writers]
    exact r.inv.once row
  · intro slot d h
    obtain ⟨job, rfl, phase⟩ := r.follows h
    obtain ⟨_, _, _, complete⟩ := r.at_phase phase
    refine ⟨job, ?_, rfl, r.computed complete⟩
    rw [← r.simulates.shared.jobs]
    exact complete.last
  · rw [r.sound.rejection]
    decide
  · intro slot code h _
    exact (r.holds h).2

/-- The steps that a participant of an ended token has left at most. -/
def rank : Pc → ℕ
  | .enter => 10
  | .exchangeBackend | .spin _ _ _ => 9
  | .pollEpoch _ => 8
  | .pollTerminal _ => 7
  | .statusRejection => 6
  | .statusTerminal => 5
  | .statusEpoch _ => 4
  | .statusArrivals _ => 3
  | .statusGeneration _ => 2
  | _ => 0

end Related

section Ended

variable {K : Kernels} {backend : ℕ} {s : Dispatch n} {a : Protocol n} {i k : Fin (n + 2)}
  {choice : EngineChoice}

/-- Where a participant of an ended token can stand. -/
def Ending (s : Dispatch n) (i : Fin (n + 2)) : Pc → Prop
  | .enter | .exchangeBackend => i ≠ 0
  | .pollEpoch observed | .pollTerminal observed => i ≠ 0 ∧ observed = s.jobEpoch
  | .spin epoch _ generation => i ≠ 0 ∧ epoch = s.jobEpoch ∧ s.generation ≠ generation
  | .statusRejection | .statusTerminal | .statusEpoch _ | .statusArrivals _ | .statusGeneration _
  | .returned _ => True
  | _ => False

/-- When the coordinator has ended, the workers are about to return. -/
lemma Related.ending (r : Related K backend s a) (ended : s.terminal ≠ 0) (i : Fin (n + 2)) :
    s.Ending i (s.pc i) := by
  have closed : a.closed ≠ 0 := by
    rw [r.simulates.shared.closed]
    exact ended
  have joined := (r.quiet ended).2
  have follows := r.simulates.phases i
  rcases r.inv.ended closed i with ⟨other, hp⟩ | ⟨other, job, g, hp, past⟩ | hp <;>
    rw [hp] at follows
  -- it rests, and has seen all jobs
  · rw [r.simulates.shared.generation, joined] at follows
    cases h : s.pc i <;> rw [h] at follows <;> simp_all [Follows, Ending]
  -- the last job's barrier is released
  · rw [r.simulates.shared.generation, joined] at follows past
    cases h : s.pc i <;> rw [h] at follows <;> simp_all [Follows, Ending]
    omega
  · cases h : s.pc i <;> rw [h] at follows <;> simp [Follows, Ending] at follows ⊢ <;>
      split at follows <;> cases follows

/-- An ended token stays as it ended. -/
lemma Related.step_ended (r : Related K backend s a) (ended : s.terminal ≠ 0) :
    (s.step K backend i choice).terminal = s.terminal ∧
      (s.step K backend i choice).jobEpoch = s.jobEpoch ∧
      (s.step K backend i choice).expectedJobs = s.expectedJobs := by
  have ending := r.ending ended i
  cases h : s.pc i <;> rw [h] at ending <;> simp only [Dispatch.step, h] <;> first
    | exact ending.elim
    | (split_ifs <;> exact ⟨rfl, rfl, rfl⟩)
    | exact ⟨trivial, trivial, trivial⟩

/-- Every step of a participant of an ended token brings it nearer to its return. -/
lemma Related.step_rank (r : Related K backend s a) (ended : s.terminal ≠ 0) :
    rank ((s.step K backend i choice).pc i) ≤ rank (s.pc i) - 1 := by
  have ending := r.ending ended i
  cases h : s.pc i <;> rw [h] at ending <;> simp only [Dispatch.step, h]
  case enter => split_ifs <;> simp [rank]
  case exchangeBackend =>
    have other : i ≠ 0 := ending
    split_ifs <;> simp [rank, Dispatch.entered, other]
  case pollEpoch observed =>
    rw [if_pos ending.2.symm]
    simp [rank]
  case pollTerminal observed =>
    rw [if_neg ended]
    simp [rank]
  case spin epoch d generation =>
    obtain ⟨other, _, released⟩ := ending
    rw [if_neg released]
    simp [rank, Dispatch.joined, other]
  case statusRejection => split_ifs <;> simp [rank]
  case statusTerminal => split_ifs <;> simp [rank]
  case statusEpoch => split_ifs <;> simp [rank]
  case statusArrivals => split_ifs <;> simp [rank]
  case statusGeneration => simp [rank]
  case returned => simp [rank]
  all_goals exact ending.elim

/-- A step moves its own processor only. -/
lemma step_pc_of_ne (other : k ≠ i) : (s.step K backend i choice).pc k = s.pc k := by
  cases h : s.pc i <;> simp only [Dispatch.step, h]
  case coordinate =>
    cases choice with
    | serial => rfl
    | publish => exact goto_of_ne other
    | finish => exact goto_of_ne other
  case rows =>
    split
    · exact goto_of_ne other
    · exact goto_of_ne other
  all_goals first
    | exact goto_of_ne other
    | (split_ifs <;> first | exact goto_of_ne other | rfl)

/-- A participant of an ended token returns within ten steps of its own. -/
lemma Related.run_ended (r : Related K backend s a) (small : backend ≤ 1) (ended : s.terminal ≠ 0)
    (more : List (Turn n)) (enough : rank (s.pc i) ≤ more.countP (fun turn => turn.1 = i)) :
    ∃ code, (Dispatch.run K backend more s).pc i = .returned code ∧ (code = 0 ↔ s.Complete) := by
  induction more generalizing s a with
  | nil =>
    have ending := r.ending ended i
    have last : rank (s.pc i) = 0 := Nat.le_zero.mp enough
    cases h : s.pc i <;> rw [h] at ending last
    case returned code => exact ⟨code, h, (r.holds h).2⟩
    all_goals first
      | exact ending.elim
      | cases last
  | cons turn rest ih =>
    obtain ⟨b, next⟩ : ∃ b, Related K backend (s.step K backend turn.1 turn.2) b := r.step small
    obtain ⟨terminal, jobEpoch, expected⟩ :
        (s.step K backend turn.1 turn.2).terminal = s.terminal ∧ _ ∧ _ := r.step_ended ended
    have complete : (s.step K backend turn.1 turn.2).Complete ↔ s.Complete := by
      unfold Complete
      rw [terminal, jobEpoch, expected]
    have left : rank ((s.step K backend turn.1 turn.2).pc i) ≤
        rest.countP (fun turn => turn.1 = i) := by
      by_cases own : turn.1 = i
      · subst own
        have nearer : rank ((s.step K backend turn.1 turn.2).pc turn.1) ≤ _ := r.step_rank ended
        simp only [List.countP_cons, decide_true, if_true] at enough
        omega
      · rw [step_pc_of_ne (Ne.symm own)]
        simpa [List.countP_cons, own] using enough
    rw [← complete]
    exact ih next (by rw [terminal]; exact ended) left

end Ended

section Rejected

variable {K : Kernels} {backend : ℕ} {s : Dispatch n}

/-- With a backend that stands for no instructions, nobody gets in. -/
structure Rejected (s : Dispatch n) : Prop where
  pc : ∀ i, s.pc i = .enter ∨ s.pc i = .returned 1
  rejection : s.rejection ≤ 1
  terminal : s.terminal = 0
  writers : ∀ row, s.writers row = []

/-- A rejected backend stays rejected. -/
lemma Rejected.step (rejected : Rejected s) (large : 1 < backend) (i : Fin (n + 2))
    (choice : EngineChoice) : Rejected (s.step K backend i choice) := by
  rcases rejected.pc i with h | h <;> simp only [Dispatch.step, h]
  · rw [if_pos (.inr (.inr large))]
    refine ⟨?_, le_refl 1, rejected.terminal, rejected.writers⟩
    intro k
    by_cases same : k = i
    · subst same
      exact .inr goto_self
    · rw [goto_of_ne same]
      exact rejected.pc k
  · exact rejected

/-- A rejected backend stays rejected over a run. -/
lemma Rejected.run (rejected : Rejected s) (large : 1 < backend) (schedule : List (Turn n)) :
    Rejected (Dispatch.run K backend schedule s) := by
  induction schedule generalizing s with
  | nil => exact rejected
  | cons turn rest ih => exact ih (rejected.step large turn.1 turn.2)

/-- A rejected state is correct. -/
lemma Rejected.correct (rejected : Rejected s) : s.Correct K backend := by
  refine ⟨?_, ?_, ?_, ?_, ?_, ?_, ?_, ?_⟩
  · intro slot epoch reads
    rcases rejected.pc slot with h | h <;> rw [h] at reads <;> exact reads.elim
  · intro slot epoch d first next stop at_rows
    rcases rejected.pc slot with h | h <;> rw [h] at at_rows <;> cases at_rows
  · intro row
    rw [rejected.writers row]
    exact Nat.zero_le 1
  · intro slot d at_check
    rcases rejected.pc slot with h | h <;> rw [h] at at_check <;> cases at_check
  · have low := rejected.rejection
    omega
  · intro ended
    exact absurd rejected.terminal ended
  · rw [rejected.terminal]
    exact Nat.zero_le 2
  · intro _ _ _ ended
    exact absurd rejected.terminal ended

end Rejected

end Dispatch

end Promptboot
