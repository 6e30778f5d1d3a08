import Promptboot.Workers.Simulation

/-!
# Worker jobs: steps

Each access keeps a dispatch in step with the protocol, one lemma for each program counter.

A lemma is named after the program counter it starts from. The helpers `not_shared` and `shared_job`
tell which fields somebody else may be reading, and `epoch_eq` which job is open; `step_coordinate`
is the only one that looks at the schedule's choice. The headline is `step`, for any access of any
participant.
-/

namespace Promptboot

open ForkJoin (Phase)

namespace Dispatch

variable {n : ℕ} {K : Kernels} {backend : ℕ} {s t : Dispatch n} {a b : Protocol n}
  {i : Fin (n + 2)} {pc : Pc} {choice : EngineChoice}

/-- Going where one is changes nothing. -/
lemma goto_eq (h : t.pc i = pc) : t.goto i pc = t := by
  rw [goto, ← h, Function.update_eq_self]

/-- A participant that rests or has yet to leave the barrier knows nothing of the shared state. -/
lemma Follows.idle {seen epoch generation : ℕ} {job : PublishedJob}
    {p : Phase PublishedJob} (follows : Follows K backend i pc p)
    (idle : p = .resting seen ∨ p = .waiting job epoch generation) : t.Holds pc := by
  have apart : p ≠ .leading ∧ p ≠ .prepared ∧ p ≠ .finished := by
    rcases idle with rfl | rfl <;> exact ⟨nofun, nofun, nofun⟩
  obtain ⟨leading, prepared, finished⟩ := apart
  cases pc with
  | writePointers => exact absurd follows leading
  | writeShape => exact absurd follows leading
  | clearHits => exact absurd follows leading
  | storeEpoch => exact absurd follows prepared
  | statusRejection => exact absurd follows finished
  | statusTerminal => exact absurd follows finished
  | statusEpoch => exact absurd follows finished
  | statusArrivals => exact absurd follows finished
  | statusGeneration => exact absurd follows finished
  | returned => exact absurd follows finished
  | _ => trivial

namespace Related

/-- A processor follows its member of the abstract state. -/
lemma follows (r : Related K backend s a) (h : s.pc i = pc) : Follows K backend i pc (a.phase i) :=
  h ▸ r.simulates.phases i

/-- What holds where a processor is. -/
lemma holds (r : Related K backend s a) (h : s.pc i = pc) : s.Holds pc :=
  h ▸ r.sound.locals i

/-- The abstract member is where its phase says. -/
lemma at_phase (r : Related K backend s a) {p : Phase PublishedJob} (h : a.phase i = p) :
    ForkJoin.At (slicePlan K backend n) 0 a i p :=
  h ▸ r.inv.phases i

/-- The abstract epoch is that of the code. -/
lemma epoch_eq (r : Related K backend s a) : a.epoch = s.jobEpoch := by
  rw [ForkJoin.State.epoch, r.simulates.shared.jobs, r.sound.jobEpoch]

/-- While a job is open, descriptor and staging area are as they were published. -/
lemma shared_job (r : Related K backend s a) {job : PublishedJob} {epoch : ℕ}
    (current : ForkJoin.Current a job epoch) :
    s.descriptor = job.descriptor ∧ s.staging = job.prepared := by
  refine r.sound.shares ?_ job ?_
  · rw [← r.simulates.shared.generation, ← r.simulates.shared.jobs]
    exact current.open_
  · rw [← r.simulates.shared.jobs]
    exact current.job

/-- The engine of slot 0 changes what it likes while nobody else uses it. -/
lemma sound_lead (r : Related K backend s a) (lead : a.phase i = .leading ∨ a.phase i = .prepared)
    (code : t.pc = s.pc) (rejection : t.rejection = s.rejection)
    (jobEpoch : t.jobEpoch = t.published.length) (terminal : t.terminal ≤ 2)
    (shares : t.published.length = t.generation + 1 → ∀ job, t.published.getLast? = some job →
      t.descriptor = job.descriptor ∧ t.staging = job.prepared)
    (own : t.Holds pc) : Sound (t.goto i pc) := by
  obtain ⟨leads, joined, still⟩ : i = 0 ∧ a.epoch = a.generation ∧ a.closed = 0 := by
    rcases lead with h | h
    · obtain ⟨leads, joined, still⟩ := r.at_phase h
      exact ⟨leads, joined, still⟩
    · obtain ⟨leads, joined, still, _⟩ := r.at_phase h
      exact ⟨leads, joined, still⟩
  refine ⟨rejection.trans r.sound.rejection, jobEpoch, terminal, shares, ?_⟩
  intro k
  by_cases same : k = i
  · subst same
    rw [goto_self]
    exact own.congr rfl rfl rfl rfl
  · rw [goto_of_ne same, code]
    have resting {seen : ℕ} (hp : a.phase k = .resting seen) :
        a.phase k = .resting seen ∨ a.phase k = .waiting ⟨.empty, s.staging⟩ 0 0 := .inl hp
    have waiting {job : PublishedJob} {epoch generation : ℕ}
        (hp : a.phase k = .waiting job epoch generation) :
        a.phase k = .resting 0 ∨ a.phase k = .waiting job epoch generation := .inr hp
    rcases r.inv.idle joined still (fun e => same (e.trans leads.symm)) with hp | ⟨_, _, hp, _⟩
    · exact (r.simulates.phases k).idle (resting hp)
    · exact (r.simulates.phases k).idle (waiting hp)

/-- Between two jobs nothing is shared. -/
lemma not_shared (r : Related K backend s a) (lead : a.phase i = .leading) {P : Prop}
    (open_ : s.published.length = s.generation + 1) : P := by
  obtain ⟨_, joined, _⟩ := r.at_phase lead
  rw [ForkJoin.State.epoch, r.simulates.shared.jobs, r.simulates.shared.generation] at joined
  exact ForkJoin.not_open joined open_

section Enter

/-- Entering is no abstract step. -/
lemma step_enter (r : Related K backend s a) (small : backend ≤ 1) (h : s.pc i = .enter) :
    Related K backend (s.step K backend i choice) a := by
  have follows := r.follows h
  have slot := i.isLt
  have same : SameControl s s := ⟨rfl, rfl, rfl, rfl, rfl, rfl, rfl⟩
  simp only [step, h]
  rw [if_neg (by omega)]
  by_cases empty : s.workers = 0
  · rw [if_pos empty]
    exact ⟨r.simulates.stutter rfl { r.simulates.shared with } follows, r.inv,
      r.entered.goto rfl (.inr rfl) (.inl rfl) (.inl rfl) (fun _ => rfl)
        (fun late => absurd late (by decide)) (fun _ late => absurd late (by decide)),
      r.sound.goto rfl { same with } (.inl rfl) trivial⟩
  · have found : s.workers = n + 2 := r.entered.workers.resolve_left empty
    rw [if_neg empty, if_pos found]
    exact ⟨r.simulates.stutter rfl r.simulates.shared follows, r.inv,
      r.entered.goto rfl (.inl rfl) (.inl rfl) (.inl rfl) (fun _ => found)
        (fun late => absurd late (by decide)) (fun _ late => absurd late (by decide)),
      r.sound.goto rfl same (.inl rfl) trivial⟩

/-- The participants part once they have entered. -/
lemma follows_entered {p : Phase PublishedJob} (follows : Follows K backend i .exchangeBackend p) :
    Follows K backend i (Dispatch.entered i) p := by
  have phase : p = if i = 0 then .leading else .resting 0 := follows
  unfold Dispatch.entered
  by_cases leads : i = 0
  · rw [if_pos leads] at phase ⊢
    exact phase
  · rw [if_neg leads] at phase ⊢
    exact phase

/-- Where a processor enters, nothing need hold. -/
lemma holds_entered : t.Holds (Dispatch.entered i) := by
  unfold Dispatch.entered
  split <;> trivial

/-- The coordinator enters at the second stage. -/
lemma stage_entered (leads : i = 0) : stage (Dispatch.entered i) = 2 := by
  rw [Dispatch.entered, if_pos leads]
  rfl

/-- Exchanging the backend is no abstract step. -/
lemma step_exchangeBackend (r : Related K backend s a) (h : s.pc i = .exchangeBackend) :
    Related K backend (s.step K backend i choice) a := by
  have follows := follows_entered (r.follows h)
  have same : SameControl s s := ⟨rfl, rfl, rfl, rfl, rfl, rfl, rfl⟩
  have workers : s.workers = n + 2 := r.entered.stored i (by rw [h]; decide)
  have early : ∀ {P : Prop}, i = 0 → 3 ≤ stage (Dispatch.entered i) → P := by
    intro P leads late
    rw [stage_entered leads] at late
    exact absurd late (by decide)
  simp only [step, h]
  by_cases empty : s.backend = noBackend
  · rw [if_pos empty]
    exact ⟨r.simulates.stutter rfl { r.simulates.shared with } follows, r.inv,
      r.entered.goto rfl (.inl rfl) (.inr rfl) (.inl rfl) (fun _ => workers) (fun _ => rfl) early,
      r.sound.goto rfl { same with } (.inl rfl) holds_entered⟩
  · have found : s.backend = backend := r.entered.codes.resolve_left empty
    rw [if_neg empty, if_pos found]
    exact ⟨r.simulates.stutter rfl r.simulates.shared follows, r.inv,
      r.entered.goto rfl (.inl rfl) (.inl rfl) (.inl rfl) (fun _ => workers) (fun _ => found) early,
      r.sound.goto rfl same (.inl rfl) holds_entered⟩

/-- Reading the backend is no abstract step. -/
lemma step_loadBackend (r : Related K backend s a) (h : s.pc i = .loadBackend) :
    Related K backend (s.step K backend i choice) a := by
  have follows := r.follows h
  have same : SameControl s s := ⟨rfl, rfl, rfl, rfl, rfl, rfl, rfl⟩
  have workers : s.workers = n + 2 := r.entered.stored i (by rw [h]; decide)
  have found : s.backend = backend := r.entered.exchanged i (by rw [h]; decide)
  have selected : chosenBackend s.backend = chosenBackend backend := by rw [found]
  simp only [step, h]
  exact ⟨r.simulates.stutter rfl { r.simulates.shared with } follows, r.inv,
    r.entered.goto rfl (.inl rfl) (.inl rfl) (.inr selected) (fun _ => workers) (fun _ => found)
      (fun _ _ => selected),
    r.sound.goto rfl { same with } (.inl rfl) trivial⟩

end Enter

section Coordinator

/-- A phase of slot 0's coordinator belongs to slot 0. -/
lemma leads (r : Related K backend s a) (h : a.phase i = .leading) : i = 0 :=
  (r.at_phase h).1

/-- Coordinating is a serial step, the start of a job, or the end. -/
lemma step_coordinate (r : Related K backend s a) (h : s.pc i = .coordinate) :
    ∃ b, Related K backend (s.step K backend i choice) b := by
  have lead : a.phase i = .leading := r.follows h
  obtain rfl := r.leads lead
  have ready : 3 ≤ stage (s.pc 0) := by
    rw [h]
    decide
  simp only [step, h]
  cases choice with
  | serial memory staging =>
    have stays : (Dispatch.goto { s with memory, staging } 0 .coordinate) =
        { s with memory, staging } := goto_eq h
    dsimp only
    rw [← stays]
    refine ⟨_, r.simulates.goto (b := { a with out := memory }) rfl rfl
      { r.simulates.shared with out := rfl } rfl,
      ForkJoin.step_inv r.inv (.serial memory lead), r.entered.proceed rfl rfl rfl rfl ready, ?_⟩
    exact r.sound_lead (.inl lead) rfl rfl r.sound.jobEpoch r.sound.terminal
      (fun open_ => r.not_shared lead open_) trivial
  | publish d => exact ⟨a, r.stutter lead ready rfl⟩
  | finish succeeded =>
    have nonzero : (if succeeded then 1 else 2) ≠ 0 := by
      split <;> decide
    refine ⟨_, r.simulates.goto (b := { a with closed := if succeeded then 1 else 2 }) rfl rfl
      { r.simulates.shared with closed := rfl } rfl,
      ForkJoin.step_inv r.inv (.finish _ lead nonzero),
      r.entered.proceed rfl rfl rfl rfl ready, ?_⟩
    refine r.sound_lead (.inl lead) rfl rfl r.sound.jobEpoch ?_
      (fun open_ => r.not_shared lead open_) nonzero
    show (if succeeded then 1 else 2) ≤ 2
    split <;> decide

/-- Writing the pointers is no abstract step. -/
lemma step_writePointers {epoch : ℕ} {d : JobDescriptor} (r : Related K backend s a)
    (h : s.pc i = .writePointers epoch d) : Related K backend (s.step K backend i choice) a := by
  have lead : a.phase i = .leading := r.follows h
  have number : epoch = s.jobEpoch + 1 := r.holds h
  simp only [step, h]
  exact ⟨r.simulates.stutter rfl { r.simulates.shared with } lead, r.inv,
    r.entered.proceed rfl rfl rfl rfl (by rw [h]; exact le_refl 3),
    r.sound_lead (.inl lead) rfl rfl r.sound.jobEpoch r.sound.terminal
      (fun open_ => r.not_shared lead open_) ⟨number, rfl⟩⟩

/-- Writing the shape is no abstract step. -/
lemma step_writeShape {epoch : ℕ} {d : JobDescriptor} (r : Related K backend s a)
    (h : s.pc i = .writeShape epoch d) : Related K backend (s.step K backend i choice) a := by
  have lead : a.phase i = .leading := r.follows h
  obtain ⟨number, pointers⟩ : epoch = s.jobEpoch + 1 ∧ s.descriptor.pointers = d.pointers :=
    r.holds h
  simp only [step, h]
  refine ⟨r.simulates.stutter rfl { r.simulates.shared with } lead, r.inv,
    r.entered.proceed rfl rfl rfl rfl (by rw [h]; exact le_refl 3),
    r.sound_lead (.inl lead) rfl rfl r.sound.jobEpoch r.sound.terminal
      (fun open_ => r.not_shared lead open_) ⟨number, ?_⟩⟩
  rw [pointers]

/-- Clearing the hits is the abstract one. -/
lemma step_clearHits {epoch : ℕ} {d : JobDescriptor} (r : Related K backend s a)
    (h : s.pc i = .clearHits epoch d) : ∃ b, Related K backend (s.step K backend i choice) b := by
  have lead : a.phase i = .leading := r.follows h
  obtain ⟨number, written⟩ : epoch = s.jobEpoch + 1 ∧ s.descriptor = d := r.holds h
  obtain rfl := r.leads lead
  have same : SameControl s s := ⟨rfl, rfl, rfl, rfl, rfl, rfl, rfl⟩
  simp only [step, h]
  exact ⟨_, r.advance (b := { a with hits := 0 }) (.clear lead) rfl
    { r.simulates.shared with hits := rfl } rfl rfl rfl rfl rfl { same with } (.inl rfl)
    (by rw [h]; exact le_refl 3) ⟨number, written⟩⟩

/-- Storing the epoch publishes the job. -/
lemma step_storeEpoch {epoch : ℕ} {d : JobDescriptor} (r : Related K backend s a)
    (h : s.pc i = .storeEpoch epoch d) : ∃ b, Related K backend (s.step K backend i choice) b := by
  have lead : a.phase i = .prepared := r.follows h
  obtain rfl : i = 0 := (r.at_phase lead).1
  obtain ⟨number, written⟩ : epoch = s.jobEpoch + 1 ∧ s.descriptor = d := r.holds h
  have first : (slicePlan K backend n).first ⟨d, s.staging⟩ 0 = 0 := by
    simp [slicePlan, ForkJoin.Plan.ofCuts]
  simp only [step, h]
  refine ⟨_, r.simulates.goto (b := { a with
      jobs := a.jobs ++ [⟨d, s.staging⟩]
      base := a.out
      writers := fun _ => [] })
    (p := .working ⟨d, s.staging⟩ (a.epoch + 1) ((slicePlan K backend n).first ⟨d, s.staging⟩ 0))
    rfl rfl { r.simulates.shared with jobs := ?_, base := r.simulates.shared.out, writers := rfl }
    ⟨rfl, ⟨d, s.staging⟩, rfl, ?_⟩,
    ForkJoin.step_inv r.inv (.publish _ lead),
    r.entered.proceed rfl rfl rfl rfl (by rw [h]; exact le_refl 3), ?_⟩
  · show a.jobs ++ _ = s.published ++ _
    rw [r.simulates.shared.jobs]
  · rw [first, number, r.epoch_eq]
  · refine r.sound_lead (.inr lead) rfl rfl ?_ r.sound.terminal ?_ trivial
    · show epoch = (s.published ++ [(⟨d, s.staging⟩ : PublishedJob)]).length
      rw [number, r.sound.jobEpoch, List.length_append]
      rfl
    · intro _ job last
      cases List.getLast?_concat.symm.trans last
      exact ⟨written, rfl⟩

/-- Reading the workers is no abstract step. -/
lemma step_loadWorkers {epoch : ℕ} {d : JobDescriptor} (r : Related K backend s a)
    (h : s.pc i = .loadWorkers epoch d) : Related K backend (s.step K backend i choice) a := by
  obtain ⟨rfl, job, rfl, phase⟩ := r.follows h
  have workers : s.workers = n + 2 := r.entered.stored 0 (by rw [h]; exact Nat.le_add_left 1 2)
  simp only [step, h]
  refine r.stutter ⟨job, rfl, ?_, ?_, phase⟩ (by rw [h]; exact le_refl 3) trivial
  · simp [slicePlan, ForkJoin.Plan.ofCuts]
  · simp [slicePlan, ForkJoin.Plan.ofCuts, workers]

/-- Reading the workers again is no abstract step. -/
lemma step_reloadWorkers {epoch : ℕ} {d : JobDescriptor} (r : Related K backend s a)
    (h : s.pc i = .reloadWorkers epoch d) : Related K backend (s.step K backend i choice) a := by
  obtain ⟨_, job, descriptor, phase⟩ := r.follows h
  have workers : s.workers = n + 2 := r.entered.stored i (by rw [h]; exact Nat.le_add_left 1 2)
  simp only [step, h]
  exact r.stutter ⟨workers, job, descriptor, phase⟩ (by rw [h]; exact le_refl 3) trivial

/-- Checking the hits is the abstract check. -/
lemma step_checkHits {d : JobDescriptor} (r : Related K backend s a) (h : s.pc i = .checkHits d) :
    ∃ b, Related K backend (s.step K backend i choice) b := by
  obtain ⟨job, rfl, phase⟩ := r.follows h
  obtain rfl : i = 0 := (r.at_phase phase).1
  have counted : a.hits = (slicePlan K backend n).rows job := r.inv.hits_eq phase
  have hits : s.rowHits = job.descriptor.shape.rows := by
    rw [← r.simulates.shared.hits]
    exact counted
  have same : SameControl s s := ⟨rfl, rfl, rfl, rfl, rfl, rfl, rfl⟩
  simp only [step, h]
  rw [if_pos hits]
  exact ⟨_, r.advance (.check phase counted) rfl r.simulates.shared rfl rfl rfl rfl rfl same
    (.inl rfl) (by rw [h]; exact le_refl 3) trivial⟩

end Coordinator

section Worker

/-- A new epoch starts the member. -/
lemma step_pollEpoch {observed : ℕ} (r : Related K backend s a)
    (h : s.pc i = .pollEpoch observed) : ∃ b, Related K backend (s.step K backend i choice) b := by
  have phase : a.phase i = .resting observed := r.follows h
  obtain ⟨other, seen⟩ := r.at_phase phase
  simp only [step, h]
  by_cases known : s.jobEpoch = observed
  · rw [if_pos known]
    exact ⟨a, r.stutter phase (by rw [h]; exact le_refl 3) trivial⟩
  · rw [if_neg known]
    have new : a.epoch ≠ observed := by
      rw [r.epoch_eq]
      exact known
    have nonempty : a.jobs ≠ [] := by
      intro none
      rcases r.inv.epoch_cases with joined | open_
      · exact new (joined.trans seen.symm)
      · rw [ForkJoin.State.epoch, none] at open_
        cases open_
    obtain ⟨job, last⟩ : ∃ job, a.jobs.getLast? = some job :=
      ⟨_, List.getLast?_eq_some_getLast nonempty⟩
    have number : a.epoch = s.jobEpoch := r.epoch_eq
    exact ⟨_, r.advance (.start phase new last) rfl r.simulates.shared
      ⟨other, job, by rw [number]⟩ rfl rfl rfl rfl ⟨rfl, rfl, rfl, rfl, rfl, rfl, rfl⟩ (.inl rfl)
      (by rw [h]; exact le_refl 3) trivial⟩

/-- Reading the pointers is no abstract step. -/
lemma step_readPointers {epoch : ℕ} (r : Related K backend s a)
    (h : s.pc i = .readPointers epoch) : Related K backend (s.step K backend i choice) a := by
  obtain ⟨other, job, phase⟩ := r.follows h
  obtain ⟨current, _⟩ := r.at_phase phase
  obtain ⟨descriptor, _⟩ := r.shared_job current
  simp only [step, h]
  refine r.stutter ⟨other, job, ?_, phase⟩ (by rw [h]; exact le_refl 3) trivial
  rw [descriptor]

/-- Reading the shape is no abstract step. -/
lemma step_readShape {epoch : ℕ} {pointers : JobPointers} (r : Related K backend s a)
    (h : s.pc i = .readShape epoch pointers) : Related K backend (s.step K backend i choice) a := by
  obtain ⟨other, job, rfl, phase⟩ := r.follows h
  obtain ⟨current, _⟩ := r.at_phase phase
  obtain ⟨descriptor, _⟩ := r.shared_job current
  simp only [step, h]
  refine r.stutter ⟨job, ?_, ?_, ?_, ?_⟩ (by rw [h]; exact le_refl 3) trivial
  · rw [descriptor]
  · rw [descriptor]
    rfl
  · rw [descriptor]
    rfl
  · rw [phase, descriptor]
    rfl

/-- A terminal word ends the member. -/
lemma step_pollTerminal {observed : ℕ} (r : Related K backend s a)
    (h : s.pc i = .pollTerminal observed) :
    ∃ b, Related K backend (s.step K backend i choice) b := by
  have phase : a.phase i = .resting observed := r.follows h
  simp only [step, h]
  by_cases running : s.terminal = 0
  · rw [if_pos running]
    exact ⟨a, r.stutter phase (by rw [h]; exact le_refl 3) trivial⟩
  · rw [if_neg running]
    have closed : a.closed ≠ 0 := by
      rw [r.simulates.shared.closed]
      exact running
    exact ⟨_, r.advance (.close phase closed) rfl r.simulates.shared rfl rfl rfl rfl rfl
      ⟨rfl, rfl, rfl, rfl, rfl, rfl, rfl⟩ (.inl rfl) (by rw [h]; exact le_refl 3) running⟩

/-- A row is computed, or the rows are counted. -/
lemma step_rows {epoch first next stop : ℕ} {d : JobDescriptor} (r : Related K backend s a)
    (h : s.pc i = .rows epoch d first next stop) :
    ∃ b, Related K backend (s.step K backend i choice) b := by
  obtain ⟨job, rfl, rfl, rfl, phase⟩ := r.follows h
  obtain ⟨current, _, upper⟩ := r.at_phase phase
  obtain ⟨_, staging⟩ := r.shared_job current
  have ready : 3 ≤ stage (s.pc i) := by rw [h]; exact le_refl 3
  simp only [step, h]
  -- a row is computed, or the slice is done and its rows are added
  by_cases more : next < (slicePlan K backend n).stop job i
  · rw [if_pos more]
    have chosen : (if i = 0 then s.selected else chosenBackend backend) = chosenBackend backend := by
      split
      · rename_i leads
        exact r.entered.selected (leads ▸ ready)
      · rfl
    rw [chosen]
    refine ⟨_, r.advance (.compute phase more) rfl
      { r.simulates.shared with out := ?_, writers := ?_ } ⟨job, rfl, rfl, rfl, rfl⟩ rfl rfl rfl rfl
      ⟨rfl, rfl, rfl, rfl, rfl, rfl, rfl⟩ (.inl rfl) ready trivial⟩
    · show Function.update a.out _ _ = Function.update s.memory _ _
      rw [r.simulates.shared.out, staging]
      rfl
    · show Function.update a.writers _ _ = Function.update s.writers _ _
      rw [r.simulates.shared.writers]
  · rw [if_neg more]
    have done : next = (slicePlan K backend n).stop job i := by omega
    rw [done] at phase
    have shared : Matches { s with
        rowHits := s.rowHits +
          ((slicePlan K backend n).stop job i - (slicePlan K backend n).first job i)
        left := Function.update s.left i (s.left i + 1) } { a with
        hits := a.hits + ((slicePlan K backend n).stop job i - (slicePlan K backend n).first job i)
        left := Function.update a.left i (a.left i + 1) } :=
      { r.simulates.shared with
        hits := congrArg (· + _) r.simulates.shared.hits
        left := by
          show Function.update a.left i _ = Function.update s.left i _
          rw [r.simulates.shared.left] }
    refine ⟨_, r.advance (.add phase) rfl shared ?_ rfl rfl rfl rfl
      ⟨rfl, rfl, rfl, rfl, rfl, rfl, rfl⟩ (.inl rfl) ready ?_⟩
    · by_cases leads : i = 0
      · rw [if_pos leads]
        exact ⟨leads, job, rfl, rfl⟩
      · rw [if_neg leads]
        exact ⟨rfl, job, rfl, rfl⟩
    · split <;> trivial

end Worker

section Barrier

/-- Reading the generation aligns the member. -/
lemma step_loadGeneration {epoch workers : ℕ} {d : JobDescriptor} (r : Related K backend s a)
    (h : s.pc i = .loadGeneration epoch d workers) :
    ∃ b, Related K backend (s.step K backend i choice) b := by
  obtain ⟨all, job, rfl, phase⟩ := r.follows h
  simp only [step, h]
  refine ⟨_, r.advance (.align phase) rfl r.simulates.shared ⟨all, job, rfl, ?_⟩ rfl rfl rfl rfl
    ⟨rfl, rfl, rfl, rfl, rfl, rfl, rfl⟩ (.inl rfl) (by rw [h]; exact le_refl 3) trivial⟩
  rw [r.simulates.shared.generation]

/-- Arriving is the abstract arrival, or the last one. -/
lemma step_arrive {epoch workers generation : ℕ} {d : JobDescriptor} (r : Related K backend s a)
    (h : s.pc i = .arrive epoch d workers generation) :
    ∃ b, Related K backend (s.step K backend i choice) b := by
  obtain ⟨rfl, job, rfl, phase⟩ := r.follows h
  have ready : 3 ≤ stage (s.pc i) := by rw [h]; exact le_refl 3
  have shared : Matches { s with arrivals := s.arrivals + 1 }
      { a with arrivals := a.arrivals + 1 } :=
    { r.simulates.shared with arrivals := congrArg (· + 1) r.simulates.shared.arrivals }
  have count : a.arrivals + 1 = Fintype.card (Fin (n + 2)) ↔ s.arrivals + 1 = n + 2 := by
    rw [Fintype.card_fin, r.simulates.shared.arrivals]
  simp only [step, h]
  by_cases full : s.arrivals + 1 = n + 2
  · rw [if_pos full]
    exact ⟨_, r.advance (.arriveLast phase (count.mpr full)) rfl shared ⟨job, rfl, rfl⟩ rfl rfl rfl
      rfl ⟨rfl, rfl, rfl, rfl, rfl, rfl, rfl⟩ (.inl rfl) ready trivial⟩
  · rw [if_neg full]
    exact ⟨_, r.advance (.arrive phase (fun e => full (count.mp e))) rfl shared ⟨job, rfl, rfl⟩ rfl
      rfl rfl rfl ⟨rfl, rfl, rfl, rfl, rfl, rfl, rfl⟩ (.inl rfl) ready trivial⟩

/-- Resetting the arrivals is the abstract reset. -/
lemma step_resetArrivals {epoch : ℕ} {d : JobDescriptor} (r : Related K backend s a)
    (h : s.pc i = .resetArrivals epoch d) :
    ∃ b, Related K backend (s.step K backend i choice) b := by
  obtain ⟨job, rfl, phase⟩ := r.follows h
  simp only [step, h]
  exact ⟨_, r.advance (.reset phase) rfl { r.simulates.shared with arrivals := rfl } ⟨job, rfl, rfl⟩
    rfl rfl rfl rfl ⟨rfl, rfl, rfl, rfl, rfl, rfl, rfl⟩ (.inl rfl) (by rw [h]; exact le_refl 3)
    trivial⟩

/-- Slot 0 goes on with `publish`, the others with their loop. -/
lemma follows_joined {epoch : ℕ} {job : PublishedJob} :
    Follows K backend i (Dispatch.joined i epoch job.descriptor)
      (ForkJoin.after 0 i job epoch) := by
  unfold Dispatch.joined ForkJoin.after
  by_cases leads : i = 0
  · rw [if_pos leads, if_pos leads]
    exact ⟨job, rfl, rfl⟩
  · rw [if_neg leads, if_neg leads]
    rfl

/-- Where a processor has joined, nothing need hold. -/
lemma holds_joined {epoch : ℕ} {d : JobDescriptor} : s.Holds (Dispatch.joined i epoch d) := by
  unfold Dispatch.joined
  split <;> trivial

/-- Opening the barrier is the abstract release. -/
lemma step_release {epoch : ℕ} {d : JobDescriptor} (r : Related K backend s a)
    (h : s.pc i = .release epoch d) : ∃ b, Related K backend (s.step K backend i choice) b := by
  obtain ⟨job, rfl, phase⟩ := r.follows h
  have open_ := (r.at_phase phase).1.open_
  rw [ForkJoin.State.epoch, r.simulates.shared.jobs, r.simulates.shared.generation] at open_
  simp only [step, h]
  refine ⟨_, r.advance (.release phase) rfl { r.simulates.shared with generation := ?_ }
    follows_joined rfl rfl rfl rfl ⟨rfl, rfl, rfl, rfl, rfl, rfl, rfl⟩ (.inr ?_)
    (by rw [h]; exact le_refl 3) holds_joined⟩
  · exact congrArg (· + 1) r.simulates.shared.generation
  · exact ForkJoin.not_open (m := s.generation + 1) open_

/-- Leaving the barrier is the abstract leave. -/
lemma step_spin {epoch generation : ℕ} {d : JobDescriptor} (r : Related K backend s a)
    (h : s.pc i = .spin epoch d generation) :
    ∃ b, Related K backend (s.step K backend i choice) b := by
  obtain ⟨job, rfl, phase⟩ := r.follows h
  simp only [step, h]
  by_cases waits : s.generation = generation
  · rw [if_pos waits]
    exact ⟨a, r⟩
  · rw [if_neg waits]
    have released : a.generation ≠ generation := by
      rw [r.simulates.shared.generation]
      exact waits
    exact ⟨_, r.advance (.leave phase released) rfl r.simulates.shared follows_joined rfl rfl rfl rfl
      ⟨rfl, rfl, rfl, rfl, rfl, rfl, rfl⟩ (.inl rfl) (by rw [h]; exact le_refl 3) holds_joined⟩

end Barrier

section Status

/-- Reading the rejection is no abstract step. -/
lemma step_statusRejection (r : Related K backend s a) (h : s.pc i = .statusRejection) :
    Related K backend (s.step K backend i choice) a := by
  have phase : a.phase i = .finished := r.follows h
  have ended : s.terminal ≠ 0 := r.holds h
  simp only [step, h]
  rw [if_neg (not_not.mpr r.sound.rejection)]
  exact r.stutter phase (by rw [h]; exact le_refl 3) ended

/-- Reading the terminal word is no abstract step. -/
lemma step_statusTerminal (r : Related K backend s a) (h : s.pc i = .statusTerminal) :
    Related K backend (s.step K backend i choice) a := by
  have phase : a.phase i = .finished := r.follows h
  have ended : s.terminal ≠ 0 := r.holds h
  simp only [step, h]
  rw [if_neg ended]
  exact r.stutter phase (by rw [h]; exact le_refl 3) ⟨ended, rfl⟩

/-- Reading the epoch for the status is no abstract step. -/
lemma step_statusEpoch {terminal : ℕ} (r : Related K backend s a)
    (h : s.pc i = .statusEpoch terminal) : Related K backend (s.step K backend i choice) a := by
  have phase : a.phase i = .finished := r.follows h
  obtain ⟨ended, rfl⟩ : s.terminal ≠ 0 ∧ terminal = s.terminal := r.holds h
  have complete : s.Complete ↔ ¬ ((s.terminal = 1 ∧ s.jobEpoch ≠ s.expectedJobs) ∨
      (s.terminal = 2 ∧ s.expectedJobs < s.jobEpoch)) := by
    unfold Complete
    omega
  simp only [step, h]
  split
  · rename_i wrong
    refine r.stutter phase (by rw [h]; exact le_refl 3) ⟨ended, ?_⟩
    rw [complete]
    exact ⟨nofun, fun right => absurd wrong right⟩
  · rename_i right
    exact r.stutter phase (by rw [h]; exact le_refl 3) ⟨ended, complete.mpr right, rfl⟩

/-- Once slot 0 has ended the token, every job is joined and nobody stands at the barrier. -/
lemma quiet (r : Related K backend s a) (ended : s.terminal ≠ 0) :
    s.arrivals = 0 ∧ s.generation = s.jobEpoch := by
  have closed : a.closed ≠ 0 := by
    rw [r.simulates.shared.closed]
    exact ended
  have joined := r.inv.closed closed
  rw [← r.simulates.shared.arrivals, ← r.simulates.shared.generation, ← r.epoch_eq]
  exact ⟨r.inv.quiet joined, joined.symm⟩

/-- Reading the arrivals for the status is no abstract step. -/
lemma step_statusArrivals {epoch : ℕ} (r : Related K backend s a)
    (h : s.pc i = .statusArrivals epoch) : Related K backend (s.step K backend i choice) a := by
  have phase : a.phase i = .finished := r.follows h
  obtain ⟨ended, complete, number⟩ : s.terminal ≠ 0 ∧ s.Complete ∧ epoch = s.jobEpoch := r.holds h
  simp only [step, h]
  rw [if_neg (not_not.mpr (r.quiet ended).1)]
  exact r.stutter phase (by rw [h]; exact le_refl 3) ⟨ended, complete, number⟩

/-- Reading the generation for the status is no abstract step. -/
lemma step_statusGeneration {epoch : ℕ} (r : Related K backend s a)
    (h : s.pc i = .statusGeneration epoch) : Related K backend (s.step K backend i choice) a := by
  have phase : a.phase i = .finished := r.follows h
  obtain ⟨ended, complete, rfl⟩ : s.terminal ≠ 0 ∧ s.Complete ∧ epoch = s.jobEpoch := r.holds h
  simp only [step, h]
  rw [if_neg (not_not.mpr (r.quiet ended).2)]
  exact r.stutter phase (by rw [h]; exact le_refl 3) ⟨ended, iff_of_true rfl complete⟩

end Status

/-- Every access keeps the dispatch in step with the protocol. -/
theorem step (r : Related K backend s a) (small : backend ≤ 1) :
    ∃ b, Related K backend (s.step K backend i choice) b := by
  cases h : s.pc i with
  | enter => exact ⟨a, r.step_enter small h⟩
  | exchangeBackend => exact ⟨a, r.step_exchangeBackend h⟩
  | loadBackend => exact ⟨a, r.step_loadBackend h⟩
  | coordinate => exact r.step_coordinate h
  | writePointers => exact ⟨a, r.step_writePointers h⟩
  | writeShape => exact ⟨a, r.step_writeShape h⟩
  | clearHits => exact r.step_clearHits h
  | storeEpoch => exact r.step_storeEpoch h
  | loadWorkers => exact ⟨a, r.step_loadWorkers h⟩
  | reloadWorkers => exact ⟨a, r.step_reloadWorkers h⟩
  | checkHits => exact r.step_checkHits h
  | reject => exact (r.at_phase (r.follows h)).elim
  | pollEpoch => exact r.step_pollEpoch h
  | readPointers => exact ⟨a, r.step_readPointers h⟩
  | readShape => exact ⟨a, r.step_readShape h⟩
  | pollTerminal => exact r.step_pollTerminal h
  | rows => exact r.step_rows h
  | loadGeneration => exact r.step_loadGeneration h
  | arrive => exact r.step_arrive h
  | resetArrivals => exact r.step_resetArrivals h
  | release => exact r.step_release h
  | spin => exact r.step_spin h
  | statusRejection => exact ⟨a, r.step_statusRejection h⟩
  | statusTerminal => exact ⟨a, r.step_statusTerminal h⟩
  | statusEpoch => exact ⟨a, r.step_statusEpoch h⟩
  | statusArrivals => exact ⟨a, r.step_statusArrivals h⟩
  | statusGeneration => exact ⟨a, r.step_statusGeneration h⟩
  | returned code =>
    simp only [Dispatch.step, h]
    exact ⟨a, r⟩

end Related

end Dispatch

end Promptboot
