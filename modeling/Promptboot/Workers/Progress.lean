import Promptboot.Engine.ZeroKernels
import Promptboot.Workers.Joining

/-!
# Worker jobs: progress

A dispatch does not get stuck. Between two jobs the coordinator comes by itself from one of its
accesses to the next (`led`), a published job is joined by all (`published_joined`), so slot 0
always comes back to its engine (`coordinates`); when the engine ends the token, the steps that the
participants have left run out (`ended_returned`).

The main result is `run_correct`: the state of every interleaving is correct, and every schedule
that lets all participants run again and again computes the products that are asked for and brings
everybody back.
-/

namespace Promptboot

open FairSchedule
open ForkJoin (Phase)

namespace Dispatch

variable {n : ℕ} {K : Kernels} {backend : ℕ} {s t : Dispatch n} {a b : Protocol n}
  {i k : Fin (n + 2)} {choice : EngineChoice}

section Leading

variable {turns : ℕ → Turn n} {u : ℕ}

/-- The state after so many turns. -/
abbrev after (K : Kernels) (backend : ℕ) (turns : ℕ → Turn n) (s : Dispatch n) : ℕ → Dispatch n :=
  trace (fun s turn => s.step K backend turn.1 turn.2) turns s

/-- The coordinator comes from one of its accesses to the next; the others do not move it. -/
lemma led (P : Pc → Prop) (goal : Dispatch n → Prop) (rank : Pc → ℕ) (small : backend ≤ 1)
    (fair : Fair Prod.fst turns)
    (own : ∀ s a t, Related K backend s a → P (s.pc 0) →
      goal (s.step K backend 0 (turns t).2) ∨ P ((s.step K backend 0 (turns t).2).pc 0) ∧
        rank ((s.step K backend 0 (turns t).2).pc 0) < rank (s.pc 0))
    (known : Known K backend (after K backend turns s u))
    (stands : P ((after K backend turns s u).pc 0)) :
    ∃ v, u ≤ v ∧ Known K backend (after K backend turns s v) ∧
      goal (after K backend turns s v) := by
  have moves : ∀ s t, (Known K backend s ∧ P (s.pc 0)) → ¬(Known K backend s ∧ goal s) →
      Advances Prod.fst (fun s => Known K backend s ∧ P (s.pc 0))
        (fun s => Known K backend s ∧ goal s) (fun _ i => i = 0) (fun s => rank (s.pc 0)) s (turns t)
        (s.step K backend (turns t).1 (turns t).2) := by
    intro s t ⟨known, stands⟩ _
    have next : Known K backend (s.step K backend (turns t).1 (turns t).2) := known.step small
    by_cases leads : (turns t).1 = 0
    · rw [leads] at next ⊢
      obtain ⟨⟨a, r⟩, _⟩ := known
      rcases own s a t r stands with done | ⟨on, lower⟩
      · exact .reached ⟨next, done⟩
      · exact .sinks ⟨next, on⟩ lower
    · have same : (s.step K backend (turns t).1 (turns t).2).pc 0 = s.pc 0 :=
        step_pc_of_ne (Ne.symm leads)
      exact .waits ⟨next, by rwa [same]⟩ (by rw [same]) leads fun _ helps => helps
  have some : ∀ s : Dispatch n, (Known K backend s ∧ P (s.pc 0)) →
      ¬(Known K backend s ∧ goal s) → ∃ i : Fin (n + 2), i = 0 := fun _ _ _ => ⟨0, rfl⟩
  exact eventually fair some moves ⟨known, stands⟩

/-- While the coordinator has a job in hand the token goes on. -/
lemma Related.joining (r : Related K backend s a) (room : s.Room) {d : JobDescriptor}
    (inJob : InJob d (s.pc 0)) :
    Joining K backend d s.jobEpoch s.descriptor.shape.rows s := by
  refine ⟨⟨⟨a, r⟩, room⟩, inJob, rfl, rfl, ?_⟩
  have of_open (open_ : a.epoch = a.generation + 1) : s.terminal = 0 := by
    by_contra ended
    rw [← r.simulates.shared.closed] at ended
    exact ForkJoin.not_open (r.inv.closed ended) open_
  cases h : s.pc 0 <;> rw [h] at inJob <;> first
    | exact inJob.elim
    | skip
  case loadWorkers =>
    obtain ⟨_, job, _, phase⟩ := r.follows h
    exact of_open (r.at_phase phase).1.open_
  case reloadWorkers =>
    obtain ⟨_, job, _, phase⟩ := r.follows h
    exact of_open (r.at_phase phase).open_
  case rows =>
    obtain ⟨job, _, _, _, phase⟩ := r.follows h
    exact of_open (r.at_phase phase).1.open_
  case loadGeneration =>
    obtain ⟨_, job, _, phase⟩ := r.follows h
    exact of_open (r.at_phase phase).open_
  case arrive =>
    obtain ⟨_, job, _, phase⟩ := r.follows h
    exact of_open (r.at_phase phase).1.open_
  case resetArrivals =>
    obtain ⟨job, _, phase⟩ := r.follows h
    exact of_open (r.at_phase phase).1.open_
  case release =>
    obtain ⟨job, _, phase⟩ := r.follows h
    exact of_open (r.at_phase phase).1.open_
  case spin =>
    obtain ⟨job, _, phase⟩ := r.follows h
    rcases r.at_phase phase with ⟨current, _⟩ | ⟨_, _, own⟩
    · exact of_open current.open_
    · rw [← r.simulates.shared.closed]
      exact (own rfl).2.1

/-- The coordinator is about to publish `d`. -/
def Publishing (d : JobDescriptor) : Pc → Prop
  | .writePointers _ e | .writeShape _ e | .clearHits _ e | .storeEpoch _ e => e = d
  | _ => False

/-- The accesses that publish a job. -/
def publishLeft : Pc → ℕ
  | .writePointers _ _ => 3
  | .writeShape _ _ => 2
  | .clearHits _ _ => 1
  | _ => 0

/-- A job that is published is joined by all. -/
lemma published_joined {d : JobDescriptor} (small : backend ≤ 1) (fair : Fair Prod.fst turns)
    (known : Known K backend (after K backend turns s u))
    (inJob : InJob d ((after K backend turns s u).pc 0)) :
    ∃ v, u ≤ v ∧ Known K backend (after K backend turns s v) ∧
      (after K backend turns s v).pc 0 = .checkHits d := by
  obtain ⟨⟨a, r⟩, room⟩ := known
  have joining := r.joining room inJob
  exact eventually fair (fun _ joining _ => joining.someone)
    (fun s t joining _ => joining.advances small (turns t)) joining

/-- The coordinator publishes the job that its engine has asked for, and it is joined by all. -/
lemma publishing_joined {d : JobDescriptor} (small : backend ≤ 1) (fair : Fair Prod.fst turns)
    (known : Known K backend (after K backend turns s u))
    (publishing : Publishing d ((after K backend turns s u).pc 0)) :
    ∃ v, u ≤ v ∧ Known K backend (after K backend turns s v) ∧
      (after K backend turns s v).pc 0 = .checkHits d := by
  have own : ∀ (s : Dispatch n) (a : Protocol n) t, Related K backend s a →
      Publishing d (s.pc 0) →
      InJob d ((s.step K backend 0 (turns t).2).pc 0) ∨
        Publishing d ((s.step K backend 0 (turns t).2).pc 0) ∧
          publishLeft ((s.step K backend 0 (turns t).2).pc 0) < publishLeft (s.pc 0) := by
    intro s a t _ publishing
    cases h : s.pc 0 <;> rw [h] at publishing <;> first
      | exact publishing.elim
      | skip
    all_goals
      obtain rfl := publishing
      simp only [step, h, goto_self]
    case storeEpoch => exact .inl rfl
    all_goals exact .inr ⟨rfl, Nat.lt_succ_self _⟩
  obtain ⟨v, later, known, inJob⟩ := led (Publishing d) (fun s => InJob d (s.pc 0)) publishLeft small fair own
    known publishing
  obtain ⟨w, last, known, done⟩ := published_joined small fair known inJob
  exact ⟨w, later.trans last, known, done⟩

/-- The accesses of the coordinator between its entry and the engine, and from a job back to it. -/
def freeLeft : Pc → ℕ
  | .enter => 3
  | .exchangeBackend => 2
  | .loadBackend | .checkHits _ => 1
  | _ => 0

/-- Nothing but its own accesses keeps the coordinator from its engine. -/
lemma free_coordinates (small : backend ≤ 1) (fair : Fair Prod.fst turns)
    (known : Known K backend (after K backend turns s u))
    (free : 0 < freeLeft ((after K backend turns s u).pc 0)) :
    ∃ v, u ≤ v ∧ Known K backend (after K backend turns s v) ∧
      (after K backend turns s v).pc 0 = .coordinate := by
  have own : ∀ (s : Dispatch n) (a : Protocol n) t, Related K backend s a →
      0 < freeLeft (s.pc 0) →
      (s.step K backend 0 (turns t).2).pc 0 = .coordinate ∨
        0 < freeLeft ((s.step K backend 0 (turns t).2).pc 0) ∧
          freeLeft ((s.step K backend 0 (turns t).2).pc 0) < freeLeft (s.pc 0) := by
    intro s a t r free
    cases h : s.pc 0 <;> rw [h] at free <;> simp only [step, h]
    case enter =>
      rw [if_neg (by rw [Fin.val_zero]; omega)]
      by_cases empty : s.workers = 0
      · rw [if_pos empty, goto_self]
        exact .inr ⟨Nat.succ_pos 1, Nat.lt_succ_self 2⟩
      · have found : s.workers = n + 2 := r.entered.workers.resolve_left empty
        rw [if_neg empty, if_pos found, goto_self]
        exact .inr ⟨Nat.succ_pos 1, Nat.lt_succ_self 2⟩
    case exchangeBackend =>
      by_cases fresh : s.backend = noBackend
      · rw [if_pos fresh, goto_self]
        exact .inr ⟨Nat.succ_pos 0, Nat.lt_succ_self 1⟩
      · have found : s.backend = backend := r.entered.codes.resolve_left fresh
        rw [if_neg fresh, if_pos found, goto_self]
        exact .inr ⟨Nat.succ_pos 0, Nat.lt_succ_self 1⟩
    case loadBackend => exact .inl goto_self
    case checkHits d =>
      obtain ⟨job, last, rfl, computed⟩ := r.correct.product 0 d h
      rw [if_pos computed.hits]
      exact .inl goto_self
    all_goals exact absurd free (lt_irrefl 0)
  exact led (fun pc => 0 < freeLeft pc) (fun s => s.pc 0 = .coordinate) freeLeft small fair own known
    free

/-- The coordinator comes back to its engine, unless the token has ended. -/
lemma coordinates (small : backend ≤ 1) (fair : Fair Prod.fst turns)
    (known : Known K backend (after K backend turns s u)) :
    ∃ v, u ≤ v ∧ Known K backend (after K backend turns s v) ∧
      ((after K backend turns s v).pc 0 = .coordinate ∨
        (after K backend turns s v).terminal ≠ 0) := by
  obtain ⟨⟨a, r⟩, _⟩ := id known
  -- four stretches: on its way, behind a joined job, publishing, and after the end
  have free (u : ℕ) (known : Known K backend (after K backend turns s u))
      (free : 0 < freeLeft ((after K backend turns s u).pc 0)) :
      ∃ v, u ≤ v ∧ Known K backend (after K backend turns s v) ∧
        ((after K backend turns s v).pc 0 = .coordinate ∨
          (after K backend turns s v).terminal ≠ 0) := by
    obtain ⟨v, later, known, back⟩ := free_coordinates small fair known free
    exact ⟨v, later, known, .inl back⟩
  have checks {d : JobDescriptor} (joined : ∃ v, u ≤ v ∧ Known K backend (after K backend turns s v) ∧
      (after K backend turns s v).pc 0 = .checkHits d) :
      ∃ v, u ≤ v ∧ Known K backend (after K backend turns s v) ∧
        ((after K backend turns s v).pc 0 = .coordinate ∨
          (after K backend turns s v).terminal ≠ 0) := by
    obtain ⟨v, later, known, at_check⟩ := joined
    obtain ⟨w, last, back⟩ := free v known (by rw [at_check]; exact Nat.succ_pos 0)
    exact ⟨w, later.trans last, back⟩
  have publishes {d : JobDescriptor} (publishing : Publishing d ((after K backend turns s u).pc 0)) :=
    checks (publishing_joined small fair known publishing)
  have joins {d : JobDescriptor} (inJob : InJob d ((after K backend turns s u).pc 0)) :=
    checks (published_joined small fair known inJob)
  have ended (stands : (after K backend turns s u).Holds ((after K backend turns s u).pc 0) →
      (after K backend turns s u).terminal ≠ 0) :
      ∃ v, u ≤ v ∧ Known K backend (after K backend turns s v) ∧
        ((after K backend turns s v).pc 0 = .coordinate ∨
          (after K backend turns s v).terminal ≠ 0) :=
    ⟨u, le_rfl, known, .inr (stands (r.sound.locals 0))⟩
  -- slot 0 stands in one of them, wherever it is
  cases h : (after K backend turns s u).pc 0
  case enter | exchangeBackend | loadBackend | checkHits =>
    exact free u known (by rw [h]; exact Nat.succ_pos _)
  case coordinate => exact ⟨u, le_rfl, known, .inl h⟩
  case writePointers | writeShape | clearHits | storeEpoch => exact publishes (by rw [h]; rfl)
  case loadWorkers | rows | reloadWorkers | loadGeneration | arrive | resetArrivals | release
      | spin => exact joins (by rw [h]; rfl)
  case reject => exact (r.at_phase (r.follows h)).elim
  -- only the others poll
  case pollEpoch observed =>
    have phase : a.phase 0 = .resting observed := r.follows h
    exact absurd rfl (r.at_phase phase).1
  case pollTerminal observed =>
    have phase : a.phase 0 = .resting observed := r.follows h
    exact absurd rfl (r.at_phase phase).1
  case readPointers => exact absurd rfl (r.follows h).1
  case readShape => exact absurd rfl (r.follows h).1
  case statusRejection | statusTerminal => exact ended (by rw [h]; exact id)
  case statusEpoch | statusArrivals | statusGeneration | returned =>
    exact ended (by rw [h]; exact And.left)

/-- An engine that only wants to end the token gets to do so. -/
lemma finishes (small : backend ≤ 1) (fair : Fair Prod.fst turns)
    (finish : ∀ t, ∃ succeeded, (turns t).2 = .finish succeeded)
    (known : Known K backend (after K backend turns s u)) :
    ∃ v, u ≤ v ∧ Known K backend (after K backend turns s v) ∧
      (after K backend turns s v).terminal ≠ 0 := by
  obtain ⟨v, later, known, at_engine | ended⟩ := coordinates small fair known
  · have own : ∀ (s : Dispatch n) (a : Protocol n) t, Related K backend s a →
        s.pc 0 = .coordinate →
        (s.step K backend 0 (turns t).2).terminal ≠ 0 ∨
          (s.step K backend 0 (turns t).2).pc 0 = .coordinate ∧
            freeLeft ((s.step K backend 0 (turns t).2).pc 0) < freeLeft (s.pc 0) := by
      intro s a t _ h
      obtain ⟨succeeded, chosen⟩ := finish t
      simp only [step, h, chosen]
      refine .inl ?_
      show (if succeeded then 1 else 2) ≠ 0
      split <;> decide
    obtain ⟨w, last, done⟩ := led (· = .coordinate) (fun s => s.terminal ≠ 0) freeLeft small fair own
      known at_engine
    exact ⟨w, later.trans last, done⟩
  · exact ⟨v, later, known, ended⟩

end Leading

section Returning

variable {turns : ℕ → Turn n} {u : ℕ}

/-- Everybody has returned the verdict on the token. -/
def AllReturned (s : Dispatch n) : Prop :=
  s.terminal ≠ 0 ∧ ∀ i, ∃ code, s.pc i = .returned code ∧ (code = 0 ↔ s.Complete)

/-- Who has no step left has returned. -/
lemma Related.allReturned (r : Related K backend s a) (ended : s.terminal ≠ 0)
    (none : ∀ i, rank (s.pc i) = 0) : s.AllReturned := by
  refine ⟨ended, fun i => ?_⟩
  have ending := r.ending ended i
  have last := none i
  cases h : s.pc i <;> rw [h] at ending last
  case returned code => exact ⟨code, rfl, (r.holds h).2⟩
  all_goals first
    | exact ending.elim
    | cases last

/-- Once the token has ended, all participants return. -/
lemma ended_returned (small : backend ≤ 1) (fair : Fair Prod.fst turns)
    (known : Known K backend (after K backend turns s u))
    (ended : (after K backend turns s u).terminal ≠ 0) :
    ∃ v, u ≤ v ∧ (after K backend turns s v).AllReturned := by
  -- the rank is what all have left, and whoever has not returned helps
  have some : ∀ s : Dispatch n, (Known K backend s ∧ s.terminal ≠ 0) → ¬s.AllReturned →
      ∃ i, rank (s.pc i) ≠ 0 := by
    rintro s ⟨⟨⟨a, r⟩, _⟩, ended⟩ short
    by_contra none
    exact short (r.allReturned ended fun i => not_not.mp fun left => none ⟨i, left⟩)
  have moves : ∀ (s : Dispatch n) t, (Known K backend s ∧ s.terminal ≠ 0) → ¬s.AllReturned →
      Advances Prod.fst (fun s => Known K backend s ∧ s.terminal ≠ 0) AllReturned
        (fun s i => rank (s.pc i) ≠ 0) (fun s => ∑ i, rank (s.pc i)) s (turns t)
        (s.step K backend (turns t).1 (turns t).2) := by
    rintro s t ⟨known, ended⟩ _
    have next : Known K backend (s.step K backend (turns t).1 (turns t).2) := known.step small
    obtain ⟨⟨a, r⟩, _⟩ := known
    have terminal : (s.step K backend (turns t).1 (turns t).2).terminal = s.terminal :=
      (r.step_ended ended).1
    have still : (s.step K backend (turns t).1 (turns t).2).terminal ≠ 0 := by
      rw [terminal]
      exact ended
    have own : rank ((s.step K backend (turns t).1 (turns t).2).pc (turns t).1) ≤
        rank (s.pc (turns t).1) - 1 := r.step_rank ended
    by_cases helps : rank (s.pc (turns t).1) = 0
    · have same (k : Fin (n + 2)) :
          rank ((s.step K backend (turns t).1 (turns t).2).pc k) = rank (s.pc k) := by
        by_cases mine : k = (turns t).1
        · rw [mine]
          omega
        · rw [step_pc_of_ne mine]
      refine .waits ⟨next, still⟩ (Finset.sum_congr rfl fun k _ => same k) (not_not.mpr helps) ?_
      intro k left
      rw [same]
      exact left
    · refine .sinks ⟨next, still⟩ (Finset.sum_lt_sum (fun k _ => ?_) ⟨(turns t).1,
        Finset.mem_univ _, by omega⟩)
      by_cases mine : k = (turns t).1
      · rw [mine]
        omega
      · rw [step_pc_of_ne mine]
  exact eventually fair some moves ⟨known, ended⟩

/-- With a backend that stands for no instructions all participants return at once. -/
lemma rejected_returned (rejected : Rejected s) (large : 1 < backend) (fair : Fair Prod.fst turns) :
    ∃ v, ∀ i, (after K backend turns s v).pc i = .returned 1 := by
  have some : ∀ s : Dispatch n, Rejected s → ¬(∀ i, s.pc i = .returned 1) →
      ∃ i, s.pc i = .enter := by
    intro s rejected short
    obtain ⟨i, stays⟩ := not_forall.mp short
    exact ⟨i, (rejected.pc i).resolve_right stays⟩
  have moves : ∀ (s : Dispatch n) t, Rejected s → ¬(∀ i, s.pc i = .returned 1) →
      Advances Prod.fst Rejected (fun s => ∀ i, s.pc i = .returned 1) (fun s i => s.pc i = .enter)
        (fun s => ∑ i, rank (s.pc i)) s (turns t) (s.step K backend (turns t).1 (turns t).2) := by
    intro s t rejected _
    have next : Rejected (s.step K backend (turns t).1 (turns t).2) :=
      rejected.step large (turns t).1 (turns t).2
    rcases rejected.pc (turns t).1 with h | h
    · have out : (s.step K backend (turns t).1 (turns t).2).pc (turns t).1 = .returned 1 := by
        simp only [step, h]
        rw [if_pos (.inr (.inr large)), goto_self]
      refine .sinks next (Finset.sum_lt_sum (fun k _ => ?_) ⟨(turns t).1, Finset.mem_univ _, ?_⟩)
      · by_cases mine : k = (turns t).1
        · rw [mine, out]
          exact Nat.zero_le _
        · rw [step_pc_of_ne mine]
      · rw [out, h]
        exact Nat.succ_pos 9
    · have same : s.step K backend (turns t).1 (turns t).2 = s := by simp only [step, h]
      rw [same]
      refine .waits rejected rfl (fun entering => ?_) fun _ helps => helps
      rw [h] at entering
      cases entering
  have reached : ∃ v, 0 ≤ v ∧ ∀ i, (after K backend turns s v).pc i = .returned 1 :=
    eventually fair some moves rejected
  obtain ⟨v, _, done⟩ := reached
  exact ⟨v, done⟩

end Returning

/-- What every schedule that lets all participants run again and again brings about from a state: the
coordinator comes back to its engine, a job that the engine has asked for is computed, and if the
engine only wants to end the token, everybody returns the verdict on it. -/
structure Progresses (K : Kernels) (backend : ℕ) (turns : ℕ → Turn n) (s : Dispatch n) :
    Prop where
  engine : backend ≤ 1 → ∃ t, (run K backend ((List.range t).map turns) s).pc 0 = .coordinate ∨
    (run K backend ((List.range t).map turns) s).terminal ≠ 0
  computes : ∀ epoch d, s.pc 0 = .writePointers epoch d → ∃ t job, d = job.descriptor ∧
    (run K backend ((List.range t).map turns) s).pc 0 = .checkHits d ∧
    (run K backend ((List.range t).map turns) s).Computed K backend job
  returns : (∀ t, ∃ succeeded, (turns t).2 = .finish succeeded) → ∃ t,
    (backend ≤ 1 → (run K backend ((List.range t).map turns) s).terminal ≠ 0) ∧
    ∀ slot, ∃ code, (run K backend ((List.range t).map turns) s).pc slot = .returned code ∧
      (backend ≤ 1 → (code = 0 ↔ (run K backend ((List.range t).map turns) s).Complete))

section Progresses

variable {turns : ℕ → Turn n}

/-- The run of the first turns is the state after them. -/
lemma run_turns (t : ℕ) : run K backend ((List.range t).map turns) s = after K backend turns s t :=
  (trace_eq_foldl t).symm

/-- With a known backend every fair schedule progresses. -/
lemma Known.progresses (known : Known K backend s) (small : backend ≤ 1)
    (fair : Fair Prod.fst turns) : s.Progresses K backend turns := by
  have start : Known K backend (after K backend turns s 0) := known
  refine ⟨fun _ => ?_, fun epoch d asked => ?_, fun finish => ?_⟩
  · obtain ⟨t, _, _, back⟩ := coordinates small fair start
    refine ⟨t, ?_⟩
    rw [run_turns]
    exact back
  · have publishing : Publishing d ((after K backend turns s 0).pc 0) := by
      show Publishing d (s.pc 0)
      rw [asked]
      rfl
    obtain ⟨t, _, ⟨⟨a, r⟩, _⟩, joined⟩ := publishing_joined small fair start publishing
    obtain ⟨job, _, same, computed⟩ := r.correct.product 0 d joined
    refine ⟨t, job, same, ?_⟩
    rw [run_turns]
    exact ⟨joined, computed⟩
  · obtain ⟨t, _, known, ended⟩ := finishes small fair finish start
    obtain ⟨u, _, terminal, returned⟩ := ended_returned small fair known ended
    refine ⟨u, ?_⟩
    rw [run_turns]
    refine ⟨fun _ => terminal, fun slot => ?_⟩
    obtain ⟨code, at_return, verdict⟩ := returned slot
    exact ⟨code, at_return, fun _ => verdict⟩

/-- With a rejected backend every fair schedule progresses. -/
lemma Rejected.progresses (rejected : Rejected s) (large : 1 < backend)
    (fair : Fair Prod.fst turns) : s.Progresses K backend turns := by
  refine ⟨fun small => absurd large (Nat.not_lt.mpr small), fun epoch d asked => ?_, fun _ => ?_⟩
  · rcases rejected.pc 0 with h | h <;> rw [h] at asked <;> cases asked
  · obtain ⟨t, returned⟩ : ∃ t, ∀ i, (after K backend turns s t).pc i = .returned 1 :=
      rejected_returned rejected large fair
    refine ⟨t, fun small => absurd large (Nat.not_lt.mpr small), fun slot => ⟨1, ?_, ?_⟩⟩
    · rw [run_turns]
      exact returned slot
    · exact fun small => absurd large (Nat.not_lt.mpr small)

end Progresses

/-- The fork-join products are the serial ones: in every state that any interleaving of the
accesses of `n + 2` participants leads to, for any jobs published, the state is correct; once slot 0
has ended the token, everybody who goes on returns its verdict; and while all run again and again,
published jobs are computed and the token comes to its end. -/
theorem run_correct (K : Kernels) (backend n expectedJobs : ℕ) (memory : ℕ → Word)
    (staging : Vector UInt8 q8StagingBytes) (schedule : List (Turn n)) :
    let s := run K backend schedule (new n expectedJobs memory staging)
    s.Correct K backend ∧
      (s.terminal ≠ 0 → ∀ (more : List (Turn n)) (slot : Fin (n + 2)),
        10 ≤ more.countP (fun turn => turn.1 = slot) →
          ∃ code, (run K backend more s).pc slot = .returned code ∧ (code = 0 ↔ s.Complete)) ∧
      ∀ turns : ℕ → Turn n, Fair Prod.fst turns → s.Progresses K backend turns := by
  intro s
  rcases Nat.lt_or_ge 1 backend with large | small
  · have rejected : Rejected s :=
      Rejected.run ⟨fun _ => .inl rfl, Nat.zero_le 1, rfl, fun _ => rfl⟩ large schedule
    exact ⟨rejected.correct, fun ended => absurd rejected.terminal ended,
      fun turns fair => rejected.progresses large fair⟩
  · have known : Known K backend s :=
      Known.run ⟨related_new K backend n expectedJobs memory staging, .inl (Nat.succ_pos _)⟩ small
        schedule
    obtain ⟨⟨b, r⟩, _⟩ := id known
    refine ⟨r.correct, ?_, fun turns fair => known.progresses small fair⟩
    intro ended more slot enough
    refine r.run_ended small ended more (le_trans ?_ enough)
    unfold rank
    split <;> decide

/-- A product of three rows at address 100. -/
def threeRows : JobDescriptor := ⟨⟨[], 100⟩, ⟨3, 0, false⟩⟩

/-- Slot 0 of two participants enters, and its engine asks for the product. -/
def asksThreeRows : List (Turn 0) := List.replicate 3 (0, .finish true) ++ [(0, .publish threeRows)]

/-- In turn, two participants compute the three zeros on a memory of sevens, and both return. -/
theorem run_correct_threeRows :
    let s := run zeroKernels 0 asksThreeRows (new 0 1 (fun _ => 7) (Vector.replicate _ 0))
    let turns : ℕ → Turn 0 := fun t => (roundRobin 1 t, .finish true)
    (∃ t, (run zeroKernels 0 ((List.range t).map turns) s).memory 102 = 0) ∧
      ∃ t, ∀ slot, ∃ code,
        (run zeroKernels 0 ((List.range t).map turns) s).pc slot = .returned code := by
  intro s turns
  obtain ⟨_, _, progress⟩ := run_correct zeroKernels 0 0 1 (fun _ => 7) (Vector.replicate _ 0)
    asksThreeRows
  have fair : Fair Prod.fst turns := fair_roundRobin fun _ => rfl
  obtain ⟨_, computes, returns⟩ := progress turns fair
  refine ⟨?_, ?_⟩
  · obtain ⟨t, job, same, _, computed⟩ := computes 1 threeRows rfl
    refine ⟨t, ?_⟩
    have row := computed.output 2
    rw [← same] at row
    have below : 2 < (threeRows.job job.prepared).rows := Nat.lt_succ_self 2
    exact row.trans (runMatvecRows_of_lt below)
  · obtain ⟨t, _, returned⟩ := returns fun t => ⟨true, rfl⟩
    refine ⟨t, fun slot => ?_⟩
    obtain ⟨code, at_return, _⟩ := returned slot
    exact ⟨code, at_return⟩

end Dispatch

end Promptboot
