import Promptboot.Lib.FairSchedule
import Promptboot.Workers.Correctness

/-!
# Worker jobs: joining

A job that is published is joined by all. Two kinds of participants wait: who polls for a job that
is not there yet, and who spins at a barrier that is closed. `remaining` bounds what a participant
has still to do for the job that is open. An access of who `Moves` lowers it
(`Joining.step_remaining`), who waits leaves it as it is (`Joining.step_waits`), and
`Joining.someone` finds a participant that moves: if all waited the barrier would be full, and then
somebody is about to open it (`Related.step_room`). `Joining.advances` puts this into the form that
the rule for fair schedules takes.
-/

namespace Promptboot

open FairSchedule
open ForkJoin (Phase)

namespace Dispatch

variable {n : ℕ} {K : Kernels} {backend : ℕ} {s t : Dispatch n} {a b : Protocol n}
  {i k : Fin (n + 2)} {choice : EngineChoice}

section Room

/-- Somebody is missing at the barrier, or the last one to arrive is about to reset it. -/
def Room (s : Dispatch n) : Prop :=
  s.arrivals < n + 2 ∨ ∃ i epoch d, s.pc i = .resetArrivals epoch d

/-- The barrier is not full without somebody who opens it. -/
lemma Related.step_room (r : Related K backend s a) (room : s.Room) :
    (s.step K backend i choice).Room := by
  -- somebody else at the reset stays there
  have stays {j : Fin (n + 2)} {epoch : ℕ} {d : JobDescriptor}
      (at_reset : s.pc j = .resetArrivals epoch d) (other : j ≠ i) :
      (s.step K backend i choice).Room := by
    refine .inr ⟨j, epoch, d, ?_⟩
    rw [step_pc_of_ne other]
    exact at_reset
  cases h : s.pc i
  case arrive epoch d workers generation =>
    obtain ⟨rfl, _⟩ := r.follows h
    rcases room with short | ⟨j, epoch', d', at_reset⟩
    · simp only [Dispatch.step, h]
      split
      case isTrue last => exact .inr ⟨i, epoch, d, goto_self⟩
      case isFalse more =>
        refine .inl ?_
        show s.arrivals + 1 < n + 2
        omega
    · refine stays at_reset ?_
      rintro rfl
      rw [h] at at_reset
      cases at_reset
  case resetArrivals epoch d =>
    simp only [Dispatch.step, h]
    exact .inl (Nat.succ_pos _)
  all_goals
    rcases room with short | ⟨j, epoch', d', at_reset⟩
    · refine .inl (lt_of_eq_of_lt ?_ short)
      simp only [Dispatch.step, h]
      try cases choice
      all_goals first
        | rfl
        | (split_ifs <;> rfl)
    · refine stays at_reset ?_
      rintro rfl
      rw [h] at at_reset
      cases at_reset

/-- What is known of every state that the accesses lead to. -/
def Known (K : Kernels) (backend : ℕ) (s : Dispatch n) : Prop :=
  (∃ a, Related K backend s a) ∧ s.Room

/-- A step keeps what is known of the backend. -/
lemma Known.step (known : Known K backend s) (small : backend ≤ 1) :
    Known K backend (s.step K backend i choice) := by
  obtain ⟨⟨a, r⟩, room⟩ := known
  exact ⟨r.step small, r.step_room room⟩

/-- A run keeps what is known of the backend. -/
lemma Known.run (known : Known K backend s) (small : backend ≤ 1) (schedule : List (Turn n)) :
    Known K backend (Dispatch.run K backend schedule s) := by
  induction schedule generalizing s with
  | nil => exact known
  | cons turn rest ih => exact ih (known.step small)

end Room

section Joining

/-- What a participant that stands at job `epoch` has to do besides, if that is not the last one. -/
def lag (last rows epoch : ℕ) : ℕ := if epoch = last then 0 else 12 + rows

/-- A bound for the accesses that a participant still has to make for job `last` of `rows` rows. -/
def remaining (last rows : ℕ) : Pc → ℕ
  | .enter => 15 + rows
  | .exchangeBackend => 14 + rows
  | .pollTerminal observed => if observed = last then 0 else 13 + rows
  | .pollEpoch observed => lag last rows observed
  | .readPointers epoch => 11 + rows + lag last rows epoch
  | .readShape epoch _ => 10 + rows + lag last rows epoch
  | .loadWorkers epoch d => 10 + d.shape.rows + lag last rows epoch
  | .rows epoch _ _ next stop => 9 + (stop - next) + lag last rows epoch
  | .reloadWorkers epoch _ => 8 + lag last rows epoch
  | .loadGeneration epoch _ _ => 7 + lag last rows epoch
  | .arrive epoch _ _ _ => 6 + lag last rows epoch
  | .resetArrivals epoch _ => 5 + lag last rows epoch
  | .release epoch _ => 4 + lag last rows epoch
  | .spin epoch _ _ => 3 + lag last rows epoch
  | _ => 0

/-- The coordinator has published `d` and has not looked at the counter of rows. -/
def InJob (d : JobDescriptor) : Pc → Prop
  | .loadWorkers _ e | .rows _ e _ _ _ | .reloadWorkers _ e | .loadGeneration _ e _
  | .arrive _ e _ _ | .resetArrivals _ e | .release _ e | .spin _ e _ => e = d
  | _ => False

/-- A program counter that a participant of an open job can stand at. -/
def Shared : Pc → Prop
  | .enter | .exchangeBackend | .pollTerminal _ | .pollEpoch _ | .readPointers _ | .readShape _ _
  | .loadWorkers _ _ | .rows _ _ _ _ _ | .reloadWorkers _ _ | .loadGeneration _ _ _
  | .arrive _ _ _ _ | .resetArrivals _ _ | .release _ _ | .spin _ _ _ => True
  | _ => False

/-- A participant whose next access gets it further with the job that is open. -/
def Moves (s : Dispatch n) (i : Fin (n + 2)) : Prop :=
  match s.pc i with
  | .pollTerminal observed | .pollEpoch observed => observed ≠ s.jobEpoch
  | .spin _ _ generation => s.generation ≠ generation
  | _ => True

/-- A job is published, and the coordinator is not through with it. -/
structure Joining (K : Kernels) (backend : ℕ) (d : JobDescriptor) (last rows : ℕ)
    (s : Dispatch n) : Prop where
  known : Known K backend s
  coordinator : InJob d (s.pc 0)
  epoch : s.jobEpoch = last
  height : s.descriptor.shape.rows = rows
  running : s.terminal = 0

/-- What the participants have left to do for a job. -/
def remainingAll (last rows : ℕ) (s : Dispatch n) : ℕ := ∑ i, remaining last rows (s.pc i)

/-- Only slot 0 runs the coordinator's code. -/
lemma Related.shared (r : Related K backend s a) (running : s.terminal = 0) (other : i ≠ 0) :
    Shared (s.pc i) := by
  have follows := r.simulates.phases i
  have locals := r.sound.locals i
  have phase := r.inv.phases i
  cases h : s.pc i <;> rw [h] at follows locals <;> first
    | trivial
    | exact absurd running locals.1
    | exact absurd running locals
    | (rw [follows] at phase; exact absurd phase.1 other)
    | (obtain ⟨_, _, at_phase⟩ := follows; rw [at_phase] at phase; exact absurd phase.1 other)
    | (rw [follows] at phase; exact phase.elim)

/-- A processor in a job has shared its entry. -/
lemma InJob.shared {d : JobDescriptor} {pc : Pc} (inJob : InJob d pc) : Shared pc := by
  cases pc <;> trivial

/-- While a job is joined all have shared their entry. -/
lemma Joining.shared {d : JobDescriptor} {last rows : ℕ} (joining : Joining K backend d last rows s)
    (i : Fin (n + 2)) : Shared (s.pc i) := by
  obtain ⟨⟨a, r⟩, room⟩ := joining.known
  by_cases leads : i = 0
  · rw [leads]
    exact joining.coordinator.shared
  · exact r.shared joining.running leads

/-- Nobody but the coordinator's own code changes what is published. -/
lemma step_published (shared : Shared (s.pc i)) :
    (s.step K backend i choice).jobEpoch = s.jobEpoch ∧
      (s.step K backend i choice).descriptor = s.descriptor ∧
      (s.step K backend i choice).terminal = s.terminal := by
  cases h : s.pc i <;> rw [h] at shared <;> simp only [step, h] <;> first
    | exact shared.elim
    | (split_ifs <;> exact ⟨rfl, rfl, rfl⟩)
    | exact ⟨rfl, rfl, rfl⟩

/-- An access that gets a participant further leaves it less to do, unless the coordinator is through
with the job. -/
lemma Joining.step_remaining {d : JobDescriptor} {last rows : ℕ}
    (joining : Joining K backend d last rows s) (small : backend ≤ 1) (moves : s.Moves i) :
    remaining last rows ((s.step K backend i choice).pc i) < remaining last rows (s.pc i) := by
  obtain ⟨⟨a, r⟩, room⟩ := joining.known
  have shared := joining.shared i
  have epoch := joining.epoch
  have height := joining.height
  have running := joining.running
  unfold Moves at moves
  -- one case for each access that a participant of the job can make
  cases h : s.pc i <;> simp only [h] at moves shared <;> simp only [step, h]
  case enter =>
    have slot := i.isLt
    rw [if_neg (by omega)]
    by_cases empty : s.workers = 0
    · rw [if_pos empty, goto_self]
      simp [remaining]
    · have found : s.workers = n + 2 := r.entered.workers.resolve_left empty
      rw [if_neg empty, if_pos found, goto_self]
      simp [remaining]
  case exchangeBackend =>
    have after : remaining last rows (entered i) < 14 + rows := by
      unfold entered
      split
      · exact Nat.add_pos_left (by decide) rows
      · simp only [remaining, lag]
        split <;> omega
    by_cases fresh : s.backend = noBackend
    · rw [if_pos fresh, goto_self]
      exact after
    · have found : s.backend = backend := r.entered.codes.resolve_left fresh
      rw [if_neg fresh, if_pos found, goto_self]
      exact after
  case loadWorkers epoch' e =>
    have less : e.shape.rows / s.workers ≤ e.shape.rows := Nat.div_le_self _ _
    rw [goto_self]
    simp only [remaining]
    omega
  -- a job that is not seen yet is what the poll finds
  case pollEpoch observed =>
    have unseen : ¬s.jobEpoch = observed := fun same => moves same.symm
    rw [if_neg unseen, goto_self]
    simp only [remaining, lag, epoch, if_true]
    rw [if_neg (epoch ▸ moves)]
    omega
  case pollTerminal observed =>
    rw [if_pos running, goto_self]
    simp only [remaining, lag]
    rw [if_neg (epoch ▸ moves), if_neg (epoch ▸ moves)]
    omega
  case readShape epoch' pointers =>
    have below : s.descriptor.shape.rows * (i.val + 1) / (n + 2) ≤ s.descriptor.shape.rows := by
      apply Nat.div_le_of_le_mul
      rw [Nat.mul_comm]
      exact Nat.mul_le_mul_right _ i.isLt
    have slice := (Nat.sub_le _ (s.descriptor.shape.rows * i.val / (n + 2))).trans
      (below.trans_eq height)
    rw [goto_self]
    simp only [remaining]
    omega
  case rows epoch' e first next stop =>
    split
    case isTrue more =>
      rw [goto_self]
      simp only [remaining]
      omega
    case isFalse =>
      rw [goto_self]
      split <;> simp only [remaining] <;> omega
  case arrive epoch' e workers generation =>
    rw [goto_self]
    split <;> simp only [remaining] <;> omega
  case release epoch' e =>
    rw [goto_self]
    unfold joined
    split <;> simp only [remaining] <;> omega
  case spin epoch' e generation =>
    rw [if_neg moves, goto_self]
    unfold joined
    split <;> simp only [remaining] <;> omega
  case readPointers | reloadWorkers | loadGeneration | resetArrivals =>
    rw [goto_self]
    simp only [remaining]
    omega
  all_goals exact shared.elim

/-- A participant that waits leaves everything as it is, but for where it polls. -/
lemma Joining.step_waits {d : JobDescriptor} {last rows : ℕ}
    (joining : Joining K backend d last rows s) (idle : ¬s.Moves i) :
    remaining last rows ((s.step K backend i choice).pc i) = remaining last rows (s.pc i) ∧
      (s.step K backend i choice).generation = s.generation ∧
      (s.step K backend i choice).arrivals = s.arrivals := by
  have epoch := joining.epoch
  have running := joining.running
  unfold Moves at idle
  cases h : s.pc i <;> simp only [h, not_true_eq_false, not_not] at idle <;> simp only [step, h]
  case pollEpoch observed =>
    rw [if_pos idle.symm, goto_self]
    simp only [remaining, lag]
    rw [if_pos (idle.trans epoch), if_pos (idle.trans epoch)]
    exact ⟨rfl, rfl, rfl⟩
  case pollTerminal observed =>
    rw [if_pos running, goto_self]
    simp only [remaining, lag]
    rw [if_pos (idle.trans epoch), if_pos (idle.trans epoch)]
    exact ⟨rfl, rfl, rfl⟩
  case spin epoch' e generation =>
    rw [if_pos idle, h]
    exact ⟨rfl, rfl, rfl⟩

/-- The coordinator goes on with its job until it looks at the counter of rows. -/
lemma Joining.step_coordinator {d : JobDescriptor} {last rows : ℕ}
    (joining : Joining K backend d last rows s) :
    InJob d ((s.step K backend i choice).pc 0) ∨
      (s.step K backend i choice).pc 0 = .checkHits d := by
  have coordinator := joining.coordinator
  by_cases own : i = 0
  · subst own
    cases h : s.pc 0 <;> rw [h] at coordinator <;> first
      | exact coordinator.elim
      | skip
    all_goals
      obtain rfl := coordinator
      simp only [step, h, joined, if_true]
    case rows => split <;> exact .inl (by rw [goto_self]; rfl)
    case arrive => exact .inl (by rw [goto_self]; split <;> rfl)
    case release => exact .inr goto_self
    case spin =>
      split
      · exact .inl (by rw [h]; rfl)
      · exact .inr goto_self
    all_goals exact .inl (by rw [goto_self]; rfl)
  · rw [step_pc_of_ne (Ne.symm own)]
    exact .inl coordinator

/-- While a job is open there is a participant that gets further with it. -/
lemma Joining.someone {d : JobDescriptor} {last rows : ℕ}
    (joining : Joining K backend d last rows s) : ∃ i, s.Moves i := by
  by_contra stuck
  have stands (i : Fin (n + 2)) : ¬s.Moves i := fun moves => stuck ⟨i, moves⟩
  obtain ⟨⟨a, r⟩, room⟩ := joining.known
  have generation := r.simulates.shared.generation
  -- the coordinator spins at the barrier of the open job
  have open_ : a.epoch = a.generation + 1 := by
    have idle := stands 0
    have coordinator := joining.coordinator
    unfold Moves at idle
    cases h : s.pc 0 <;>
      simp only [h, not_true_eq_false, not_not, InJob] at idle coordinator
    case spin epoch e g =>
      obtain ⟨job, _, phase⟩ := r.follows h
      rcases r.at_phase phase with ⟨current, _⟩ | ⟨past, _, _⟩
      · exact current.open_
      · omega
  -- and so do all others, since who polls has not seen the job
  have spins (i : Fin (n + 2)) : ∃ job epoch, a.phase i = .waiting job epoch a.generation := by
    have idle := stands i
    have shared := joining.shared i
    unfold Moves at idle
    cases h : s.pc i <;> simp only [h, not_true_eq_false, not_not, Shared] at idle shared
    case pollEpoch observed =>
      have phase : a.phase i = .resting observed := r.follows h
      obtain ⟨_, seen⟩ := r.at_phase phase
      have number := r.epoch_eq
      omega
    case pollTerminal observed =>
      have phase : a.phase i = .resting observed := r.follows h
      obtain ⟨_, seen⟩ := r.at_phase phase
      have number := r.epoch_eq
      omega
    case spin epoch e g =>
      obtain ⟨job, _, phase⟩ := r.follows h
      rw [generation, idle]
      exact ⟨job, epoch, phase⟩
  have full : a.arrivals = n + 2 := by
    rw [r.inv.arrivals]
    · have each (i : Fin (n + 2)) : ForkJoin.arrived a.generation (a.phase i) = 1 := by
        obtain ⟨job, epoch, phase⟩ := spins i
        rw [phase]
        exact if_pos rfl
      rw [Finset.sum_congr rfl fun i _ => each i]
      simp
    · intro i job epoch releasing
      obtain ⟨_, _, phase⟩ := spins i
      rw [phase] at releasing
      cases releasing
  rcases room with short | ⟨i, epoch, e, at_reset⟩
  · rw [r.simulates.shared.arrivals] at full
    omega
  · exact stands i (by rw [Moves, at_reset]; trivial)

/-- One access while a job is open. -/
lemma Joining.advances {d : JobDescriptor} {last rows : ℕ}
    (joining : Joining K backend d last rows s) (small : backend ≤ 1) (turn : Turn n) :
    Advances Prod.fst (Joining K backend d last rows)
      (fun s => Known K backend s ∧ s.pc 0 = .checkHits d) Moves
      (remainingAll last rows) s turn (s.step K backend turn.1 turn.2) := by
  have known : Known K backend (s.step K backend turn.1 turn.2) := joining.known.step small
  obtain ⟨epoch, descriptor, terminal⟩ :
      (s.step K backend turn.1 turn.2).jobEpoch = s.jobEpoch ∧
        (s.step K backend turn.1 turn.2).descriptor = s.descriptor ∧
        (s.step K backend turn.1 turn.2).terminal = s.terminal :=
    step_published (joining.shared turn.1)
  have coordinator : InJob d ((s.step K backend turn.1 turn.2).pc 0) ∨
      (s.step K backend turn.1 turn.2).pc 0 = .checkHits d := joining.step_coordinator
  rcases coordinator with coordinator | done
  · have next : Joining K backend d last rows (s.step K backend turn.1 turn.2) :=
      ⟨known, coordinator, epoch.trans joining.epoch,
        (congrArg (·.shape.rows) descriptor).trans joining.height, terminal.trans joining.running⟩
    by_cases moves : s.Moves turn.1
    · have less : remaining last rows ((s.step K backend turn.1 turn.2).pc turn.1) <
          remaining last rows (s.pc turn.1) := joining.step_remaining small moves
      refine .sinks next (Finset.sum_lt_sum (fun k _ => ?_) ⟨turn.1, Finset.mem_univ _, less⟩)
      by_cases own : k = turn.1
      · rw [own]
        exact less.le
      · rw [step_pc_of_ne own]
    · obtain ⟨same, generation, _⟩ :
          remaining last rows ((s.step K backend turn.1 turn.2).pc turn.1) =
              remaining last rows (s.pc turn.1) ∧
            (s.step K backend turn.1 turn.2).generation = s.generation ∧
            (s.step K backend turn.1 turn.2).arrivals = s.arrivals := joining.step_waits moves
      refine .waits next (Finset.sum_congr rfl fun k _ => ?_) moves fun k helps => ?_
      · by_cases own : k = turn.1
        · rw [own]
          exact same
        · rw [step_pc_of_ne own]
      · have other : k ≠ turn.1 := fun own => moves (own ▸ helps)
        unfold Moves at helps ⊢
        rw [step_pc_of_ne other, generation, epoch]
        exact helps
  · exact .reached ⟨known, done⟩

end Joining

end Dispatch

end Promptboot
