import Mathlib.Algebra.Order.BigOperators.Group.Finset
import Mathlib.Data.Fintype.BigOperators
import Mathlib.Algebra.Order.Sub.Basic

/-!
# Fork and join

A leader publishes jobs one after another; every member, the leader included, computes its slice of
the rows of each job, adds its rows to a counter and meets the others at a barrier whose generation
counts the jobs joined. The protocol at the level of phases, for any finite set of members, any
jobs and any way of cutting them into slices. `Inv` holds of every reachable state; with it no
member works on any job but the last one published, no row is computed twice, and the counter is
right whenever the leader looks at it.
-/

namespace ForkJoin

variable {ι J A V : Type} [Fintype ι] [DecidableEq ι]

/-- How the rows of a job are dealt out: the slices partition the rows. Row `r` of a job has its
value stored at `place job r`. -/
structure Plan (ι J A V : Type) [Fintype ι] where
  rows : J → ℕ
  first : J → ι → ℕ
  stop : J → ι → ℕ
  place : J → ℕ → A
  value : J → ℕ → V
  place_inj : ∀ {j r q}, place j r = place j q → r = q
  first_le : ∀ j i, first j i ≤ stop j i
  stop_le : ∀ j i, stop j i ≤ rows j
  cover : ∀ j r, r < rows j → ∃ i, first j i ≤ r ∧ r < stop j i
  disjoint : ∀ j r i k, first j i ≤ r → r < stop j i → first j k ≤ r → r < stop j k → i = k
  total : ∀ j, ∑ i, (stop j i - first j i) = rows j

/-- Between the first cut and the last, every row lies between two neighbours. -/
lemma exists_slice {cut : ℕ → ℕ} (zero : cut 0 = 0) {n r : ℕ} (h : r < cut n) :
    ∃ i < n, cut i ≤ r ∧ r < cut (i + 1) := by
  induction n with
  | zero =>
    rw [zero] at h
    cases h
  | succ n ih =>
    by_cases below : r < cut n
    · obtain ⟨i, hi, slice⟩ := ih below
      exact ⟨i, by omega, slice⟩
    · exact ⟨n, by omega, by omega, h⟩

/-- The plan that cuts the rows of every job at increasing places. -/
def Plan.ofCuts {n : ℕ} (rows : J → ℕ) (cut : J → ℕ → ℕ) (place : J → ℕ → A) (value : J → ℕ → V)
    (mono : ∀ j, Monotone (cut j)) (zero : ∀ j, cut j 0 = 0) (full : ∀ j, cut j n = rows j)
    (place_inj : ∀ {j r q}, place j r = place j q → r = q) : Plan (Fin n) J A V where
  rows := rows
  first j i := cut j i
  stop j i := cut j (i + 1)
  place := place
  value := value
  place_inj := place_inj
  first_le j i := mono j (Nat.le_succ i)
  stop_le j i := by
    rw [← full j]
    exact mono j i.isLt
  cover j r h := by
    rw [← full j] at h
    obtain ⟨i, hi, slice⟩ := exists_slice (zero j) h
    exact ⟨⟨i, hi⟩, slice⟩
  disjoint j r i k lower upper lower' upper' := by
    -- of two slices one ends before the other begins
    rcases Nat.lt_trichotomy i k with lt | eq | gt
    · have apart := mono j (Nat.succ_le_of_lt lt)
      simp only [Nat.succ_eq_add_one] at apart
      omega
    · exact Fin.ext eq
    · have apart := mono j (Nat.succ_le_of_lt gt)
      simp only [Nat.succ_eq_add_one] at apart
      omega
  total j := by
    rw [Fin.sum_univ_eq_sum_range (fun i => cut j (i + 1) - cut j i) n,
      Finset.sum_range_tsub (mono j), zero, full, Nat.sub_zero]

inductive Phase (J : Type) where
  | resting (seen : ℕ)
  | leading
  | prepared
  | working (job : J) (epoch next : ℕ)
  | counted (job : J) (epoch : ℕ)
  | arriving (job : J) (epoch generation : ℕ)
  | waiting (job : J) (epoch generation : ℕ)
  | last (job : J) (epoch : ℕ)
  | releasing (job : J) (epoch : ℕ)
  | checking (job : J)
  | finished
  | failed

/-- The state of the protocol. `jobs` are the jobs published so far, `base` the output as it was
when the last of them was, `writers` the members that computed a row of it, and `left` the number
of slices a member has finished. -/
structure State (ι J A V : Type) where
  jobs : List J
  generation : ℕ
  arrivals : ℕ
  hits : ℕ
  closed : ℕ
  out : A → V
  base : A → V
  writers : ℕ → List ι
  left : ι → ℕ
  phase : ι → Phase J

def State.epoch (s : State ι J A V) : ℕ := s.jobs.length

/-- A member moves to a phase. -/
def State.move (s : State ι J A V) (i : ι) (p : Phase J) : State ι J A V :=
  { s with phase := Function.update s.phase i p }

omit [Fintype ι] in
/-- The member that moved is where it moved to. -/
@[simp] lemma State.move_self (s : State ι J A V) (i : ι) (p : Phase J) :
    (s.move i p).phase i = p := by
  simp [move]

omit [Fintype ι] in
/-- The other members stay. -/
lemma State.move_of_ne {s : State ι J A V} {i k : ι} {p : Phase J} (h : k ≠ i) :
    (s.move i p).phase k = s.phase k := by
  simp [move, h]

/-- Where a member goes when it leaves the barrier. -/
def after (leader i : ι) (job : J) (epoch : ℕ) : Phase J :=
  if i = leader then .checking job else .resting epoch

inductive Step [DecidableEq A] (plan : Plan ι J A V) (leader : ι) :
    State ι J A V → State ι J A V → Prop
  | serial {s} (out : A → V) : s.phase leader = .leading →
    Step plan leader s ({ s with out }.move leader .leading)
  | clear {s} : s.phase leader = .leading →
    Step plan leader s ({ s with hits := 0 }.move leader .prepared)
  | publish {s} (job : J) : s.phase leader = .prepared →
    Step plan leader s ({ s with
      jobs := s.jobs ++ [job]
      base := s.out
      writers := fun _ => [] }.move leader (.working job (s.epoch + 1) (plan.first job leader)))
  | finish {s} (code : ℕ) : s.phase leader = .leading → code ≠ 0 →
    Step plan leader s ({ s with closed := code }.move leader .finished)
  | start {s i seen job} : s.phase i = .resting seen → s.epoch ≠ seen →
    s.jobs.getLast? = some job →
    Step plan leader s (s.move i (.working job s.epoch (plan.first job i)))
  | compute {s i job epoch next} : s.phase i = .working job epoch next → next < plan.stop job i →
    Step plan leader s ({ s with
      out := Function.update s.out (plan.place job next) (plan.value job next)
      writers := Function.update s.writers next (s.writers next ++ [i]) }.move i
        (.working job epoch (next + 1)))
  | add {s i job epoch} : s.phase i = .working job epoch (plan.stop job i) →
    Step plan leader s ({ s with
      hits := s.hits + (plan.stop job i - plan.first job i)
      left := Function.update s.left i (s.left i + 1) }.move i (.counted job epoch))
  | align {s i job epoch} : s.phase i = .counted job epoch →
    Step plan leader s (s.move i (.arriving job epoch s.generation))
  | arrive {s i job epoch generation} : s.phase i = .arriving job epoch generation →
    s.arrivals + 1 ≠ Fintype.card ι →
    Step plan leader s ({ s with arrivals := s.arrivals + 1 }.move i
      (.waiting job epoch generation))
  | arriveLast {s i job epoch generation} : s.phase i = .arriving job epoch generation →
    s.arrivals + 1 = Fintype.card ι →
    Step plan leader s ({ s with arrivals := s.arrivals + 1 }.move i (.last job epoch))
  | reset {s i job epoch} : s.phase i = .last job epoch →
    Step plan leader s ({ s with arrivals := 0 }.move i (.releasing job epoch))
  | release {s i job epoch} : s.phase i = .releasing job epoch →
    Step plan leader s ({ s with generation := s.generation + 1 }.move i
      (after leader i job epoch))
  | leave {s i job epoch generation} : s.phase i = .waiting job epoch generation →
    s.generation ≠ generation → Step plan leader s (s.move i (after leader i job epoch))
  | check {s job} : s.phase leader = .checking job → s.hits = plan.rows job →
    Step plan leader s (s.move leader .leading)
  | mismatch {s job} : s.phase leader = .checking job → s.hits ≠ plan.rows job →
    Step plan leader s (s.move leader .failed)
  | close {s i seen} : s.phase i = .resting seen → s.closed ≠ 0 →
    Step plan leader s (s.move i .finished)

/-- The state before anything runs. -/
structure Init (leader : ι) (s : State ι J A V) : Prop where
  jobs : s.jobs = []
  generation : s.generation = 0
  arrivals : s.arrivals = 0
  closed : s.closed = 0
  writers : ∀ r, s.writers r = []
  left : ∀ i, s.left i = 0
  phase : ∀ i, s.phase i = if i = leader then .leading else .resting 0

/-- A job that all have left: its rows are counted, computed, and computed once. -/
structure Complete (plan : Plan ι J A V) (s : State ι J A V) (job : J) : Prop where
  last : s.jobs.getLast? = some job
  hits : s.hits = plan.rows job
  out : ∀ r, r < plan.rows job → s.out (plan.place job r) = plan.value job r
  frame : ∀ a, (∀ r, r < plan.rows job → a ≠ plan.place job r) → s.out a = s.base a
  writers : ∀ i r, plan.first job i ≤ r → r < plan.stop job i → s.writers r = [i]
  outside : ∀ r, plan.rows job ≤ r → s.writers r = []

/-- The last job is published and not joined; `epoch` is its number. -/
structure Current (s : State ι J A V) (job : J) (epoch : ℕ) : Prop where
  open_ : s.epoch = s.generation + 1
  epoch : epoch = s.epoch
  job : s.jobs.getLast? = some job

/-- What a member's phase says about the state. -/
def At (plan : Plan ι J A V) (leader : ι) (s : State ι J A V) (i : ι) : Phase J → Prop
  | .resting seen => i ≠ leader ∧ seen = s.generation
  | .leading => i = leader ∧ s.epoch = s.generation ∧ s.closed = 0
  | .prepared => i = leader ∧ s.epoch = s.generation ∧ s.closed = 0 ∧ s.hits = 0
  | .working job epoch next =>
    Current s job epoch ∧ plan.first job i ≤ next ∧ next ≤ plan.stop job i
  | .counted job epoch => Current s job epoch
  | .arriving job epoch generation => Current s job epoch ∧ generation = s.generation
  | .waiting job epoch generation =>
    (Current s job epoch ∧ generation = s.generation) ∨
      (generation + 1 = s.generation ∧ epoch = s.generation ∧
        (i = leader → s.epoch = s.generation ∧ s.closed = 0 ∧ Complete plan s job))
  | .last job epoch | .releasing job epoch =>
    Current s job epoch ∧ ∀ k, k ≠ i → ∃ job epoch, s.phase k = .waiting job epoch s.generation
  | .checking job => i = leader ∧ s.epoch = s.generation ∧ s.closed = 0 ∧ Complete plan s job
  | .finished => s.closed ≠ 0
  | .failed => False

/-- How far a member has got in its slice of a job that is not joined. -/
def reached (plan : Plan ι J A V) (generation : ℕ) (job : J) (i : ι) : Phase J → ℕ
  | .working _ _ next => next
  | .counted _ _ | .arriving _ _ _ | .last _ _ | .releasing _ _ => plan.stop job i
  | .waiting _ _ g => if g = generation then plan.stop job i else plan.first job i
  | _ => plan.first job i

/-- What a member has added to the counter for a job that is not joined. -/
def added (plan : Plan ι J A V) (generation : ℕ) (job : J) (i : ι) : Phase J → ℕ
  | .counted _ _ | .arriving _ _ _ | .last _ _ | .releasing _ _ =>
    plan.stop job i - plan.first job i
  | .waiting _ _ g => if g = generation then plan.stop job i - plan.first job i else 0
  | _ => 0

/-- Whether a member is counted in the arrivals. -/
def arrived (generation : ℕ) : Phase J → ℕ
  | .last _ _ => 1
  | .waiting _ _ g => if g = generation then 1 else 0
  | _ => 0

/-- The rows of a slice, computed up to where its member has got. -/
structure Rows (plan : Plan ι J A V) (s : State ι J A V) (job : J) : Prop where
  done : ∀ i r, plan.first job i ≤ r → r < reached plan s.generation job i (s.phase i) →
    s.out (plan.place job r) = plan.value job r ∧ s.writers r = [i]
  todo : ∀ i r, reached plan s.generation job i (s.phase i) ≤ r → r < plan.stop job i →
    s.writers r = []
  outside : ∀ r, plan.rows job ≤ r → s.writers r = []
  frame : ∀ a, (∀ r, r < plan.rows job → a ≠ plan.place job r) → s.out a = s.base a

/-- The slices that a member has finished, by its phase. -/
def leftBy (generation : ℕ) : Phase J → ℕ
  | .counted _ _ | .arriving _ _ _ | .last _ _ | .releasing _ _ => generation + 1
  | .waiting _ _ g => g + 1
  | _ => generation

structure Inv (plan : Plan ι J A V) (leader : ι) (s : State ι J A V) : Prop where
  phases : ∀ i, At plan leader s i (s.phase i)
  left : ∀ i, s.left i = leftBy s.generation (s.phase i)
  closed : s.closed ≠ 0 → s.epoch = s.generation
  arrivals : (∀ i job epoch, s.phase i ≠ .releasing job epoch) →
    s.arrivals = ∑ i, arrived s.generation (s.phase i)
  released : ∀ i job epoch, s.phase i = .releasing job epoch → s.arrivals = 0
  hits : ∀ job, s.epoch = s.generation + 1 → s.jobs.getLast? = some job →
    s.hits = ∑ i, added plan s.generation job i (s.phase i)
  rows : ∀ job, s.epoch = s.generation + 1 → s.jobs.getLast? = some job → Rows plan s job
  once : ∀ r, (s.writers r).length ≤ 1

section Invariant

variable {plan : Plan ι J A V} {leader : ι} {s s' : State ι J A V}

/-- Moving one member changes one summand. -/
lemma sum_update {P : Type} (f : ι → P → ℕ) (g : ι → P) (i : ι) (p : P) :
    ∑ k, f k (Function.update g i p k) + f i (g i) = ∑ k, f k (g k) + f i p := by
  have others : ∑ k ∈ Finset.univ.erase i, f k (Function.update g i p k) =
      ∑ k ∈ Finset.univ.erase i, f k (g k) := by
    apply Finset.sum_congr rfl
    intro k hk
    rw [Function.update_of_ne (Finset.ne_of_mem_erase hk)]
  rw [← Finset.add_sum_erase Finset.univ _ (Finset.mem_univ i),
    ← Finset.add_sum_erase Finset.univ (fun k => f k (g k)) (Finset.mem_univ i), others,
    Function.update_self]
  omega

omit [DecidableEq ι] in
/-- The epoch is the generation, or a job ahead of it. -/
lemma Inv.epoch_cases (inv : Inv plan leader s) :
    s.epoch = s.generation ∨ s.epoch = s.generation + 1 := by
  have at_leader := inv.phases leader
  cases hp : s.phase leader <;> rw [hp] at at_leader
  case resting => exact absurd rfl at_leader.1
  case leading => exact .inl at_leader.2.1
  case prepared => exact .inl at_leader.2.1
  case working => exact .inr at_leader.1.open_
  case counted => exact .inr at_leader.open_
  case arriving => exact .inr at_leader.1.open_
  case waiting =>
    rcases at_leader with ⟨current, _⟩ | ⟨_, _, own⟩
    · exact .inr current.open_
    · exact .inl (own rfl).1
  case last => exact .inr at_leader.1.open_
  case releasing => exact .inr at_leader.1.open_
  case checking => exact .inl at_leader.2.1
  case finished => exact .inl (inv.closed at_leader)
  case failed => exact at_leader.elim

omit [DecidableEq ι] in
/-- A member's phase goes on to hold while jobs, generation and closing stay, the leader's own
results stay where it relies on them, and nobody who waits moves. -/
lemma At.frame {i : ι} {p : Phase J} (h : At plan leader s i p) (jobs : s'.jobs = s.jobs)
    (generation : s'.generation = s.generation)
    (closed : i = leader ∨ s.closed ≠ 0 → s'.closed = s.closed)
    (results : i = leader → s.epoch = s.generation →
      s'.hits = s.hits ∧ s'.out = s.out ∧ s'.base = s.base ∧ s'.writers = s.writers)
    (waits : ∀ k, (∃ job epoch, s.phase k = .waiting job epoch s.generation) →
      s'.phase k = s.phase k) :
    At plan leader s' i p := by
  have epoch : s'.epoch = s.epoch := by
    unfold State.epoch
    rw [jobs]
  have current : ∀ {job e}, Current s job e → Current s' job e := by
    rintro job e ⟨open_, number, last⟩
    exact ⟨by rw [epoch, generation, open_], by rw [epoch, number], by rw [jobs, last]⟩
  have complete : ∀ {job}, i = leader → s.epoch = s.generation → Complete plan s job →
      Complete plan s' job := by
    rintro job own joined ⟨last, hits, out, frame, writers, outside⟩
    obtain ⟨hh, ho, hb, hw⟩ := results own joined
    exact ⟨by rw [jobs, last], by rw [hh, hits], by rw [ho]; exact out, by rw [ho, hb]; exact frame,
      by rw [hw]; exact writers, by rw [hw]; exact outside⟩
  -- each phase speaks of a few of the fields only
  cases p with
  | resting => exact ⟨h.1, by rw [generation]; exact h.2⟩
  | leading =>
    exact ⟨h.1, by rw [epoch, generation]; exact h.2.1, by rw [closed (.inl h.1)]; exact h.2.2⟩
  | prepared =>
    obtain ⟨own, joined, still, zero⟩ := h
    refine ⟨own, by rw [epoch, generation]; exact joined, by rw [closed (.inl own)]; exact still,
      ?_⟩
    rw [(results own joined).1]
    exact zero
  | working => exact ⟨current h.1, h.2⟩
  | counted => exact current h
  | arriving => exact ⟨current h.1, by rw [generation]; exact h.2⟩
  | waiting =>
    rcases h with ⟨now, g⟩ | ⟨g, e, own⟩
    · exact .inl ⟨current now, by rw [generation]; exact g⟩
    · refine .inr ⟨by rw [generation]; exact g, by rw [generation]; exact e, ?_⟩
      intro il
      obtain ⟨joined, still, done⟩ := own il
      exact ⟨by rw [epoch, generation]; exact joined, by rw [closed (.inl il)]; exact still,
        complete il joined done⟩
  | last =>
    refine ⟨current h.1, fun k hk => ?_⟩
    obtain ⟨job, e, hw⟩ := h.2 k hk
    exact ⟨job, e, by rw [waits k ⟨job, e, hw⟩, generation, hw]⟩
  | releasing =>
    refine ⟨current h.1, fun k hk => ?_⟩
    obtain ⟨job, e, hw⟩ := h.2 k hk
    exact ⟨job, e, by rw [waits k ⟨job, e, hw⟩, generation, hw]⟩
  | checking =>
    obtain ⟨own, joined, still, done⟩ := h
    exact ⟨own, by rw [epoch, generation]; exact joined, by rw [closed (.inl own)]; exact still,
      complete own joined done⟩
  | finished =>
    show s'.closed ≠ 0
    rw [closed (.inr h)]
    exact h
  | failed => exact h.elim

omit [DecidableEq ι] in
/-- No member is before its first row. -/
lemma At.first_le_reached {i : ι} {p : Phase J} {job : J} {generation : ℕ}
    (h : At plan leader s i p) (last : s.jobs.getLast? = some job) :
    plan.first job i ≤ reached plan generation job i p := by
  have whole := plan.first_le job i
  cases p with
  | working job' epoch next =>
    obtain ⟨current, lower, _⟩ := h
    rw [current.job] at last
    cases last
    exact lower
  | waiting job' epoch g =>
    simp only [reached]
    split <;> omega
  | counted => exact whole
  | arriving => exact whole
  | last => exact whole
  | releasing => exact whole
  | _ => exact le_refl _

omit [DecidableEq ι] in
/-- No member is behind its last row. -/
lemma At.reached_le {i : ι} {p : Phase J} {job : J} {generation : ℕ}
    (h : At plan leader s i p) (last : s.jobs.getLast? = some job) :
    reached plan generation job i p ≤ plan.stop job i := by
  have whole := plan.first_le job i
  cases p with
  | working job' epoch next =>
    obtain ⟨current, _, upper⟩ := h
    rw [current.job] at last
    cases last
    exact upper
  | waiting job' epoch g =>
    simp only [reached]
    split <;> omega
  | counted => exact le_refl _
  | arriving => exact le_refl _
  | last => exact le_refl _
  | releasing => exact le_refl _
  | _ => exact whole

/-- The invariant holds before the first job. -/
lemma inv_init (h : Init leader s) : Inv plan leader s := by
  have epoch : s.epoch = 0 := by
    unfold State.epoch
    rw [h.jobs]
    rfl
  refine ⟨?_, ?_, ?_, ?_, ?_, ?_, ?_, ?_⟩
  · intro i
    rw [h.phase i]
    split
    · rename_i own
      exact ⟨own, by rw [epoch, h.generation], h.closed⟩
    · rename_i other
      exact ⟨other, by rw [h.generation]⟩
  · intro i
    rw [h.left i, h.phase i, h.generation]
    split <;> rfl
  · intro closed
    exact absurd h.closed closed
  · intro _
    rw [h.arrivals]
    symm
    apply Finset.sum_eq_zero
    intro i _
    rw [h.phase i]
    split <;> rfl
  · intro i _ _ _
    exact h.arrivals
  · intro job open_
    rw [epoch, h.generation] at open_
    cases open_
  · intro job open_
    rw [epoch, h.generation] at open_
    cases open_
  · intro r
    rw [h.writers r]
    exact Nat.zero_le 1

/-- While somebody resets or releases the barrier, everybody else waits. -/
lemma Inv.not_releasing (inv : Inv plan leader s) {i : ι}
    (moving : ∀ job epoch, s.phase i ≠ .waiting job epoch s.generation)
    (other : ∀ job epoch, s.phase i ≠ .releasing job epoch) :
    ∀ k job epoch, s.phase k ≠ .releasing job epoch := by
  intro k job epoch hk
  have at_k := inv.phases k
  rw [hk] at at_k
  by_cases same : i = k
  · subst same
    exact other job epoch hk
  · obtain ⟨job', epoch', hi⟩ := at_k.2 i same
    exact moving job' epoch' hi

section Move

variable {t : State ι J A V} {i : ι} {p : Phase J}

/-- A step of one member that leaves jobs, generation and closing alone keeps everybody's phase. -/
lemma Inv.phases_move (inv : Inv plan leader s) (phase : t.phase = s.phase) (jobs : t.jobs = s.jobs)
    (generation : t.generation = s.generation)
    (closed : i ≠ leader ∨ s.closed ≠ 0 → t.closed = s.closed)
    (moving : ∀ job epoch, s.phase i ≠ .waiting job epoch s.generation)
    (results : i ≠ leader → s.epoch = s.generation →
      t.hits = s.hits ∧ t.out = s.out ∧ t.base = s.base ∧ t.writers = s.writers)
    (own : At plan leader (t.move i p) i p) :
    ∀ k, At plan leader (t.move i p) k ((t.move i p).phase k) := by
  intro k
  by_cases same : k = i
  · subst same
    rw [State.move_self]
    exact own
  · rw [State.move_of_ne same, phase]
    refine (inv.phases k).frame jobs generation ?_ ?_ ?_
    · rintro (leads | nonzero)
      · exact closed (.inl fun e => same (leads.trans e.symm))
      · exact closed (.inr nonzero)
    · intro il joined
      exact results (fun e => same (il.trans e.symm)) joined
    · rintro w ⟨job, epoch, hw⟩
      have other : w ≠ i := by
        rintro rfl
        exact moving job epoch hw
      rw [State.move_of_ne other, phase]

/-- The arrivals stay right when the counter follows the member. -/
lemma Inv.arrivals_move (inv : Inv plan leader s) (phase : t.phase = s.phase)
    (generation : t.generation = s.generation)
    (moving : ∀ job epoch, s.phase i ≠ .waiting job epoch s.generation)
    (before : ∀ job epoch, s.phase i ≠ .releasing job epoch)
    (afterwards : ∀ job epoch, p ≠ .releasing job epoch)
    (count : t.arrivals + arrived s.generation (s.phase i) =
      s.arrivals + arrived s.generation p) :
    (t.move i p).arrivals = ∑ k, arrived (t.move i p).generation ((t.move i p).phase k) ∧
      ∀ k job epoch, (t.move i p).phase k ≠ .releasing job epoch := by
  have none := inv.not_releasing moving before
  have total := inv.arrivals none
  have moved := sum_update (fun _ q => arrived s.generation q) s.phase i p
  simp only [State.move, generation, phase]
  refine ⟨by omega, ?_⟩
  intro k job epoch hk
  by_cases same : k = i
  · subst same
    rw [Function.update_self] at hk
    exact afterwards job epoch hk
  · rw [Function.update_of_ne same] at hk
    exact none k job epoch hk

/-- The counter of rows stays right when it follows the member. -/
lemma Inv.hits_move (inv : Inv plan leader s) (phase : t.phase = s.phase) (jobs : t.jobs = s.jobs)
    (generation : t.generation = s.generation)
    (count : ∀ job, s.epoch = s.generation + 1 → s.jobs.getLast? = some job →
      t.hits + added plan s.generation job i (s.phase i) =
        s.hits + added plan s.generation job i p) :
    ∀ job, (t.move i p).epoch = (t.move i p).generation + 1 →
      (t.move i p).jobs.getLast? = some job →
      (t.move i p).hits =
        ∑ k, added plan (t.move i p).generation job k ((t.move i p).phase k) := by
  intro job open_ last
  simp only [State.move, State.epoch, generation, jobs] at open_ last
  have moved := sum_update (fun k q => added plan s.generation job k q) s.phase i p
  have total := inv.hits job open_ last
  have own := count job open_ last
  simp only [State.move, generation, phase]
  omega

/-- The rows stay as they are when the member only changes its phase. -/
lemma Inv.rows_move (inv : Inv plan leader s) (phase : t.phase = s.phase) (jobs : t.jobs = s.jobs)
    (generation : t.generation = s.generation)
    (results : s.epoch = s.generation + 1 → t.out = s.out ∧ t.base = s.base ∧ t.writers = s.writers)
    (progress : ∀ job, s.epoch = s.generation + 1 → s.jobs.getLast? = some job →
      reached plan s.generation job i p = reached plan s.generation job i (s.phase i)) :
    ∀ job, (t.move i p).epoch = (t.move i p).generation + 1 →
      (t.move i p).jobs.getLast? = some job → Rows plan (t.move i p) job := by
  intro job open_ last
  simp only [State.move, State.epoch, generation, jobs] at open_ last
  obtain ⟨done, todo, outside, frame⟩ := inv.rows job open_ last
  obtain ⟨out, base, writers⟩ := results open_
  have same : ∀ k, reached plan (t.move i p).generation job k ((t.move i p).phase k) =
      reached plan s.generation job k (s.phase k) := by
    intro k
    simp only [State.move, generation, phase]
    by_cases h : k = i
    · subst h
      rw [Function.update_self]
      exact progress job open_ last
    · rw [Function.update_of_ne h]
  refine ⟨?_, ?_, ?_, ?_⟩
  · intro k r lower upper
    rw [same k] at upper
    simp only [State.move, out, writers]
    exact done k r lower upper
  · intro k r lower upper
    rw [same k] at lower
    simp only [State.move, writers]
    exact todo k r lower upper
  · intro r hr
    simp only [State.move, writers]
    exact outside r hr
  · intro a ha
    simp only [State.move, out, base]
    exact frame a ha

/-- The count of slices is right for the member that moves when it is for everybody before. -/
lemma Inv.left_move (inv : Inv plan leader s) (phase : t.phase = s.phase)
    (generation : t.generation = s.generation)
    (left : t.left = Function.update s.left i (leftBy s.generation p)) :
    ∀ k, (t.move i p).left k = leftBy (t.move i p).generation ((t.move i p).phase k) := by
  intro k
  simp only [State.move, generation, phase, left]
  by_cases own : k = i
  · subst own
    rw [Function.update_self, Function.update_self]
  · rw [Function.update_of_ne own, Function.update_of_ne own]
    exact inv.left k

/-- A phase that does not leave a slice keeps the count. -/
lemma Inv.left_same (inv : Inv plan leader s)
    (same : leftBy s.generation p = leftBy s.generation (s.phase i)) :
    s.left = Function.update s.left i (leftBy s.generation p) := by
  rw [same, ← inv.left i, Function.update_eq_self]

/-- What is to be shown of a step that moves one member, with nobody releasing the barrier. -/
lemma Inv.move (inv : Inv plan leader s) (phase : t.phase = s.phase) (jobs : t.jobs = s.jobs)
    (generation : t.generation = s.generation) (closed : t.closed = s.closed)
    (moving : ∀ job epoch, s.phase i ≠ .waiting job epoch s.generation)
    (before : ∀ job epoch, s.phase i ≠ .releasing job epoch)
    (afterwards : ∀ job epoch, p ≠ .releasing job epoch)
    (results : i ≠ leader → s.epoch = s.generation →
      t.hits = s.hits ∧ t.out = s.out ∧ t.base = s.base ∧ t.writers = s.writers)
    (own : At plan leader (t.move i p) i p)
    (left : t.left = Function.update s.left i (leftBy s.generation p))
    (once : ∀ r, (t.writers r).length ≤ 1)
    (arrivals : t.arrivals + arrived s.generation (s.phase i) = s.arrivals + arrived s.generation p)
    (hits : ∀ job, s.epoch = s.generation + 1 → s.jobs.getLast? = some job →
      t.hits + added plan s.generation job i (s.phase i) =
        s.hits + added plan s.generation job i p)
    (rows : ∀ job, (t.move i p).epoch = (t.move i p).generation + 1 →
      (t.move i p).jobs.getLast? = some job → Rows plan (t.move i p) job) :
    Inv plan leader (t.move i p) := by
  obtain ⟨sum, none⟩ := inv.arrivals_move phase generation moving before afterwards arrivals
  refine ⟨inv.phases_move phase jobs generation (fun _ => closed) moving results own,
    inv.left_move phase generation left, ?_, fun _ => sum, ?_,
    inv.hits_move phase jobs generation hits, rows, once⟩
  · intro nonzero
    have joined := inv.closed (by rw [← closed]; exact nonzero)
    simpa only [State.move, State.epoch, jobs, generation] using joined
  · intro k job epoch hk
    exact absurd hk (none k job epoch)

end Move

/-- Jobs and rows do not matter while the last job is joined. -/
lemma not_open {n m : ℕ} {P : Prop} (joined : n = m) (h : n = m + 1) : P := by
  omega

/-- The leader's own writes keep the invariant. -/
lemma step_serial (inv : Inv plan leader s) {out : A → V} (h : s.phase leader = .leading) :
    Inv plan leader ({ s with out }.move leader .leading) := by
  have at_leader := inv.phases leader
  rw [h] at at_leader
  obtain ⟨_, joined, still⟩ := at_leader
  refine inv.move rfl rfl rfl rfl ?_ ?_ nofun (fun other => absurd rfl other) ⟨rfl, joined, still⟩
    (inv.left_same (by rw [h])) inv.once ?_ (fun _ => not_open joined) (fun _ => not_open joined)
  · rw [h]
    exact nofun
  · rw [h]
    exact nofun
  · rw [h]

/-- Clearing the hits keeps the invariant. -/
lemma step_clear (inv : Inv plan leader s) (h : s.phase leader = .leading) :
    Inv plan leader ({ s with hits := 0 }.move leader .prepared) := by
  have at_leader := inv.phases leader
  rw [h] at at_leader
  obtain ⟨_, joined, still⟩ := at_leader
  refine inv.move rfl rfl rfl rfl ?_ ?_ nofun (fun other => absurd rfl other)
    ⟨rfl, joined, still, rfl⟩ (inv.left_same (by rw [h]; rfl)) inv.once ?_
    (fun _ => not_open joined) (fun _ => not_open joined)
  · rw [h]
    exact nofun
  · rw [h]
    exact nofun
  · rw [h]
    rfl

/-- A member that sees a new epoch keeps the invariant as it starts. -/
lemma step_start (inv : Inv plan leader s) {i : ι} {seen : ℕ} {job : J}
    (h : s.phase i = .resting seen) (new : s.epoch ≠ seen) (last : s.jobs.getLast? = some job) :
    Inv plan leader (s.move i (.working job s.epoch (plan.first job i))) := by
  have at_i := inv.phases i
  rw [h] at at_i
  obtain ⟨_, seen_eq⟩ := at_i
  have open_ : s.epoch = s.generation + 1 := by
    rcases inv.epoch_cases with joined | open_
    · omega
    · exact open_
  refine inv.move rfl rfl rfl rfl ?_ ?_ nofun (fun _ _ => ⟨rfl, rfl, rfl, rfl⟩)
    ⟨⟨open_, rfl, last⟩, le_refl _, plan.first_le job i⟩ (inv.left_same (by rw [h]; rfl))
    inv.once ?_ ?_ (inv.rows_move rfl rfl rfl (fun _ => ⟨rfl, rfl, rfl⟩) ?_)
  · rw [h]
    exact nofun
  · rw [h]
    exact nofun
  · rw [h]
    rfl
  · intro job' _ _
    rw [h]
    rfl
  · intro job' _ last'
    rw [last] at last'
    cases last'
    rw [h]
    rfl

/-- Counting the rows done keeps the invariant. -/
lemma step_add (inv : Inv plan leader s) {i : ι} {job : J} {epoch : ℕ}
    (h : s.phase i = .working job epoch (plan.stop job i)) :
    Inv plan leader ({ s with
      hits := s.hits + (plan.stop job i - plan.first job i)
      left := Function.update s.left i (s.left i + 1) }.move i (.counted job epoch)) := by
  have at_i := inv.phases i
  rw [h] at at_i
  obtain ⟨current, _⟩ := at_i
  refine inv.move rfl rfl rfl rfl ?_ ?_ nofun ?_ ⟨current.open_, current.epoch, current.job⟩ ?_
    inv.once ?_ ?_ (inv.rows_move rfl rfl rfl (fun _ => ⟨rfl, rfl, rfl⟩) ?_)
  · rw [h]
    exact nofun
  · rw [h]
    exact nofun
  · intro _ joined
    exact not_open joined current.open_
  · rw [inv.left i, h]
    rfl
  · rw [h]
    rfl
  · intro job' _ last
    rw [current.job] at last
    cases last
    rw [h]
    rfl
  · intro job' _ last
    rw [current.job] at last
    cases last
    rw [h]
    rfl

/-- Reading the generation before the barrier keeps the invariant. -/
lemma step_align (inv : Inv plan leader s) {i : ι} {job : J} {epoch : ℕ}
    (h : s.phase i = .counted job epoch) :
    Inv plan leader (s.move i (.arriving job epoch s.generation)) := by
  have at_i := inv.phases i
  rw [h] at at_i
  refine inv.move rfl rfl rfl rfl ?_ ?_ nofun (fun _ _ => ⟨rfl, rfl, rfl, rfl⟩)
    ⟨⟨at_i.open_, at_i.epoch, at_i.job⟩, rfl⟩ (inv.left_same (by rw [h]; rfl))
    inv.once ?_ ?_ (inv.rows_move rfl rfl rfl (fun _ => ⟨rfl, rfl, rfl⟩) ?_)
  · rw [h]
    exact nofun
  · rw [h]
    exact nofun
  · rw [h]
    rfl
  · intro _ _ _
    rw [h]
    rfl
  · intro _ _ _
    rw [h]
    rfl

/-- Arriving before the last keeps the invariant. -/
lemma step_arrive (inv : Inv plan leader s) {i : ι} {job : J} {epoch generation : ℕ}
    (h : s.phase i = .arriving job epoch generation) :
    Inv plan leader ({ s with arrivals := s.arrivals + 1 }.move i
      (.waiting job epoch generation)) := by
  have at_i := inv.phases i
  rw [h] at at_i
  obtain ⟨current, rfl⟩ := at_i
  refine inv.move rfl rfl rfl rfl ?_ ?_ nofun (fun _ _ => ⟨rfl, rfl, rfl, rfl⟩)
    (.inl ⟨⟨current.open_, current.epoch, current.job⟩, rfl⟩) (inv.left_same (by rw [h]; rfl))
    inv.once ?_ ?_ (inv.rows_move rfl rfl rfl (fun _ => ⟨rfl, rfl, rfl⟩) ?_)
  · rw [h]
    exact nofun
  · rw [h]
    exact nofun
  · rw [h]
    simp [arrived]
  · intro _ _ _
    rw [h]
    simp [added]
  · intro _ _ _
    rw [h]
    simp [reached]

omit [DecidableEq ι] in
/-- Nobody has computed the row that a member is about to compute. -/
lemma Inv.fresh (inv : Inv plan leader s) {i : ι} {job : J} {epoch next : ℕ}
    (h : s.phase i = .working job epoch next) (more : next < plan.stop job i) :
    s.writers next = [] := by
  have at_i := inv.phases i
  rw [h] at at_i
  refine (inv.rows job at_i.1.open_ at_i.1.job).todo i next ?_ more
  rw [h]
  exact le_refl _

/-- Computing a row keeps the invariant. -/
lemma step_compute [DecidableEq A] (inv : Inv plan leader s) {i : ι} {job : J} {epoch next : ℕ}
    (h : s.phase i = .working job epoch next) (more : next < plan.stop job i) :
    Inv plan leader ({ s with
      out := Function.update s.out (plan.place job next) (plan.value job next)
      writers := Function.update s.writers next (s.writers next ++ [i]) }.move i
        (.working job epoch (next + 1))) := by
  have at_i := inv.phases i
  rw [h] at at_i
  obtain ⟨current, lower, upper⟩ := at_i
  refine inv.move rfl rfl rfl rfl ?_ ?_ nofun ?_
    ⟨⟨current.open_, current.epoch, current.job⟩, by omega, by omega⟩
    (inv.left_same (by rw [h]; rfl)) ?_ ?_ ?_ ?_
  · rw [h]
    exact nofun
  · rw [h]
    exact nofun
  · intro _ joined
    exact not_open joined current.open_
  -- a row that is still to do has no writer yet
  · intro r
    by_cases this_row : r = next
    · subst this_row
      simp [inv.fresh h more]
    · simpa [this_row] using inv.once r
  · rw [h]
    rfl
  · intro _ _ _
    rw [h]
    rfl
  -- the row is in the member's slice alone, and was still to do
  · intro job' open_ last
    have same : job' = job := by
      have last' : s.jobs.getLast? = some job' := last
      rw [current.job] at last'
      cases last'
      rfl
    subst same
    obtain ⟨done, todo, outside, frame⟩ := inv.rows job' current.open_ current.job
    have in_slice : ∀ k, plan.first job' k ≤ next → next < plan.stop job' k → k = i :=
      fun k hk hk' => plan.disjoint job' next k i hk hk' lower more
    have bound : next < plan.rows job' := lt_of_lt_of_le more (plan.stop_le job' i)
    have fresh := inv.fresh h more
    refine ⟨?_, ?_, ?_, ?_⟩
    -- behind a member's reach a row is done: this one now, the others before
    · intro k r first_le below
      by_cases this_row : r = next
      · subst this_row
        have reached_le : reached plan s.generation job' k ((s.move i
            (.working job' epoch (r + 1))).phase k) ≤ plan.stop job' k := by
          by_cases own : k = i
          · subst own
            rw [State.move_self]
            exact more
          · rw [State.move_of_ne own]
            exact (inv.phases k).reached_le current.job
        have own : k = i := in_slice k first_le (lt_of_lt_of_le below reached_le)
        subst own
        exact ⟨by simp [State.move], by simp [State.move, fresh]⟩
      · have before : r < reached plan s.generation job' k (s.phase k) := by
          by_cases own : k = i
          · subst own
            rw [State.move_self] at below
            have below' : r < next + 1 := below
            rw [h]
            show r < next
            omega
          · rw [State.move_of_ne own] at below
            exact below
        have elsewhere : plan.place job' r ≠ plan.place job' next :=
          fun same => this_row (plan.place_inj same)
        simpa [State.move, this_row, elsewhere] using done k r first_le before
    -- from a reach on a row is as the job found it, so it is not the one just written
    · intro k r above below
      have other : r ≠ next := by
        rintro rfl
        by_cases own : k = i
        · subst own
          rw [State.move_self] at above
          have above' : r + 1 ≤ r := above
          omega
        · rw [State.move_of_ne own] at above
          have lower' := le_trans ((inv.phases k).first_le_reached current.job) above
          exact own (in_slice k lower' below)
      have before : reached plan s.generation job' k (s.phase k) ≤ r := by
        by_cases own : k = i
        · subst own
          rw [State.move_self] at above
          have above' : next + 1 ≤ r := above
          rw [h]
          show next ≤ r
          omega
        · rw [State.move_of_ne own] at above
          exact above
      simpa [State.move, other] using todo k r before below
    · intro r hr
      have other : r ≠ next := by omega
      simpa [State.move, other] using outside r hr
    · intro a ha
      simpa [State.move, ha next bound] using frame a ha

/-- While the barrier is not being released, the last to arrive finds the others waiting. -/
lemma Inv.others_waiting (inv : Inv plan leader s) {i : ι}
    {job : J} {epoch generation : ℕ} (h : s.phase i = .arriving job epoch generation)
    (full : s.arrivals + 1 = Fintype.card ι) :
    ∀ k, k ≠ i → ∃ job epoch, s.phase k = .waiting job epoch s.generation := by
  have none := inv.not_releasing (i := i) (by rw [h]; exact nofun) (by rw [h]; exact nofun)
  have total := inv.arrivals none
  have at_most : ∀ k, arrived s.generation (s.phase k) ≤ 1 := by
    intro k
    cases s.phase k <;> simp [arrived]
    split <;> omega
  have own : arrived s.generation (s.phase i) = 0 := by
    rw [h]
    rfl
  have others : ∑ k ∈ Finset.univ.erase i, arrived s.generation (s.phase k) =
      ∑ k ∈ Finset.univ.erase i, 1 := by
    have split := Finset.add_sum_erase Finset.univ (fun k => arrived s.generation (s.phase k))
      (Finset.mem_univ i)
    have card : (Finset.univ.erase i : Finset ι).card = Fintype.card ι - 1 := by
      rw [Finset.card_erase_of_mem (Finset.mem_univ i), Finset.card_univ]
    rw [Finset.sum_const, card, Nat.nsmul_eq_mul, Nat.mul_one]
    omega
  have each := (Finset.sum_eq_sum_iff_of_le (fun k _ => at_most k)).mp others
  intro k hk
  have one := each k (Finset.mem_erase.mpr ⟨hk, Finset.mem_univ k⟩)
  -- somebody at the end of the barrier would leave no room for the one who arrives
  have at_k := inv.phases k
  cases hp : s.phase k with
  | waiting job' epoch' g =>
    rw [hp] at one
    have same : g = s.generation := by
      by_contra other
      simp [arrived, other] at one
    exact ⟨job', epoch', by rw [same]⟩
  | last =>
    rw [hp] at at_k
    obtain ⟨job', epoch', hi⟩ := at_k.2 i (Ne.symm hk)
    rw [h] at hi
    cases hi
  | _ =>
    rw [hp] at one
    cases one

/-- Arriving last keeps the invariant. -/
lemma step_arriveLast (inv : Inv plan leader s) {i : ι} {job : J} {epoch generation : ℕ}
    (h : s.phase i = .arriving job epoch generation) (full : s.arrivals + 1 = Fintype.card ι) :
    Inv plan leader ({ s with arrivals := s.arrivals + 1 }.move i (.last job epoch)) := by
  have others := inv.others_waiting h full
  have at_i := inv.phases i
  rw [h] at at_i
  obtain ⟨current, rfl⟩ := at_i
  refine inv.move rfl rfl rfl rfl ?_ ?_ nofun ?_
    ⟨⟨current.open_, current.epoch, current.job⟩, ?_⟩ (inv.left_same (by rw [h]; rfl)) inv.once
    ?_ ?_ ?_
  · rw [h]
    exact nofun
  · rw [h]
    exact nofun
  · intro _ joined
    exact not_open joined current.open_
  · intro k hk
    rw [State.move_of_ne hk]
    exact others k hk
  · rw [h]
    rfl
  · intro _ _ _
    rw [h]
    rfl
  · refine inv.rows_move rfl rfl rfl (fun _ => ⟨rfl, rfl, rfl⟩) ?_
    intro _ _ _
    rw [h]
    rfl

/-- The last to arrive keeps the invariant when it resets the arrivals. -/
lemma step_reset (inv : Inv plan leader s) {i : ι} {job : J} {epoch : ℕ}
    (h : s.phase i = .last job epoch) :
    Inv plan leader ({ s with arrivals := 0 }.move i (.releasing job epoch)) := by
  have at_i := inv.phases i
  rw [h] at at_i
  obtain ⟨current, others⟩ := at_i
  have moving : ∀ job epoch, s.phase i ≠ .waiting job epoch s.generation := by
    rw [h]
    exact nofun
  refine ⟨?_, inv.left_move rfl rfl (inv.left_same (by rw [h]; rfl)), inv.closed, ?_,
    fun _ _ _ _ => rfl, ?_, ?_, inv.once⟩
  · refine inv.phases_move rfl rfl rfl (fun _ => rfl) moving (fun _ _ => ⟨rfl, rfl, rfl, rfl⟩) ?_
    refine ⟨⟨current.open_, current.epoch, current.job⟩, fun k hk => ?_⟩
    rw [State.move_of_ne hk]
    exact others k hk
  · intro none
    exact absurd (State.move_self _ i (.releasing job epoch)) (none i job epoch)
  · refine inv.hits_move rfl rfl rfl ?_
    intro _ _ _
    rw [h]
    rfl
  · refine inv.rows_move rfl rfl rfl (fun _ => ⟨rfl, rfl, rfl⟩) ?_
    intro _ _ _
    rw [h]
    rfl

/-- The member that releases the barrier finds the job complete. -/
lemma Inv.complete (inv : Inv plan leader s) {i : ι} {job : J} {epoch : ℕ}
    (h : s.phase i = .releasing job epoch) :
    Current s job epoch ∧ Complete plan s job ∧
      ∀ k, k ≠ i → ∃ epoch, s.phase k = .waiting job epoch s.generation ∧ epoch = s.epoch := by
  have at_i := inv.phases i
  rw [h] at at_i
  obtain ⟨current, others⟩ := at_i
  -- the others have arrived, so they wait in this very job
  have waiting : ∀ k, k ≠ i → ∃ epoch, s.phase k = .waiting job epoch s.generation ∧
      epoch = s.epoch := by
    intro k hk
    obtain ⟨job', epoch', hw⟩ := others k hk
    have at_k := inv.phases k
    rw [hw] at at_k
    rcases at_k with ⟨now, _⟩ | ⟨past, _⟩
    · have same := now.job
      rw [current.job] at same
      cases same
      exact ⟨epoch', hw, now.epoch⟩
    · omega
  -- and whoever has arrived is through with its slice
  have slices : ∀ k, reached plan s.generation job k (s.phase k) = plan.stop job k := by
    intro k
    by_cases own : k = i
    · subst own
      rw [h]
      rfl
    · obtain ⟨e, hw, _⟩ := waiting k own
      rw [hw]
      simp [reached]
  have counts : ∀ k, added plan s.generation job k (s.phase k) =
      plan.stop job k - plan.first job k := by
    intro k
    by_cases own : k = i
    · subst own
      rw [h]
      rfl
    · obtain ⟨e, hw, _⟩ := waiting k own
      rw [hw]
      simp [added]
  obtain ⟨done, todo, outside, frame⟩ := inv.rows job current.open_ current.job
  refine ⟨current, ⟨current.job, ?_, ?_, frame, ?_, outside⟩, waiting⟩
  · rw [inv.hits job current.open_ current.job, Finset.sum_congr rfl (fun k _ => counts k),
      plan.total]
  · intro r in_rows
    obtain ⟨k, lower, upper⟩ := plan.cover job r in_rows
    exact (done k r lower (by rw [slices k]; exact upper)).1
  · intro k r lower upper
    exact (done k r lower (by rw [slices k]; exact upper)).2

/-- Where a member that leaves the barrier goes, the state is as it should be. -/
lemma at_after {i : ι} {job : J} {epoch : ℕ} (number : epoch = s.generation)
    (results : i = leader → s.epoch = s.generation ∧ s.closed = 0 ∧ Complete plan s job) :
    At plan leader s i (after leader i job epoch) := by
  unfold after
  split
  · rename_i own
    exact ⟨own, results own⟩
  · rename_i other
    exact ⟨other, number⟩

omit [Fintype ι] in
/-- Behind the barrier a member rests, or checks. -/
lemma after_idle {i : ι} {job : J} {epoch : ℕ} :
    (∃ seen, after leader i job epoch = .resting seen) ∨
      ∃ job', after leader i job epoch = .checking job' := by
  unfold after
  split
  · exact .inr ⟨_, rfl⟩
  · exact .inl ⟨_, rfl⟩

/-- The last to arrive keeps the invariant when it opens the barrier. -/
lemma step_release (inv : Inv plan leader s) {i : ι} {job : J} {epoch : ℕ}
    (h : s.phase i = .releasing job epoch) :
    Inv plan leader ({ s with generation := s.generation + 1 }.move i
      (after leader i job epoch)) := by
  obtain ⟨current, complete, waiting⟩ := inv.complete h
  have still : s.closed = 0 := by
    by_contra nonzero
    exact not_open (inv.closed nonzero) current.open_
  have joined : s.epoch = s.generation + 1 := current.open_
  have zero := inv.released i job epoch h
  refine ⟨?_, ?_, fun _ => joined, ?_, fun _ _ _ _ => zero, ?_, ?_, inv.once⟩
  -- the others wait for the generation that has just ended
  · intro k
    by_cases own : k = i
    · subst own
      rw [State.move_self]
      refine at_after (s := (_ : State ι J A V).move k _) ?_ fun _ => ⟨joined, still, ?_⟩
      · exact current.epoch.trans joined
      · exact ⟨complete.last, complete.hits, complete.out, complete.frame, complete.writers,
        complete.outside⟩
    · rw [State.move_of_ne own]
      obtain ⟨e, hw, number⟩ := waiting k own
      show At plan leader _ k (s.phase k)
      rw [hw]
      refine .inr ⟨rfl, number.trans joined, fun _ => ⟨joined, still, ?_⟩⟩
      exact ⟨complete.last, complete.hits, complete.out, complete.frame, complete.writers,
        complete.outside⟩
  -- a slice that its member has counted stays one it has left behind
  · intro k
    show s.left k = _
    by_cases own : k = i
    · subst own
      rw [State.move_self, inv.left k, h]
      have idle : (∃ seen, after leader k job epoch = .resting seen) ∨ _ := after_idle
      rcases idle with ⟨seen, hp⟩ | ⟨job', hp⟩ <;> rw [hp] <;> rfl
    · rw [State.move_of_ne own, inv.left k]
      obtain ⟨e, hw, _⟩ := waiting k own
      show leftBy s.generation (s.phase k) = leftBy (s.generation + 1) (s.phase k)
      rw [hw]
      rfl
  -- nobody has arrived at the next barrier
  · intro _
    show s.arrivals = _
    rw [zero]
    symm
    apply Finset.sum_eq_zero
    intro k _
    by_cases own : k = i
    · subst own
      rw [State.move_self]
      have idle : (∃ seen, after leader k job epoch = .resting seen) ∨ _ := after_idle
      rcases idle with ⟨seen, hp⟩ | ⟨job', hp⟩ <;> rw [hp] <;> rfl
    · rw [State.move_of_ne own]
      obtain ⟨e, hw, _⟩ := waiting k own
      show arrived (s.generation + 1) (s.phase k) = 0
      rw [hw]
      simp [arrived]
  · intro job' open_
    exact not_open (m := s.generation + 1) joined open_
  · intro job' open_
    exact not_open (m := s.generation + 1) joined open_

/-- Leaving an open barrier keeps the invariant. -/
lemma step_leave (inv : Inv plan leader s) {i : ι} {job : J} {epoch generation : ℕ}
    (h : s.phase i = .waiting job epoch generation) (released : s.generation ≠ generation) :
    Inv plan leader (s.move i (after leader i job epoch)) := by
  have at_i := inv.phases i
  rw [h] at at_i
  -- the barrier has been released since the member arrived at it
  obtain ⟨past, number, own⟩ : generation + 1 = s.generation ∧ epoch = s.generation ∧
      (i = leader → s.epoch = s.generation ∧ s.closed = 0 ∧ Complete plan s job) := by
    rcases at_i with ⟨_, now⟩ | past
    · exact absurd now.symm released
    · exact past
  have moving : ∀ job epoch, s.phase i ≠ .waiting job epoch s.generation := by
    intro job' epoch' hw
    rw [h] at hw
    cases hw
    exact released rfl
  have idle : (∃ seen, after leader i job epoch = .resting seen) ∨ _ := after_idle
  have count : leftBy s.generation (after leader i job epoch) = generation + 1 := by
    rw [past]
    rcases idle with ⟨_, hp⟩ | ⟨_, hp⟩ <;> rw [hp] <;> rfl
  refine inv.move rfl rfl rfl rfl moving ?_ ?_ (fun _ _ => ⟨rfl, rfl, rfl, rfl⟩) ?_
    (inv.left_same (by rw [h, count]; rfl)) inv.once ?_ ?_
    (inv.rows_move rfl rfl rfl (fun _ => ⟨rfl, rfl, rfl⟩) ?_)
  · rw [h]
    exact nofun
  · rcases idle with ⟨_, hp⟩ | ⟨_, hp⟩ <;> rw [hp] <;> exact nofun
  · refine at_after number fun il => ?_
    obtain ⟨joined, still, complete⟩ := own il
    exact ⟨joined, still, complete.last, complete.hits, complete.out, complete.frame, complete.writers,
      complete.outside⟩
  · rw [h]
    have none : arrived s.generation (.waiting job epoch generation : Phase J) = 0 := by
      simp [arrived, Ne.symm released]
    rcases idle with ⟨_, hp⟩ | ⟨_, hp⟩ <;> rw [hp, none] <;> rfl
  · intro job' _ _
    rw [h]
    have none : added plan s.generation job' i (.waiting job epoch generation) = 0 := by
      simp [added, Ne.symm released]
    rcases idle with ⟨_, hp⟩ | ⟨_, hp⟩ <;> rw [hp, none] <;> rfl
  · intro job' _ _
    rw [h]
    have none : reached plan s.generation job' i (.waiting job epoch generation) =
        plan.first job' i := by
      simp [reached, Ne.symm released]
    rcases idle with ⟨_, hp⟩ | ⟨_, hp⟩ <;> rw [hp, none] <;> rfl

/-- The leader keeps the invariant when it has checked the hits. -/
lemma step_check (inv : Inv plan leader s) {job : J} (h : s.phase leader = .checking job) :
    Inv plan leader (s.move leader .leading) := by
  have at_leader := inv.phases leader
  rw [h] at at_leader
  obtain ⟨_, joined, still, _⟩ := at_leader
  refine inv.move rfl rfl rfl rfl ?_ ?_ nofun (fun _ _ => ⟨rfl, rfl, rfl, rfl⟩)
    ⟨rfl, joined, still⟩ (inv.left_same (by rw [h]; rfl)) inv.once ?_ (fun _ => not_open joined)
    (fun _ => not_open joined)
  · rw [h]
    exact nofun
  · rw [h]
    exact nofun
  · rw [h]
    rfl

omit [DecidableEq ι] in
/-- The leader never finds rows uncounted. -/
lemma Inv.hits_eq (inv : Inv plan leader s) {job : J} (h : s.phase leader = .checking job) :
    s.hits = plan.rows job := by
  have at_leader := inv.phases leader
  rw [h] at at_leader
  exact at_leader.2.2.2.hits

/-- A member that ends keeps the invariant. -/
lemma step_close (inv : Inv plan leader s) {i : ι} {seen : ℕ} (h : s.phase i = .resting seen)
    (closed : s.closed ≠ 0) : Inv plan leader (s.move i .finished) := by
  refine inv.move rfl rfl rfl rfl ?_ ?_ nofun (fun _ _ => ⟨rfl, rfl, rfl, rfl⟩) closed
    (inv.left_same (by rw [h]; rfl)) inv.once ?_ (fun _ => not_open (inv.closed closed))
    (fun _ => not_open (inv.closed closed))
  · rw [h]
    exact nofun
  · rw [h]
    exact nofun
  · rw [h]
    rfl

/-- The leader keeps the invariant when it closes. -/
lemma step_finish (inv : Inv plan leader s) {code : ℕ} (h : s.phase leader = .leading)
    (nonzero : code ≠ 0) : Inv plan leader ({ s with closed := code }.move leader .finished) := by
  have at_leader := inv.phases leader
  rw [h] at at_leader
  obtain ⟨_, joined, still⟩ := at_leader
  have moving : ∀ job epoch, s.phase leader ≠ .waiting job epoch s.generation := by
    rw [h]
    exact nofun
  obtain ⟨arrivals, none⟩ := inv.arrivals_move (t := { s with closed := code }) (i := leader)
    (p := .finished) rfl rfl moving (by rw [h]; exact nofun) nofun (by rw [h]; rfl)
  refine ⟨?_, inv.left_move rfl rfl (inv.left_same (by rw [h]; rfl)), fun _ => joined,
    fun _ => arrivals, ?_, fun _ => not_open joined, fun _ => not_open joined, inv.once⟩
  · refine inv.phases_move rfl rfl rfl ?_ moving (fun other => absurd rfl other) nonzero
    rintro (other | closed)
    · exact absurd rfl other
    · exact absurd still closed
  · intro k job epoch hk
    exact absurd hk (none k job epoch)

omit [DecidableEq ι] in
/-- With every job joined and more to come, a member that does not lead rests or has yet to leave
the barrier. -/
lemma Inv.idle (inv : Inv plan leader s) (joined : s.epoch = s.generation) (still : s.closed = 0)
    {k : ι} (other : k ≠ leader) : s.phase k = .resting s.generation ∨
      ∃ job generation, s.phase k = .waiting job s.generation generation ∧
        generation + 1 = s.generation := by
  have at_k := inv.phases k
  cases hp : s.phase k <;> rw [hp] at at_k
  case resting =>
    rw [at_k.2]
    exact .inl rfl
  case leading => exact absurd at_k.1 other
  case prepared => exact absurd at_k.1 other
  case working => exact not_open joined at_k.1.open_
  case counted => exact not_open joined at_k.open_
  case arriving => exact not_open joined at_k.1.open_
  case waiting job epoch generation =>
    rcases at_k with ⟨current, _⟩ | ⟨past, number, _⟩
    · exact not_open joined current.open_
    · exact .inr ⟨job, generation, by rw [number], past⟩
  case last => exact not_open joined at_k.1.open_
  case releasing => exact not_open joined at_k.1.open_
  case checking => exact absurd at_k.1 other
  case finished => exact absurd still at_k
  case failed => exact at_k.elim

/-- Publishing a job keeps the invariant. -/
lemma step_publish (inv : Inv plan leader s) {job : J} (h : s.phase leader = .prepared) :
    Inv plan leader ({ s with
      jobs := s.jobs ++ [job]
      base := s.out
      writers := fun _ => [] }.move leader
        (.working job (s.epoch + 1) (plan.first job leader))) := by
  have at_leader := inv.phases leader
  rw [h] at at_leader
  obtain ⟨_, joined, still, zero⟩ := at_leader
  have open_ : (s.jobs ++ [job]).length = s.generation + 1 := by
    rw [List.length_append, ← joined]
    rfl
  have last : (s.jobs ++ [job]).getLast? = some job := List.getLast?_concat
  have moving : ∀ job epoch, s.phase leader ≠ .waiting job epoch s.generation := by
    rw [h]
    exact nofun
  -- nobody has begun with the new job
  have begun : ∀ k, k ≠ leader → reached plan s.generation job k (s.phase k) = plan.first job k ∧
      added plan s.generation job k (s.phase k) = 0 := by
    intro k other
    rcases inv.idle joined still other with hp | ⟨_, g, hp, past⟩ <;> rw [hp]
    · exact ⟨rfl, rfl⟩
    · have gone : g ≠ s.generation := by omega
      simp [reached, added, gone]
  obtain ⟨arrivals, none⟩ := inv.arrivals_move (t := { s with
      jobs := s.jobs ++ [job]
      base := s.out
      writers := fun _ => [] }) (i := leader)
    (p := .working job (s.epoch + 1) (plan.first job leader)) rfl rfl moving
    (by rw [h]; exact nofun) nofun (by rw [h]; rfl)
  refine ⟨?_, inv.left_move rfl rfl (inv.left_same (by rw [h]; rfl)),
    fun closed => absurd still closed, fun _ => arrivals, ?_, ?_, ?_, fun _ => Nat.zero_le 1⟩
  -- the leader works on the job, the others rest or still wait at the last barrier
  · intro k
    by_cases own : k = leader
    · subst own
      rw [State.move_self]
      refine ⟨⟨open_, ?_, last⟩, le_refl _, plan.first_le job k⟩
      show s.epoch + 1 = (s.jobs ++ [job]).length
      rw [open_, joined]
    · rw [State.move_of_ne own]
      show At plan leader _ k (s.phase k)
      rcases inv.idle joined still own with hp | ⟨_, g, hp, past⟩ <;> rw [hp]
      · exact ⟨own, rfl⟩
      · exact .inr ⟨past, rfl, fun il => absurd il own⟩
  · intro k job epoch hk
    exact absurd hk (none k job epoch)
  -- the hits start at zero, and nobody has added any
  · intro job' _ last'
    cases last.symm.trans last'
    show s.hits = _
    rw [zero]
    symm
    apply Finset.sum_eq_zero
    intro k _
    by_cases own : k = leader
    · subst own
      rw [State.move_self]
      rfl
    · rw [State.move_of_ne own]
      exact (begun k own).2
  -- no row is done, so the memory is still that before the job
  · intro job' _ last'
    cases last.symm.trans last'
    refine ⟨?_, fun _ _ _ _ => rfl, fun _ _ => rfl, fun _ _ => rfl⟩
    intro k r lower below
    by_cases own : k = leader
    · subst own
      rw [State.move_self] at below
      exact absurd below (Nat.not_lt.mpr lower)
    · rw [State.move_of_ne own] at below
      have at_first : reached plan s.generation job k (s.phase k) = plan.first job k :=
        (begun k own).1
      exact absurd (lt_of_lt_of_eq below at_first) (Nat.not_lt.mpr lower)

/-- One step of the protocol keeps the invariant. -/
theorem step_inv [DecidableEq A] (inv : Inv plan leader s) (h : Step plan leader s s') :
    Inv plan leader s' := by
  cases h with
  | serial out h => exact step_serial inv h
  | clear h => exact step_clear inv h
  | publish job h => exact step_publish inv h
  | finish code h nonzero => exact step_finish inv h nonzero
  | start h new last => exact step_start inv h new last
  | compute h more => exact step_compute inv h more
  | add h => exact step_add inv h
  | align h => exact step_align inv h
  | arrive h _ => exact step_arrive inv h
  | arriveLast h full => exact step_arriveLast inv h full
  | reset h => exact step_reset inv h
  | release h => exact step_release inv h
  | leave h released => exact step_leave inv h released
  | check h _ => exact step_check inv h
  | mismatch h counted => exact absurd (inv.hits_eq h) counted
  | close h closed => exact step_close inv h closed

omit [DecidableEq ι] in
/-- Between two jobs nobody stands at the barrier. -/
lemma Inv.quiet (inv : Inv plan leader s) (joined : s.epoch = s.generation) : s.arrivals = 0 := by
  have shut : ∀ {job epoch}, ¬ Current s job epoch :=
    fun current => not_open joined current.open_
  rw [inv.arrivals]
  · apply Finset.sum_eq_zero
    intro i _
    have at_i := inv.phases i
    cases hp : s.phase i with
    | waiting job epoch g =>
      rw [hp] at at_i
      rcases at_i with ⟨current, _⟩ | ⟨past, _⟩
      · exact absurd current shut
      · simp only [arrived]
        rw [if_neg (by omega)]
    | last =>
      rw [hp] at at_i
      exact absurd at_i.1 shut
    | _ => rfl
  · intro i job epoch hp
    have at_i := inv.phases i
    rw [hp] at at_i
    exact shut at_i.1

omit [DecidableEq ι] in
/-- Everybody has left the slices of all jobs that are joined. -/
lemma Inv.generation_le_left (inv : Inv plan leader s) (i : ι) : s.generation ≤ s.left i := by
  rw [inv.left i]
  have at_i := inv.phases i
  cases hp : s.phase i with
  | waiting job epoch g =>
    rw [hp] at at_i
    show s.generation ≤ g + 1
    rcases at_i with ⟨_, now⟩ | ⟨past, _⟩ <;> omega
  | counted => exact Nat.le_succ _
  | arriving => exact Nat.le_succ _
  | last => exact Nat.le_succ _
  | releasing => exact Nat.le_succ _
  | _ => exact le_refl _

omit [DecidableEq ι] in
/-- Once the protocol is closed, a member that has not finished rests or has yet to leave the
barrier. -/
lemma Inv.ended (inv : Inv plan leader s) (closed : s.closed ≠ 0) (k : ι) :
    (k ≠ leader ∧ s.phase k = .resting s.generation) ∨
      (k ≠ leader ∧ ∃ job generation, s.phase k = .waiting job s.generation generation ∧
        generation + 1 = s.generation) ∨ s.phase k = .finished := by
  have joined := inv.closed closed
  have at_k := inv.phases k
  cases hp : s.phase k <;> rw [hp] at at_k
  case resting =>
    rw [at_k.2]
    exact .inl ⟨at_k.1, rfl⟩
  case leading => exact absurd at_k.2.2 closed
  case prepared => exact absurd at_k.2.2.1 closed
  case working => exact not_open joined at_k.1.open_
  case counted => exact not_open joined at_k.open_
  case arriving => exact not_open joined at_k.1.open_
  case waiting job epoch generation =>
    rcases at_k with ⟨current, _⟩ | ⟨past, number, own⟩
    · exact not_open joined current.open_
    · refine .inr (.inl ⟨fun leads => closed (own leads).2.1, job, generation, ?_, past⟩)
      rw [number]
  case last => exact not_open joined at_k.1.open_
  case releasing => exact not_open joined at_k.1.open_
  case checking => exact absurd at_k.2.2.1 closed
  case finished => exact .inr (.inr rfl)
  case failed => exact at_k.elim

end Invariant

end ForkJoin
