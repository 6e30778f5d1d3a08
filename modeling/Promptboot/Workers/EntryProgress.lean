import Mathlib.Algebra.Order.BigOperators.Group.Finset
import Promptboot.Lib.FairSchedule
import Promptboot.Workers.EntryCorrect

/-!
# Every callback returns

The entry protocol does not get stuck. Whatever the order of the accesses, a schedule that lets every
processor run again and again brings all callbacks back, from any state that an entry can come to;
only the barrier makes a processor wait, and the last one to arrive opens it.

`EntryPc.left` bounds the accesses that a callback still has to make and is the rank of
`FairSchedule.eventually`: an access lowers it (`step_left`) unless the callback spins in front of a
barrier that is closed. `EntryInv.someone` finds a callback that does not. The main result is
`run_entryProtocol`: in every interleaving the callbacks keep to the protocol, and under every fair
schedule they all return.
-/

namespace Promptboot
open FairSchedule

/-- A bound for the accesses that a callback still has to make, of `workers` ones. -/
def EntryPc.left (workers : Nat) : EntryPc → Nat
  | .turnedAway | .returned _ _ _ => 0
  | .rejectSlot | .countReturn _ _ _ => 1
  | .storeRestored _ _ _ => 2
  | .storeStatus _ _ _ _ => 3
  | .callWorker _ _ => 4
  | .loadRejection _ _ => 5
  | .storeBackend _ _ => 6
  | .rejectReady _ _ => 7
  | .readPeer _ peer _ => 8 + (workers - peer)
  | .spin _ _ | .release _ => 9 + workers
  | .resetArrivals _ => 10 + workers
  | .arrive _ _ => 11 + workers
  | .loadGeneration _ => 12 + workers
  | .storeReady _ => 13 + workers
  | .rejectMark _ => 14 + workers
  | .mark _ => 15 + workers
  | .takeSlot => 16 + workers

namespace MpCall
variable {n : Nat} {cpus : Processors n} {s : MpCall n} {c : Fin (n + 2)}

/-- A callback whose next access gets it further. -/
def Moves (s : MpCall n) (c : Fin (n + 2)) : Prop :=
  match s.pc c with
  | .turnedAway | .returned _ _ _ => False
  | .spin _ generation => s.generation ≠ generation
  | _ => True

/-- All callbacks have returned from the entry. -/
def AllReturned (s : MpCall n) : Prop := ∀ c, ∃ slot v called, s.pc c = .returned slot v called

/-- The accesses that are left to all callbacks. -/
def left (s : MpCall n) : Nat := ∑ c, (s.pc c).left (n + 2)

/-- An access moves the callback that makes it, and nobody else. -/
lemma step_others {d : Fin (n + 2)} (other : d ≠ c) : (s.step cpus c).pc d = s.pc d := by
  unfold step
  split <;> (try split) <;> first | rfl | exact Function.update_of_ne other _ _

/-- An access brings its callback nearer to the end, unless it has none to make or the barrier is
closed. -/
lemma step_left (inv : EntryInv cpus s) (moves : s.Moves c) :
    ((s.step cpus c).pc c).left (n + 2) < (s.pc c).left (n + 2) := by
  have at_c := inv.locals c
  unfold Moves at moves
  cases h : s.pc c <;> simp only [h] at moves at_c <;> simp only [step, h]
  case spin slot generation =>
    rw [if_neg moves]
    simp [goto, EntryPc.left]
  case readPeer slot peer v =>
    have lt : peer < n + 2 := at_c.lt
    simp only [goto, Function.update_self, judged]
    split_ifs <;> simp only [EntryPc.left] <;> omega
  case takeSlot | mark | arrive | storeBackend | loadRejection =>
    simp only [goto, setRecord, Function.update_self]
    split_ifs <;> simp only [EntryPc.left] <;> omega
  all_goals
    simp only [goto, setRecord, Function.update_self, EntryPc.left]
    omega

/-- Nothing changes where a callback has no access to make that gets it further. -/
lemma step_idle (idle : ¬s.Moves c) : s.step cpus c = s := by
  unfold Moves at idle
  cases h : s.pc c <;> simp only [h, not_true_eq_false, not_not] at idle <;> simp only [step, h]
  case spin slot generation => rw [if_pos idle]

/-- In a state short of the end there is a callback that moves. -/
lemma EntryInv.someone (inv : EntryInv cpus s) (unfinished : ¬s.AllReturned) :
    ∃ c, s.Moves c := by
  obtain ⟨c, away⟩ := not_forall.1 unfinished
  by_contra stuck
  have stands (d : Fin (n + 2)) : ¬s.Moves d := fun moves => stuck ⟨d, moves⟩
  -- who has not returned and does not move spins in front of the closed barrier
  have spins (d : Fin (n + 2)) (away : ¬∃ slot v called, s.pc d = .returned slot v called) :
      s.generation = 0 ∧ ∃ slot, s.pc d = .spin slot 0 := by
    have at_d := inv.locals d
    have idle := stands d
    unfold Moves at idle
    cases h : s.pc d <;> simp only [h, not_true_eq_false, not_not] at idle at_d
    case turnedAway => exact at_d.elim
    case spin slot generation =>
      obtain rfl : generation = 0 := at_d
      exact ⟨idle, slot, rfl⟩
    case returned slot v called => exact absurd ⟨slot, v, called, h⟩ away
  obtain ⟨closed, slot, spinning⟩ := spins c away
  cases inv.gate with
  | gathering _ short count missing =>
    -- then all of them have arrived, and the last one would not spin
    have all : ∀ d, 6 ≤ (s.pc d).stage := by
      intro d
      have away : ¬∃ slot v called, s.pc d = .returned slot v called := by
        rintro ⟨slot, v, called, returned⟩
        rcases short d with early | ⟨k, spins⟩
        · simp [returned, EntryPc.stage] at early
        · rw [returned] at spins
          cases spins
      obtain ⟨_, k, at_d⟩ := spins d away
      simp [at_d, EntryPc.stage]
    have full := reached_full_iff.2 all
    omega
  | resetting _ last slot at_reset _ => exact stands last (by simp [Moves, at_reset])
  | releasing _ _ last slot at_release _ => exact stands last (by simp [Moves, at_release])
  | opened passed _ _ => omega

/-- One access in a state short of the end. -/
lemma step_advances (turn : Fin (n + 2)) (inv : EntryInv cpus s) :
    Advances id (EntryInv cpus) AllReturned Moves left s turn (s.step cpus turn) := by
  by_cases moves : s.Moves turn
  · refine .sinks (inv.step turn) (Finset.sum_lt_sum (fun d _ => ?_) ⟨turn, Finset.mem_univ _, ?_⟩)
    · by_cases own : d = turn
      · subst own
        exact (step_left inv moves).le
      · rw [step_others own]
    · exact step_left inv moves
  · have same : s.step cpus turn = s := step_idle moves
    exact .waits (inv.step turn) (by rw [same]) moves fun d helps => by rwa [same]

/-- Every callback returns under a fair schedule. -/
lemma EntryInv.returns (inv : EntryInv cpus s) {turns : ℕ → Fin (n + 2)} (fair : Fair id turns) :
    ∃ t, AllReturned (trace (MpCall.step cpus) turns s t) := by
  have reached : ∃ t, 0 ≤ t ∧ AllReturned (trace (MpCall.step cpus) turns s t) :=
    eventually fair (fun _ inv unfinished => inv.someone unfinished)
      (fun _ _ inv _ => step_advances _ inv) (t := 0) inv
  obtain ⟨t, _, returned⟩ := reached
  exact ⟨t, returned⟩

/-- In every interleaving the callbacks keep to the protocol, and from wherever an interleaving has
brought them, every schedule that lets each of them run again and again brings them all back. -/
theorem run_entryProtocol (cpus : Processors n) (schedule : List (Fin (n + 2))) :
    EntryProtocol cpus (run cpus schedule) ∧
      ∀ turns : ℕ → Fin (n + 2), Fair id turns →
        ∃ t, AllReturned (run cpus (schedule ++ (List.range t).map turns)) := by
  have inv := run_inv cpus schedule
  refine ⟨inv.protocol, fun turns fair => ?_⟩
  obtain ⟨t, returned⟩ := inv.returns fair
  refine ⟨t, ?_⟩
  rw [trace_eq_foldl] at returned
  rwa [run, List.foldl_append]

/-- Two processors that are ready, have no AVX2 and do all their work. -/
def readyPair : Processors 0 := ⟨fun _ => true, fun _ => false, fun _ => 0, fun _ => true⟩

/-- In turn, two ready processors return, and the token is accepted. -/
theorem run_entryProtocol_pair :
    ∃ t, AllReturned (run readyPair ((List.range t).map (roundRobin 1))) ∧
      dispatchToken 0 (run readyPair ((List.range t).map (roundRobin 1))) 0 = .ok () := by
  obtain ⟨t, returned⟩ := (run_entryProtocol readyPair []).2 (roundRobin 1)
    (fair_roundRobin fun _ => rfl)
  rw [List.nil_append] at returned
  refine ⟨t, returned, ?_⟩
  have protocol := (run_entryProtocol readyPair ((List.range t).map (roundRobin 1))).1
  exact (protocol.dispatched returned 0).2 ⟨fun _ => rfl, fun _ => rfl, fun _ => rfl, rfl⟩

end MpCall

end Promptboot
