import Mathlib.Data.List.Range
import Mathlib.Order.Basic
import Mathlib.Tactic.Common

/-!
# Fair schedules

A system of members that take turns without end. `trace` is the state after so many turns, and a
schedule is `Fair` if every member has a turn again and again. Nothing else is known about the order
of the turns, so a state is bound to be reached only if somebody always works towards it.

`eventually` is the rule for that. It takes a rank that no turn raises and, in every state short of
the goal, a member that *helps*: its own turn lowers the rank, and until then it goes on helping as
long as nobody else lowers the rank instead. The rule is applied with an invariant that may stop to
hold once the goal is reached. `trace_eq_foldl` connects a trace to the run of a finite schedule.
-/

namespace FairSchedule

variable {S T ι : Type}

/-- The state after so many turns. -/
def trace (step : S → T → S) (turns : ℕ → T) (s : S) : ℕ → S
  | 0 => s
  | t + 1 => step (trace step turns s t) (turns t)

/-- Every member has a turn after any time. -/
def Fair (who : T → ι) (turns : ℕ → T) : Prop := ∀ i t, ∃ u, t ≤ u ∧ who (turns u) = i

/-- Members `0` to `n` in turn. -/
def roundRobin (n t : ℕ) : Fin (n + 1) := ⟨t % (n + 1), Nat.mod_lt t n.succ_pos⟩

variable {step : S → T → S} {turns : ℕ → T} {s : S}

/-- A trace runs the turns that have been taken. -/
lemma trace_eq_foldl (t : ℕ) :
    trace step turns s t = ((List.range t).map turns).foldl step s := by
  induction t with
  | zero => rfl
  | succ t ih =>
    rw [List.range_succ, List.map_append, List.foldl_append, ← ih]
    rfl

/-- In turn, every member has its turn within a round. -/
lemma fair_roundRobin {n : ℕ} {who : T → Fin (n + 1)}
    (same : ∀ t, who (turns t) = roundRobin n t) : Fair who turns := by
  intro i t
  refine ⟨(n + 1) * t + i, ?_, ?_⟩
  -- a round is not empty
  · have round : t ≤ (n + 1) * t := Nat.le_mul_of_pos_left t n.succ_pos
    omega
  · rw [same, roundRobin]
    apply Fin.ext
    show ((n + 1) * t + i) % (n + 1) = i
    rw [Nat.mul_add_mod, Nat.mod_eq_of_lt i.isLt]

section Progress

variable {who : T → ι} {Inv goal : S → Prop} {Helps : S → ι → Prop} {rank : S → ℕ}

/-- What a turn does short of the goal: it reaches it, or the rank sinks, or it was the turn of a
member that does not help and whoever helps goes on doing so. -/
inductive Advances (who : T → ι) (Inv goal : S → Prop) (Helps : S → ι → Prop) (rank : S → ℕ)
    (s : S) (turn : T) (t : S) : Prop
  | reached (done : goal t)
  | sinks (inv : Inv t) (lower : rank t < rank s)
  | waits (inv : Inv t) (same : rank t = rank s) (idle : ¬Helps s (who turn))
    (others : ∀ i, Helps s i → Helps t i)

/-- Until a member that helps has its turn, the goal is reached or the rank sinks. -/
lemma helped
    (moves : ∀ s t, Inv s → ¬goal s →
      Advances who Inv goal Helps rank s (turns t) (step s (turns t)))
    {i : ι} {t : ℕ} (left : ℕ) (turn : who (turns (t + left)) = i)
    (inv : Inv (trace step turns s t)) (helps : Helps (trace step turns s t) i) :
    (∃ v, t ≤ v ∧ goal (trace step turns s v)) ∨
      ∃ v, t ≤ v ∧ Inv (trace step turns s v) ∧
        rank (trace step turns s v) < rank (trace step turns s t) := by
  induction left generalizing t with
  | zero =>
    by_cases done : goal (trace step turns s t)
    · exact .inl ⟨t, le_rfl, done⟩
    · cases moves _ t inv done with
      | reached done => exact .inl ⟨t + 1, Nat.le_succ t, done⟩
      | sinks inv lower => exact .inr ⟨t + 1, Nat.le_succ t, inv, lower⟩
      | waits _ _ idle _ =>
        have own : who (turns t) = i := turn
        exact absurd (own ▸ helps) idle
  | succ left ih =>
    by_cases done : goal (trace step turns s t)
    · exact .inl ⟨t, le_rfl, done⟩
    · cases moves _ t inv done with
      | reached done => exact .inl ⟨t + 1, Nat.le_succ t, done⟩
      | sinks inv lower => exact .inr ⟨t + 1, Nat.le_succ t, inv, lower⟩
      | waits inv same _ others =>
        have turn : who (turns (t + 1 + left)) = i := by
          rw [Nat.add_assoc, Nat.add_comm 1 left]
          exact turn
        rcases ih turn inv (others i helps) with
          ⟨v, after, done⟩ | ⟨v, after, inv, lower⟩
        · exact .inl ⟨v, Nat.le_of_succ_le after, done⟩
        · exact .inr ⟨v, Nat.le_of_succ_le after, inv, lt_of_lt_of_eq lower same⟩

/-- If short of the goal somebody always helps, a fair schedule reaches the goal. -/
theorem eventually (fair : Fair who turns)
    (some : ∀ s, Inv s → ¬goal s → ∃ i, Helps s i)
    (moves : ∀ s t, Inv s → ¬goal s →
      Advances who Inv goal Helps rank s (turns t) (step s (turns t)))
    {t : ℕ} (inv : Inv (trace step turns s t)) :
    ∃ u, t ≤ u ∧ goal (trace step turns s u) := by
  induction h : rank (trace step turns s t) using Nat.strong_induction_on generalizing t with
  | h r ih =>
    by_cases done : goal (trace step turns s t)
    · exact ⟨t, le_rfl, done⟩
    · obtain ⟨i, helps⟩ := some _ inv done
      obtain ⟨u, later, turn⟩ := fair i t
      obtain ⟨left, rfl⟩ := Nat.exists_eq_add_of_le later
      rcases helped moves left turn inv helps with reached | ⟨v, after, inv, lower⟩
      · exact reached
      · obtain ⟨w, last, done⟩ := ih _ (h ▸ lower) inv rfl
        exact ⟨w, after.trans last, done⟩

end Progress

end FairSchedule
