import Promptboot.Lib.Fallible

/-!
# Runs through a view

Two computations over different states, the second over a view of the first's state. `Projects` says
that where the first ends well the second ends well on the view, with the same value; what the first
does when it stops is left open. There is a rule for each construct: `pure`, `modify`, `lift`, `bind`
and `forM`, and `read` for what depends on the state, which only has to be projected for that state.
-/

namespace Fallible

variable {σ τ ε α β : Type} {view : σ → τ}

/-- Where `c` ends well, so does `d` on what it sees of the state, with the same value. -/
def Projects (view : σ → τ) (c : Fallible σ ε α) (d : Fallible τ ε α) : Prop :=
  ∀ s a t, c s = (.ok a, t) → d (view s) = (.ok a, view t)

namespace Projects

/-- A value alone projects to itself. -/
lemma pure {a : α} :
    Projects view (Pure.pure a : Fallible σ ε α) (Pure.pure a) := by
  rintro s _ _ ⟨⟩
  rfl

/-- A computation that stops projects to any. -/
lemma fail {e : ε} {d : Fallible τ ε α} : Projects view (Fallible.fail e) d := by
  rintro s _ _ ⟨⟩

/-- A change projects to the one that it is seen as. -/
lemma modify {f : σ → σ} {g : τ → τ} (same : ∀ s, view (f s) = g (view s)) :
    Projects view (Fallible.modify f : Fallible σ ε Unit) (Fallible.modify g) := by
  rintro s _ _ ⟨⟩
  rw [modify_apply, same]

/-- A check projects to one with the same outcome on what is seen. -/
lemma lift {f : σ → Except ε α} {g : τ → Except ε α} (same : ∀ s, f s = g (view s)) :
    Projects view (Fallible.lift f) (Fallible.lift g) := by
  intro s a t run
  obtain ⟨found, rfl⟩ := Prod.mk.inj run
  rw [lift_apply, ← same, found]

/-- Parts that project project in succession. -/
lemma bind {c : Fallible σ ε α} {d : Fallible τ ε α} {f : α → Fallible σ ε β}
    {g : α → Fallible τ ε β} (first : Projects view c d) (rest : ∀ a, Projects view (f a) (g a)) :
    Projects view (c >>= f) (d >>= g) := by
  intro s b u run
  obtain ⟨a, t, ran, run⟩ := bind_eq_ok run
  rw [bind_ok (first s a t ran)]
  exact rest a t b u run

/-- What reads the state projects to what reads the view, if it does for each state. -/
lemma read {f : σ → Fallible σ ε β} {g : τ → Fallible τ ε β}
    (rest : ∀ s, Projects view (f s) (g (view s))) :
    Projects view (Fallible.get >>= f) (Fallible.get >>= g) := by
  intro s b u run
  exact rest s s b u run

/-- A loop whose turns project projects. -/
lemma forM {f : α → Fallible σ ε PUnit} {g : α → Fallible τ ε PUnit} (l : List α)
    (each : ∀ a, Projects view (f a) (g a)) : Projects view (l.forM f) (l.forM g) := by
  induction l with
  | nil => exact pure
  | cons a l ih => exact (each a).bind fun _ => ih

/-- A choice projects if both branches do. -/
lemma ite {p : Prop} [Decidable p] {c c' : Fallible σ ε α} {d d' : Fallible τ ε α}
    (yes : Projects view c d) (no : Projects view c' d') :
    Projects view (if p then c else c') (if p then d else d') := by
  split
  · exact yes
  · exact no

end Projects

end Fallible
