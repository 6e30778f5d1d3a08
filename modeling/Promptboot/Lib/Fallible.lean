import Mathlib.Tactic.Common
import Mathlib.Algebra.Group.Int.Defs
import Mathlib.Algebra.Group.Nat.Defs

/-!
# Fallible computations

A computation over a mutable state that returns a value or stops with an error, the shape of a
method on a mutable receiver whose result carries an error: the state reached before the error
survives it. The rules come in four families. `Keeps` is the unary logic (the invariant one run
keeps and the errors it may stop with), `Ensures` the weakest precondition of one run from one
state, `Agrees` the relational logic (what two runs of one computation from related states share),
`Matches` the relational logic of two computations (what both keep of a relation, stopped or not),
each with a rule per construct.
-/

/-- A computation over the state `σ` that returns an `α` or stops with an `ε`. -/
def Fallible (σ ε α : Type) : Type := σ → Except ε α × σ

namespace Fallible

variable {σ ε α β : Type}

/-- Returns a value and leaves the state alone. -/
protected def pure (a : α) : Fallible σ ε α := fun s => (.ok a, s)

/-- Runs `c` and hands its value on; an error skips the rest. -/
protected def bind (c : Fallible σ ε α) (f : α → Fallible σ ε β) : Fallible σ ε β := fun s =>
  match c s with
  | (.ok a, t) => f a t
  | (.error e, t) => (.error e, t)

instance : Monad (Fallible σ ε) where
  pure := Fallible.pure
  bind := Fallible.bind

/-- Stops with an error. -/
def fail (e : ε) : Fallible σ ε α := fun s => (.error e, s)

/-- Reads the state. -/
def get : Fallible σ ε σ := fun s => (.ok s, s)

/-- Changes the state. -/
def modify (f : σ → σ) : Fallible σ ε Unit := fun s => (.ok (), f s)

/-- Returns the outcome of a check that only reads the state. -/
def lift (f : σ → Except ε α) : Fallible σ ε α := fun s => (f s, s)

/-- Runs `c` and applies `h` to the error and to the state it left, if it stops. -/
def onError (c : Fallible σ ε α) (h : ε → σ → σ) : Fallible σ ε α := fun s =>
  match c s with
  | (.ok a, t) => (.ok a, t)
  | (.error e, t) => (.error e, h e t)

/-- Runs `c` and returns its outcome; an error of it does not stop the computation. -/
def attempt {ε' : Type} (c : Fallible σ ε α) : Fallible σ ε' (Except ε α) := fun s =>
  (.ok (c s).1, (c s).2)

/-- A value alone leaves the state. -/
@[simp] lemma pure_apply (a : α) (s : σ) : (pure a : Fallible σ ε α) s = (.ok a, s) := rfl

/-- A failure leaves the state. -/
@[simp] lemma fail_apply (e : ε) (s : σ) : (fail e : Fallible σ ε α) s = (.error e, s) := rfl

/-- Reading the state leaves it. -/
@[simp] lemma get_apply (s : σ) : (get : Fallible σ ε σ) s = (.ok s, s) := rfl

/-- A change of the state succeeds. -/
@[simp] lemma modify_apply (f : σ → σ) (s : σ) :
    (modify f : Fallible σ ε Unit) s = (.ok (), f s) := rfl

/-- A check of the state leaves it. -/
@[simp] lemma lift_apply (f : σ → Except ε α) (s : σ) : lift f s = (f s, s) := rfl

/-- The second part runs from where the first ended, unless that failed. -/
lemma bind_apply (c : Fallible σ ε α) (f : α → Fallible σ ε β) (s : σ) :
    (c >>= f) s = match c s with
      | (.ok a, t) => f a t
      | (.error e, t) => (.error e, t) := rfl

/-- A value is handed on. -/
lemma pure_bind (a : α) (f : α → Fallible σ ε β) :
    ((pure a : Fallible σ ε α) >>= f) = f a := rfl

/-- A bind whose first part succeeds runs the second from the state reached. -/
lemma bind_ok {c : Fallible σ ε α} {f : α → Fallible σ ε β} {s t : σ} {a : α}
    (h : c s = (.ok a, t)) : (c >>= f) s = f a t := by
  rw [bind_apply, h]

/-- A bind whose first part stops returns its error and its state. -/
lemma bind_error {c : Fallible σ ε α} {f : α → Fallible σ ε β} {s t : σ} {e : ε}
    (h : c s = (.error e, t)) : (c >>= f) s = (.error e, t) := by
  rw [bind_apply, h]

/-- A bind succeeds through an intermediate value and state. -/
lemma bind_eq_ok {c : Fallible σ ε α} {f : α → Fallible σ ε β} {s u : σ} {b : β}
    (h : (c >>= f) s = (.ok b, u)) : ∃ a t, c s = (.ok a, t) ∧ f a t = (.ok b, u) := by
  rcases hc : c s with ⟨_ | a, t⟩
  · rw [bind_error hc] at h
    cases h
  · rw [bind_ok hc] at h
    exact ⟨a, t, rfl, h⟩

/-- A loop over nothing leaves the state. -/
@[simp] lemma forM_nil (f : α → Fallible σ ε PUnit) (s : σ) :
    (([] : List α).forM f) s = (.ok ⟨⟩, s) := rfl

/-- A loop begins with the turn of its first element. -/
lemma forM_cons (a : α) (as : List α) (f : α → Fallible σ ε PUnit) :
    (a :: as).forM f = (f a >>= fun _ => as.forM f) := rfl

/-- How two successions are grouped does not matter. -/
lemma bind_assoc (c : Fallible σ ε α) {γ : Type} (f : α → Fallible σ ε β)
    (g : β → Fallible σ ε γ) : (c >>= f) >>= g = c >>= fun a => f a >>= g := by
  funext s
  rcases hc : c s with ⟨_ | a, t⟩
  · rw [bind_error hc, bind_error (bind_error hc)]
  · rw [bind_ok hc, bind_apply, bind_ok hc, ← bind_apply]

/-- A loop over two lists is a loop over each. -/
lemma forM_append (as bs : List α) (f : α → Fallible σ ε PUnit) :
    (as ++ bs).forM f = (as.forM f >>= fun _ => bs.forM f) := by
  induction as with
  | nil => rfl
  | cons a as ih => rw [List.cons_append, forM_cons, forM_cons, bind_assoc, ih]

section Keeps

variable {I : σ → Prop} {E : ε → Prop}

/-- The computation keeps the invariant `I`, also when it stops, and stops only with errors of
`E`. -/
def Keeps (I : σ → Prop) (E : ε → Prop) (c : Fallible σ ε α) : Prop :=
  ∀ s, I s → I (c s).2 ∧ ∀ e, (c s).1 = .error e → E e

/-- A value alone keeps every invariant. -/
lemma Keeps.pure {a : α} : Keeps I E (Pure.pure a : Fallible σ ε α) :=
  fun _ hs => ⟨hs, nofun⟩

/-- Reading the state keeps every invariant. -/
lemma Keeps.get : Keeps I E (Fallible.get : Fallible σ ε σ) :=
  fun _ hs => ⟨hs, nofun⟩

/-- A change keeps what the function keeps. -/
lemma Keeps.modify {f : σ → σ} (h : ∀ s, I s → I (f s)) :
    Keeps I E (Fallible.modify f : Fallible σ ε Unit) :=
  fun s hs => ⟨h s hs, nofun⟩

/-- A check keeps every invariant; its errors are the ones promised. -/
lemma Keeps.lift {f : σ → Except ε α} (h : ∀ s e, I s → f s = .error e → E e) :
    Keeps I E (Fallible.lift f) :=
  fun s hs => ⟨hs, fun e he => h s e hs he⟩

/-- Parts that keep an invariant keep it in succession. -/
lemma Keeps.bind {c : Fallible σ ε α} {f : α → Fallible σ ε β}
    (hc : Keeps I E c) (hf : ∀ a, Keeps I E (f a)) : Keeps I E (c >>= f) := by
  intro s hs
  obtain ⟨inv, err⟩ := hc s hs
  rcases hcs : c s with ⟨e | a, t⟩ <;> rw [hcs] at inv err
  · rw [bind_error hcs]
    refine ⟨inv, ?_⟩
    rintro _ ⟨⟩
    exact err e rfl
  · rw [bind_ok hcs]
    exact hf a t inv

/-- What holds after the first part, finished or not, and is kept by the second, holds at the end. -/
lemma Keeps.of_bind {c : Fallible σ ε α} {f : α → Fallible σ ε β} {s : σ} (hc : I (c s).2)
    (hf : ∀ a, Keeps I E (f a)) : I ((c >>= f) s).2 := by
  rcases hcs : c s with ⟨e | a, t⟩ <;> rw [hcs] at hc
  · rw [bind_error hcs]
    exact hc
  · rw [bind_ok hcs]
    exact (hf a t hc).1

/-- A loop keeps an invariant that each of its turns keeps. -/
lemma Keeps.forM {f : β → Fallible σ ε PUnit} {l : List β} (h : ∀ b ∈ l, Keeps I E (f b)) :
    Keeps I E (l.forM f) := by
  induction l with
  | nil => exact fun s hs => ⟨hs, nofun⟩
  | cons b l ih =>
    rw [forM_cons]
    apply Keeps.bind (h b (by simp))
    intro _
    exact ih fun b' hb' => h b' (by simp [hb'])

end Keeps

section Ensures

/-- What the computation returns from `s`, and what it leaves, satisfies `Q`. -/
def Ensures (c : Fallible σ ε α) (s : σ) (Q : Except ε α → σ → Prop) : Prop := Q (c s).1 (c s).2

variable {s : σ}

/-- A postcondition may be weakened. -/
lemma Ensures.mono {Q Q' : Except ε α → σ → Prop} {c : Fallible σ ε α} (h : Ensures c s Q)
    (hQ : ∀ r t, Q r t → Q' r t) : Ensures c s Q' :=
  hQ _ _ h

/-- A value alone ensures what holds of it and the state. -/
lemma Ensures.pure {Q : Except ε α → σ → Prop} {a : α} (h : Q (.ok a) s) :
    Ensures (Pure.pure a : Fallible σ ε α) s Q := h

/-- A failure ensures what holds of it and the state. -/
lemma Ensures.fail {Q : Except ε α → σ → Prop} {e : ε} (h : Q (.error e) s) :
    Ensures (Fallible.fail e : Fallible σ ε α) s Q := h

/-- A change ensures what holds behind it. -/
lemma Ensures.modify {Q : Except ε Unit → σ → Prop} {f : σ → σ} (h : Q (.ok ()) (f s)) :
    Ensures (Fallible.modify f) s Q := h

/-- What follows a read of the state knows the state. -/
lemma Ensures.get_bind {Q : Except ε β → σ → Prop} {f : σ → Fallible σ ε β}
    (h : Ensures (f s) s Q) : Ensures (Fallible.get >>= f) s Q := h

/-- What follows a change starts from the changed state. -/
lemma Ensures.modify_bind {Q : Except ε β → σ → Prop} {f : σ → σ} {c : Unit → Fallible σ ε β}
    (h : Ensures (c ()) (f s) Q) : Ensures (Fallible.modify f >>= c) s Q := h

/-- What follows a part with a known success starts where that ended. -/
lemma Ensures.bind_run {Q : Except ε β → σ → Prop} {c : Fallible σ ε α} {f : α → Fallible σ ε β}
    {a : α} {t : σ} (run : c s = (.ok a, t)) (h : Ensures (f a) t Q) : Ensures (c >>= f) s Q := by
  rw [Ensures, bind_ok run]
  exact h

/-- Nothing follows a part with a known failure. -/
lemma Ensures.bind_stop {Q : Except ε β → σ → Prop} {c : Fallible σ ε α} {f : α → Fallible σ ε β}
    {e : ε} {t : σ} (run : c s = (.error e, t)) (h : Q (.error e) t) : Ensures (c >>= f) s Q := by
  rw [Ensures, bind_error run]
  exact h

/-- An attempt hands its result on, also a failure. -/
lemma Ensures.attempt {ε' : Type} {Q : Except ε' (Except ε α) → σ → Prop} {c : Fallible σ ε α}
    (h : Ensures c s fun r t => Q (.ok r) t) : Ensures (Fallible.attempt c) s Q := h

/-- A bind ensures `Q` if the second part does after a success of the first, and the first's error
satisfies it. -/
lemma Ensures.bind {Q : Except ε β → σ → Prop} {c : Fallible σ ε α} {f : α → Fallible σ ε β}
    (ok : ∀ a t, c s = (.ok a, t) → Ensures (f a) t Q)
    (error : ∀ e t, c s = (.error e, t) → Q (.error e) t) : Ensures (c >>= f) s Q := by
  rw [Ensures]
  rcases hc : c s with ⟨e | a, t⟩
  · rw [bind_error hc]
    exact error e t hc
  · rw [bind_ok hc]
    exact ok a t hc

/-- The same behind a first part with a known postcondition. -/
lemma Ensures.bind_of {P : Except ε α → σ → Prop} {Q : Except ε β → σ → Prop}
    {c : Fallible σ ε α} {f : α → Fallible σ ε β} (h : Ensures c s P)
    (ok : ∀ a t, P (.ok a) t → Ensures (f a) t Q) (error : ∀ e t, P (.error e) t → Q (.error e) t) :
    Ensures (c >>= f) s Q := by
  apply Ensures.bind
  · intro a t run
    rw [Ensures, run] at h
    exact ok a t h
  · intro e t run
    rw [Ensures, run] at h
    exact error e t h

end Ensures

section Agrees

variable {R R' S S' T : σ → σ → Prop}

/-- From states related by `R` the computation gives one outcome; on success the states it
reaches are related by `S`. -/
def Agrees (R : σ → σ → Prop) (c : Fallible σ ε α) (S : σ → σ → Prop) : Prop :=
  ∀ s t, R s t → (c s).1 = (c t).1 ∧ ∀ a, (c s).1 = .ok a → S (c s).2 (c t).2

/-- The relation before may be strengthened, the one behind weakened. -/
lemma Agrees.conseq {c : Fallible σ ε α} (h : Agrees R c S) (hR : ∀ s t, R' s t → R s t)
    (hS : ∀ s t, S s t → S' s t) : Agrees R' c S' := by
  intro s t hst
  obtain ⟨e, ok⟩ := h s t (hR s t hst)
  exact ⟨e, fun a ha => hS _ _ (ok a ha)⟩

/-- A value alone is the same from both states. -/
lemma Agrees.pure {a : α} (h : ∀ s t, R s t → S s t) :
    Agrees R (Pure.pure a : Fallible σ ε α) S :=
  fun s t hst => ⟨rfl, fun _ _ => h s t hst⟩

/-- A change takes related states to related ones. -/
lemma Agrees.modify {f : σ → σ} (h : ∀ s t, R s t → S (f s) (f t)) :
    Agrees R (Fallible.modify f : Fallible σ ε Unit) S :=
  fun s t hst => ⟨rfl, fun _ _ => h s t hst⟩

/-- A check that related states answer alike. -/
lemma Agrees.lift {f : σ → Except ε α} (hf : ∀ s t, R s t → f s = f t)
    (h : ∀ s t, R s t → S s t) : Agrees R (Fallible.lift f) S :=
  fun s t hst => ⟨hf s t hst, fun _ _ => h s t hst⟩

/-- Parts that agree agree in succession. -/
lemma Agrees.bind {c : Fallible σ ε α} {f : α → Fallible σ ε β}
    (hc : Agrees R c S) (hf : ∀ a, Agrees S (f a) T) : Agrees R (c >>= f) T := by
  intro s t hst
  obtain ⟨e, ok⟩ := hc s t hst
  rcases hs : c s with ⟨err | a, s'⟩ <;> rcases ht : c t with ⟨err' | a', t'⟩ <;>
    rw [hs, ht] at e <;> cases e
  · rw [bind_error hs, bind_error ht]
    exact ⟨rfl, nofun⟩
  · rw [bind_ok hs, bind_ok ht]
    have := ok a (by rw [hs])
    rw [hs, ht] at this
    exact hf a s' t' this

/-- A counted loop carries a relation indexed by the turns done. -/
lemma Agrees.forM_range {I : Nat → σ → σ → Prop} {f : Nat → Fallible σ ε PUnit} {n : Nat}
    (h : ∀ i < n, Agrees (I i) (f i) (I (i + 1))) :
    Agrees (I 0) ((List.range n).forM f) (I n) := by
  have from_k : ∀ m k, k + m = n → Agrees (I k) ((List.range' k m).forM f) (I n) := by
    intro m
    induction m with
    | zero =>
      rintro k rfl
      exact fun s t hst => ⟨rfl, fun _ _ => hst⟩
    | succ m ih =>
      intro k hk
      rw [List.range'_succ, forM_cons]
      apply Agrees.bind (h k (by omega))
      intro _
      exact ih (k + 1) (by omega)
  rw [List.range_eq_range']
  exact from_k n 0 (by omega)

end Agrees

section Matches

variable {R : σ → σ → Prop} {c d : Fallible σ ε α}

/-- Two computations that from related states give one outcome, and leave related states whether
they succeed or stop. -/
def Matches (R : σ → σ → Prop) (c d : Fallible σ ε α) : Prop :=
  ∀ s t, R s t → (c s).1 = (d t).1 ∧ R (c s).2 (d t).2

/-- A value matches itself. -/
lemma Matches.pure {a : α} : Matches R (Pure.pure a : Fallible σ ε α) (Pure.pure a) :=
  fun _ _ related => ⟨rfl, related⟩

/-- Two changes that keep the relation match. -/
lemma Matches.modify {f g : σ → σ} (h : ∀ s t, R s t → R (f s) (g t)) :
    Matches R (Fallible.modify f : Fallible σ ε Unit) (Fallible.modify g) :=
  fun s t related => ⟨rfl, h s t related⟩

/-- Two checks that related states answer alike match. -/
lemma Matches.lift {f g : σ → Except ε α} (h : ∀ s t, R s t → f s = g t) :
    Matches R (Fallible.lift f) (Fallible.lift g) :=
  fun s t related => ⟨h s t related, related⟩

/-- Parts that match match in succession. -/
lemma Matches.bind {f g : α → Fallible σ ε β} (first : Matches R c d)
    (rest : ∀ a, Matches R (f a) (g a)) : Matches R (c >>= f) (d >>= g) := by
  intro s t related
  obtain ⟨outcome, left⟩ := first s t related
  rcases hs : c s with ⟨e | a, s'⟩ <;> rcases ht : d t with ⟨e' | a', t'⟩ <;>
    rw [hs, ht] at outcome left <;> cases outcome
  · rw [bind_error hs, bind_error ht]
    exact ⟨rfl, left⟩
  · rw [bind_ok hs, bind_ok ht]
    exact rest a s' t' left

/-- Loops whose turns match match. -/
lemma Matches.forM {l : List β} {f g : β → Fallible σ ε PUnit} (h : ∀ b ∈ l, Matches R (f b) (g b)) :
    Matches R (l.forM f) (l.forM g) := by
  induction l with
  | nil => exact Matches.pure
  | cons b l ih =>
    rw [forM_cons, forM_cons]
    exact (h b (List.mem_cons_self ..)).bind fun _ => ih fun b' mem => h b' (List.mem_cons_of_mem _ mem)

/-- Handlers that keep the relation match behind bodies that match. -/
lemma Matches.onError {h k : ε → σ → σ} (body : Matches R c d)
    (handler : ∀ e s t, R s t → R (h e s) (k e t)) : Matches R (onError c h) (onError d k) := by
  intro s t related
  obtain ⟨outcome, left⟩ := body s t related
  unfold Fallible.onError
  rcases hs : c s with ⟨e | a, s'⟩ <;> rcases ht : d t with ⟨e' | a', t'⟩ <;>
    rw [hs, ht] at outcome left <;> cases outcome
  · exact ⟨rfl, handler e s' t' left⟩
  · exact ⟨rfl, left⟩

end Matches

end Fallible
