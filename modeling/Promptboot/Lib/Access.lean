import Promptboot.Lib.Fallible

/-!
# Computations and their accesses

A computation over a memory, with the list of the accesses it makes. A policy says which access is
allowed at a point and what the access changes about that; `Permits` relates a list of accesses,
each of them allowed when it was made, to the point it leads to. `Obeys` is the logic of it, with a
rule per construct.

`Obeys` is monotone in its postcondition (`Obeys.mono`) and composes along `bind` (`Obeys.bind`,
`Obeys.seq`); `Obeys.loop` is the rule for a loop with an invariant. The helper `Permits.split` cuts
a list of accesses where one computation ends and the next begins.
-/

/-- A memory, and the accesses made so far, in order. -/
structure Logged (μ ι : Type) where
  memory : μ
  accesses : List ι

namespace Logged

variable {μ ι ε α : Type}

/-- An access, what it returns and the memory behind it. -/
def access (i : ι) (f : μ → α × μ) : Fallible (Logged μ ι) ε α := fun s =>
  (.ok (f s.memory).1, ⟨(f s.memory).2, s.accesses ++ [i]⟩)

end Logged

namespace Fallible

variable {σ ε δ β : Type}

/-- `map_err`: another error for the one it stops with. -/
def mapError {α : Type} (f : ε → δ) (c : Fallible σ ε α) : Fallible σ δ α := fun s =>
  ((c s).1.mapError f, (c s).2)

/-- The turns from `first` up to `last`, each with what the turn before it made of `b`. -/
def loop (first last : Nat) (b : β) (turn : Nat → β → Fallible σ ε β) : Fallible σ ε β :=
  (List.range' first (last - first)).foldlM (fun b i => turn i b) b

end Fallible

/-- What is allowed at a point, and the point an access leads to. -/
structure Policy (ι ρ : Type) where
  initial : ρ
  allows : ρ → ι → Prop
  after : ρ → ι → ρ

namespace Policy

variable {μ ι ρ ε δ α β : Type} {p : Policy ι ρ}

/-- Each of the accesses is allowed where it is made, and together they lead to a point. -/
inductive Permits (p : Policy ι ρ) : List ι → ρ → Prop where
  | nil : Permits p [] p.initial
  | snoc {l r i} : Permits p l r → p.allows r i → Permits p (l ++ [i]) (p.after r i)

/-- The accesses before a point of the list lead to where the next one is allowed. -/
lemma Permits.split {l before rest : List ι} {i : ι} {r : ρ} (h : p.Permits l r)
    (cut : l = before ++ i :: rest) : ∃ q, p.Permits before q ∧ p.allows q i := by
  induction h generalizing rest with
  | nil => simp at cut
  | @snoc l r j h allowed ih =>
    rcases List.eq_nil_or_concat rest with rfl | ⟨front, last, rfl⟩
    · obtain ⟨rfl, same⟩ := List.append_inj' cut rfl
      cases same
      exact ⟨r, h, allowed⟩
    · rw [List.concat_eq_append, ← List.cons_append, ← List.append_assoc] at cut
      exact ih (List.append_inj' cut rfl).1

/-- From the point `r`, the computation makes allowed accesses only. What it returns and where it
then is satisfy `post`, what it stops with and where satisfy `stop`. -/
def Obeys (p : Policy ι ρ) (r : ρ) (c : Fallible (Logged μ ι) ε α) (post : α → ρ → Prop)
    (stop : ε → ρ → Prop) : Prop :=
  ∀ s, p.Permits s.accesses r → ∃ q, p.Permits (c s).2.accesses q ∧
    (∀ a, (c s).1 = .ok a → post a q) ∧ ∀ e, (c s).1 = .error e → stop e q

variable {r : ρ} {c : Fallible (Logged μ ι) ε α} {post : α → ρ → Prop} {stop : ε → ρ → Prop}

/-- What a program obeys may be weakened at both ends. -/
lemma Obeys.mono {post' : α → ρ → Prop} {stop' : ε → ρ → Prop} (h : p.Obeys r c post stop)
    (returns : ∀ a q, post a q → post' a q) (stops : ∀ e q, stop e q → stop' e q) :
    p.Obeys r c post' stop' := by
  intro s permitted
  obtain ⟨q, reached, ok, error⟩ := h s permitted
  exact ⟨q, reached, fun a ha => returns a q (ok a ha), fun e he => stops e q (error e he)⟩

/-- A value alone takes no step of the protocol. -/
lemma Obeys.pure {a : α} (h : post a r) :
    p.Obeys (μ := μ) r (Pure.pure a) post stop := by
  intro s permitted
  refine ⟨r, permitted, ?_, nofun⟩
  rintro _ ⟨⟩
  exact h

/-- A failure alone takes no step of the protocol. -/
lemma Obeys.fail {e : ε} (h : stop e r) : p.Obeys (μ := μ) r (Fallible.fail e) post stop := by
  intro s permitted
  refine ⟨r, permitted, nofun, ?_⟩
  rintro _ ⟨⟩
  exact h

/-- The second part goes on where the first one leads. -/
lemma Obeys.bind {f : α → Fallible (Logged μ ι) ε β} {post : β → ρ → Prop}
    (h : p.Obeys r c (fun a q => p.Obeys q (f a) post stop) stop) :
    p.Obeys r (c >>= f) post stop := by
  intro s permitted
  obtain ⟨q, reached, ok, error⟩ := h s permitted
  rcases run : c s with ⟨e | a, t⟩
  · rw [run] at reached error
    rw [Fallible.bind_error run]
    refine ⟨q, reached, nofun, ?_⟩
    rintro _ ⟨⟩
    exact error e rfl
  · rw [run] at reached ok
    rw [Fallible.bind_ok run]
    exact ok a rfl t reached

/-- The first part establishes something, from which the second one goes on. -/
lemma Obeys.seq {f : α → Fallible (Logged μ ι) ε β} {between : α → ρ → Prop} {post : β → ρ → Prop}
    (h : p.Obeys r c between stop) (next : ∀ a q, between a q → p.Obeys q (f a) post stop) :
    p.Obeys r (c >>= f) post stop :=
  .bind (h.mono next fun _ _ stops => stops)

/-- An access that the protocol allows moves it on. -/
lemma Obeys.access {i : ι} {f : μ → α × μ} (allowed : p.allows r i)
    (h : ∀ m, post (f m).1 (p.after r i)) : p.Obeys r (Logged.access i f) post stop := by
  intro s permitted
  refine ⟨p.after r i, permitted.snoc allowed, ?_, nofun⟩
  rintro _ ⟨⟩
  exact h s.memory

/-- Renaming the errors renames what holds after them. -/
lemma Obeys.mapError {f : ε → δ} {stop : δ → ρ → Prop}
    (h : p.Obeys r c post fun e q => stop (f e) q) :
    p.Obeys r (c.mapError f) post stop := by
  intro s permitted
  obtain ⟨q, reached, ok, error⟩ := h s permitted
  refine ⟨q, reached, ?_, ?_⟩ <;> rcases run : c s with ⟨e | a, t⟩ <;>
    simp only [Fallible.mapError, run, Except.mapError] <;> rintro _ ⟨⟩
  · exact ok a (by rw [run])
  · exact error e (by rw [run])

/-- A loop carries an invariant that each of its turns keeps. -/
lemma Obeys.loop {first last : Nat} {b : β} {turn : Nat → β → Fallible (Logged μ ι) ε β}
    {post : β → ρ → Prop} (inv : Nat → β → ρ → Prop) (ordered : first ≤ last)
    (enter : inv first b r)
    (step : ∀ i b q, first ≤ i → i < last → inv i b q → p.Obeys q (turn i b) (inv (i + 1)) stop)
    (leave : ∀ b q, inv last b q → post b q) :
    p.Obeys r (Fallible.loop first last b turn) post stop := by
  have turns : ∀ count i b q, first ≤ i → i + count = last → inv i b q →
      p.Obeys q ((List.range' i count).foldlM (fun b i => turn i b) b) post stop := by
    intro count
    induction count with
    | zero =>
      rintro i b q _ rfl holds
      exact .pure (leave b q holds)
    | succ count ih =>
      intro i b q from_first to_last holds
      rw [List.range'_succ, List.foldlM_cons]
      refine Obeys.seq (step i b q from_first (by omega) holds) ?_
      intro b' q' next
      exact ih (i + 1) b' q' (by omega) (by omega) next
  exact turns (last - first) first b r (Nat.le_refl first) (by omega) enter

end Policy
