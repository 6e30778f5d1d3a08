import Promptboot.Engine.Reuse

/-!
# Calls that extend a conversation

An engine `Carries` tokens when it is between predictions, its cache holds them, and they reach up
to its position. Each method that succeeds carries more of them; and whatever a method returns, what
is retained is what was, or nothing, or the prefix it was called with.

The helper lemmas are one per method: `prefillAccepted_carries`, `appendPrefill_carries`,
`prefillWithPrefix_carries`, `decodeSelected_carries`. `prefillWithPrefix_retainsOnly` is the second
half, and `InferenceEngine.resetToPrefix_start` what a session begins with.
-/

namespace Promptboot
open Fallible

variable {K : Kernels} {s t : Evaluation} {step : InferenceStep} {r : Except InferenceError InferenceStep}
  {held rest promptTokens : List Token} {prefixTokens reserve : Nat}

structure InferenceEngine.Carries (K : Kernels) (engine : InferenceEngine) (tokens : List Token) :
    Prop where
  holds : engine.Holds K tokens
  position : engine.position = tokens.length
  state : engine.state = .ready ∨ engine.state = .eos

/-- A prefill behind what the cache holds. -/
lemma prefillAccepted_carries (holds : s.engine.Holds K held)
    (position : s.engine.position = held.length) (scratch : s.engine.scratch = .zero)
    (logits : s.logits.length = logitWords) (context : held.length + rest.length ≤ contextLimit)
    (run : prefillAccepted K rest reserve s = (.ok step, t)) : t.engine.Carries K (held ++ rest) := by
  have grown := prefillAccepted_holds holds position scratch logits context run
  rcases prefillAccepted_spec scratch (by omega) run with ⟨_, _, done⟩ | ⟨_, bad, _⟩
  · refine ⟨grown, ?_, done.state⟩
    rw [done.engine, List.length_append, ← position]
  · cases bad

/-- An appended prefill carries the tokens on. -/
lemma appendPrefill_carries (inv : s.engine.Invariant) (carries : s.engine.Carries K held)
    (run : appendPrefill K rest reserve s = (.ok step, t)) : t.engine.Carries K (held ++ rest) := by
  have accepted : prefillInner K rest reserve true s = (.ok step, t) := by
    rw [appendPrefill] at run
    rcases carries.state with state | state <;> rwa [state] at run
  cases prefillInner_settles inv.scratch accepted with
  | accepted none =>
    obtain ⟨_, _, room, logits, _⟩ := prefillRejection_eq_none.mp none
    unfold prefillInner accepting at accepted
    rw [none] at accepted
    have position := carries.position
    exact prefillAccepted_carries carries.holds position inv.scratch logits (by omega) accepted

/-- A prefill with a prefix carries the whole prompt. -/
lemma prefillWithPrefix_carries (inv : s.engine.Invariant) (retains : s.engine.Retains K)
    (run : prefillWithPrefix K promptTokens prefixTokens reserve s = (.ok step, t)) :
    t.engine.Carries K promptTokens := by
  obtain ⟨-, held, rest, s', t', retained, prompt, -, -, resumed, rfl⟩ :=
    prefillWithPrefix_resumption inv retains run
  have room := resumed.room
  have carries := prefillAccepted_carries resumed.holds resumed.position resumed.scratch
    resumed.logits (by omega) resumed.run
  rw [prompt] at carries
  exact ⟨carries.holds.congr ⟨rfl, rfl, rfl⟩ fun _ _ => rfl, carries.position, carries.state⟩

/-- A decode carries the tokens on by one. -/
lemma decodeSelected_carries {token : Token} (inv : s.engine.Invariant)
    (carries : s.engine.Carries K held) (run : decodeSelected K token s = (.ok step, t)) :
    t.engine.Carries K (held ++ [token]) := by
  cases decodeInner_settles run with
  | accepted none done =>
    obtain ⟨-, -, room, logits⟩ := decodeRejection_eq_none none
    have position := carries.position
    refine ⟨?_, ?_, done.state⟩
    · unfold decodeSelected decodeInner accepting at run
      rw [none] at run
      unfold decodeAccepted at run
      obtain ⟨_, u, evaluated, published⟩ := bind_eq_ok run
      have evaluated : evaluate K token true s = (.ok (), u) := by
        rw [onError] at evaluated
        split at evaluated
        · rename_i finished
          cases evaluated
          exact finished
        · cases evaluated
      rw [bind_ok (modify_apply _ _)] at published
      have grown := carries.holds.evaluate position inv.scratch logits (by omega) evaluated
      obtain ⟨_, _, _, _, engine⟩ := publishStep_agrees rfl rfl rfl published
      refine grown.congr ?_ ?_ <;> rw [engine]
      · exact ⟨rfl, rfl, rfl⟩
      · exact fun _ _ => rfl
    · rw [done.engine, List.length_append, position]
      rfl

/-- What a call leaves of the retained prefix, unless it retains one. -/
lemma Settled.retainedPrefix {rejection : Option InferenceError} {n emitted : Nat}
    (h : Settled rejection n reserve emitted s r t) :
    t.engine.retainedPrefix = s.engine.retainedPrefix ∨ t.engine.retainedPrefix = .empty := by
  cases h with
  | rejected => exact .inl rfl
  | accepted _ done => exact .inl (by rw [done.engine])
  | failed _ _ failed => exact .inr failed.retained

/-- Nothing is retained, or one prefix. -/
def InferenceEngine.RetainsOnly (engine : InferenceEngine) (system : List Token) : Prop :=
  engine.retainedPrefix.len = 0 ∨
    engine.retainedPrefix.len = system.length ∧ engine.retainedTokens = system

/-- Keeping the retained prefix, or none, retains nothing else. -/
lemma InferenceEngine.RetainsOnly.congr {e f : InferenceEngine} {system : List Token}
    (h : e.RetainsOnly system)
    (same : f.retainedPrefix = e.retainedPrefix ∨ f.retainedPrefix = .empty) :
    f.RetainsOnly system := by
  rcases same with same | empty
  · rw [RetainsOnly, InferenceEngine.retainedTokens, same]
    exact h
  · exact .inl (by rw [empty]; rfl)

/-- A prefill with a prefix retains its own prefix at most. -/
lemma prefillRetaining_retainsOnly (inv : s.engine.Invariant)
    (only : s.engine.RetainsOnly (promptTokens.take prefixTokens))
    (short : prefixTokens < promptTokens.length) (bound : prefixTokens ≤ maxTokens)
    (run : prefillRetaining K promptTokens prefixTokens reserve s = (r, t)) :
    t.engine.RetainsOnly (promptTokens.take prefixTokens) := by
  unfold prefillRetaining at run
  rcases hp : prefill K promptTokens reserve s with ⟨e | step, u⟩
  · rw [bind_error hp] at run
    cases run
    exact only.congr (prefill_settles inv.scratch hp).retainedPrefix
  · rw [bind_ok hp, bind_ok (modify_apply _ _)] at run
    cases run
    refine .inr ⟨?_, RetainedPrefix.of_tokens short bound⟩
    rw [List.length_take_of_le (by omega)]
    rfl

/-- A call with the prefix that is retained goes on retaining it, or nothing. -/
lemma prefillWithPrefix_retainsOnly (inv : s.engine.Invariant)
    (only : s.engine.RetainsOnly (promptTokens.take prefixTokens))
    (run : prefillWithPrefix K promptTokens prefixTokens reserve s = (r, t)) :
    t.engine.RetainsOnly (promptTokens.take prefixTokens) := by
  unfold prefillWithPrefix at run
  dsimp only at run
  split at run
  · cases run
    exact .inl rfl
  rename_i valid
  split at run
  · exact prefillRetaining_retainsOnly inv only (by omega) (by omega) run
  split at run
  · exact only.congr (prefillInner_settles inv.scratch run).retainedPrefix
  split at run
  · cases run
    exact .inl rfl
  · exact prefillRetaining_retainsOnly (InferenceEngine.resetState_invariant _) (.inl rfl) (by omega)
      (by omega) run

/-- Whatever an engine carried, it is back at the start or at the end of what it retains. -/
lemma InferenceEngine.resetToPrefix_start (engine : InferenceEngine) :
    engine.resetToPrefix.2.state = .reset ∧
      (engine.resetToPrefix.2.position = 0 ∨
        engine.resetToPrefix.2.position = engine.resetToPrefix.2.retainedPrefix.len) ∧
      (engine.resetToPrefix.2.retainedPrefix = engine.retainedPrefix ∨
        engine.resetToPrefix.2.retainedPrefix = .empty) := by
  unfold resetToPrefix
  split
  · exact ⟨rfl, .inr rfl, .inl rfl⟩
  · exact ⟨rfl, .inl rfl, .inr rfl⟩

end Promptboot
