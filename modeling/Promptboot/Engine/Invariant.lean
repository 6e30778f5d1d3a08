import Promptboot.Engine.EvaluateSpec
import Promptboot.Engine.Operations

/-!
# The engine's state machine

The invariant of `InferenceEngine` between calls, over every sequence of calls and every pattern of
evaluation failures. `Advanced` is what the evaluations of a call do to the engine, `Accepted` and
`Faulted` the two ways an accepted call ends; each method then keeps `Invariant`, and
`engine_invariant` is the run. The reservation arithmetic sits in `Accepted.invariant`.

`evaluateAll_spec` is the induction over the tokens of a call, `prefillInner_settles` and
`decodeInner_settles` the two accepted ends, and `Call` what a method's caller sees, rejected calls
included. `EngineOp.call_spec` has one case per method; `build_invariant` and `runOps_invariant` are
the start and the induction.
-/

namespace Promptboot
open Fallible

/-- Two engines on one model, one backend and one dispatcher. -/
structure SameMachine (e f : InferenceEngine) : Prop where
  model : f.model = e.model
  backend : f.backend = e.backend
  dispatcher : f.dispatcher = e.dispatcher

/-- An engine has its own machine. -/
lemma SameMachine.refl (e : InferenceEngine) : SameMachine e e := ⟨rfl, rfl, rfl⟩

/-- Having the same machine is transitive. -/
lemma SameMachine.trans {e f g : InferenceEngine} (h₁ : SameMachine e f) (h₂ : SameMachine f g) :
    SameMachine e g :=
  ⟨h₂.model.trans h₁.model, h₂.backend.trans h₁.backend, h₂.dispatcher.trans h₁.dispatcher⟩

/-- The bytes of the KV rows in use. -/
def InferenceEngine.kvCurrent (engine : InferenceEngine) : Nat :=
  engine.position * kvWordsPerPosition * 4

/-- What `n` finished evaluations, and perhaps one that failed, have changed. -/
structure Advanced (n : Nat) (s t : Evaluation) : Prop where
  engine : t.engine = { s.engine with
    kv := t.engine.kv
    scratch := t.engine.scratch
    position := s.engine.position + n
    kvHighWater := t.engine.kvHighWater
    scratchHighWater := t.engine.scratchHighWater }
  highWater : s.engine.kvCurrent ≤ s.engine.kvHighWater → t.engine.kvCurrent ≤ t.engine.kvHighWater
  kv : ∀ c : KvCoord, c.position.val < s.engine.position →
    t.engine.kv c.word = s.engine.kv c.word
  logits : t.logits.length = s.logits.length

/-- The position advances by the tokens evaluated. -/
lemma Advanced.position {n : Nat} {s t : Evaluation} (h : Advanced n s t) :
    t.engine.position = s.engine.position + n := by
  rw [h.engine]

/-- The machine stays. -/
lemma Advanced.machine {n : Nat} {s t : Evaluation} (h : Advanced n s t) :
    SameMachine s.engine t.engine := by
  rw [h.engine]
  exact ⟨rfl, rfl, rfl⟩

/-- Nothing evaluated is no advance. -/
lemma Advanced.refl (s : Evaluation) : Advanced 0 s s :=
  ⟨rfl, id, fun _ _ => rfl, rfl⟩

/-- Advances add up. -/
lemma Advanced.trans {m n : Nat} {s t u : Evaluation} (h₁ : Advanced m s t) (h₂ : Advanced n t u) :
    Advanced (m + n) s u := by
  refine ⟨?_, fun h => h₂.highWater (h₁.highWater h), ?_, h₂.logits.trans h₁.logits⟩
  · rw [h₂.engine, h₁.engine, Nat.add_assoc]
  · intro c hc
    rw [h₂.kv c (by rw [h₁.position]; omega), h₁.kv c hc]

/-- An evaluated token is an advance by one. -/
lemma Evaluated.advanced {s t : Evaluation} (h : Evaluated s t) : Advanced 1 s t := by
  refine ⟨?_, ?_, fun c hc => h.kv c (by omega), h.logits⟩
  · rw [h.engine]
  · intro _
    rw [InferenceEngine.kvCurrent, h.engine]
    exact Nat.le_max_right _ _

/-- An evaluation under way has not advanced yet. -/
lemma Evaluating.advanced {coordinator : TokenCoordinator} {s t : Evaluation}
    (h : Evaluating coordinator True s t) (hp : s.engine.position < contextLimit) :
    Advanced 0 s t := by
  refine ⟨?_, ?_, fun c hc => h.kv hp c (by omega), h.logits⟩
  · rw [h.engine, Nat.add_zero]
  · intro hw
    rw [InferenceEngine.kvCurrent, h.engine]
    exact hw

variable {K : Kernels}

/-- A sequence of evaluations inside the context: all finish and leave the scratch clear, or one of
them fails. -/
lemma evaluateAll_spec {β : Type} {token : β → Token} {produceLogits : β → Bool} {l : List β}
    {s t : Evaluation} {r : Except InferenceError Unit} (scratch : s.engine.scratch = .zero)
    (hp : s.engine.position + l.length ≤ contextLimit)
    (h : l.forM (fun b => evaluate K (token b) (produceLogits b)) s = (r, t)) :
    (r = .ok () ∧ Advanced l.length s t ∧ t.engine.scratch = .zero) ∨
      ∃ e n, r = .error e ∧ evaluationError e ∧ Advanced n s t := by
  induction l generalizing s with
  | nil =>
    cases h
    exact .inl ⟨rfl, .refl _, scratch⟩
  | cons b l ih =>
    rw [forM_cons] at h
    have room : s.engine.position + (l.length + 1) ≤ contextLimit := hp
    rcases hb : evaluate K (token b) (produceLogits b) s with ⟨e | _, u⟩
    · rw [bind_error hb] at h
      cases h
      rcases evaluate_spec (by omega) hb with ⟨bad, _⟩ | ⟨e', he', herr, hu⟩
      · cases bad
      · cases he'
        exact .inr ⟨e, 0, rfl, herr, hu.advanced (by omega)⟩
    · rw [bind_ok hb] at h
      rcases evaluate_spec (by omega) hb with ⟨_, hu⟩ | ⟨_, bad, _⟩
      · have first := hu.advanced
        have clear : u.engine.scratch = .zero := by rw [hu.engine]
        rcases ih clear (by rw [first.position]; omega) h with ⟨hr, rest, hz⟩ | ⟨e, n, hr, herr, rest⟩
        · refine .inl ⟨hr, ?_, hz⟩
          have both := first.trans rest
          rw [Nat.add_comm] at both
          exact both
        · exact .inr ⟨e, 1 + n, hr, herr, first.trans rest⟩
      · cases bad

/-- How an accepted call succeeds: `n` positions further, with a new reserve and count. -/
structure Accepted (n generationReserve predictionsEmitted : Nat) (s t : Evaluation) : Prop where
  engine : t.engine = { s.engine with
    kv := t.engine.kv
    scratch := .zero
    position := s.engine.position + n
    generationReserve
    predictionsEmitted
    lastSelected := t.engine.lastSelected
    state := t.engine.state
    kvHighWater := t.engine.kvHighWater
    scratchHighWater := t.engine.scratchHighWater }
  state : t.engine.state = .ready ∨ t.engine.state = .eos
  highWater : s.engine.kvCurrent ≤ s.engine.kvHighWater → t.engine.kvCurrent ≤ t.engine.kvHighWater
  kv : ∀ c : KvCoord, c.position.val < s.engine.position →
    t.engine.kv c.word = s.engine.kv c.word
  logits : t.logits.length = s.logits.length

/-- An accepted call keeps the machine. -/
lemma Accepted.machine {n reserve emitted : Nat} {s t : Evaluation}
    (h : Accepted n reserve emitted s t) : SameMachine s.engine t.engine := by
  rw [h.engine]
  exact ⟨rfl, rfl, rfl⟩

/-- How an accepted call fails. -/
structure Faulted (s t : Evaluation) : Prop where
  machine : SameMachine s.engine t.engine
  state : t.engine.state = .faulted
  retained : t.engine.retainedPrefix = .empty
  scratch : t.engine.scratch = .zero
  highWater : s.engine.kvCurrent ≤ s.engine.kvHighWater → t.engine.kvCurrent ≤ t.engine.kvHighWater
  logits : t.logits = List.replicate s.logits.length 0

/-- A fault behind an advance leaves a faulted engine. -/
lemma Advanced.fault {n : Nat} {s t : Evaluation} (h : Advanced n s t) : Faulted s (fault t) := by
  refine ⟨⟨h.machine.model, h.machine.backend, h.machine.dispatcher⟩, rfl, rfl, rfl, h.highWater, ?_⟩
  rw [← h.logits]
  rfl

/-- A publication ends an accepted call. -/
lemma publishStep_spec {n : Nat} {s t u : Evaluation} {r : Except InferenceError InferenceStep}
    (advanced : Advanced n s t) (scratch : t.engine.scratch = .zero) (reserve emitted : Nat)
    (h : publishStep K { t with
      engine := { t.engine with
        generationReserve := reserve
        predictionsEmitted := emitted } } = (r, u)) :
    (∃ step, r = .ok step ∧ Accepted n reserve emitted s u) ∨
      ∃ e, r = .error e ∧ evaluationError e ∧ Faulted s u := by
  unfold publishStep at h
  split at h
  · rename_i e he
    cases h
    refine .inr ⟨e, rfl, ?_, ⟨advanced.machine.model, advanced.machine.backend,
      advanced.machine.dispatcher⟩, rfl, rfl, rfl, advanced.highWater, advanced.fault.logits⟩
    rcases injectAndCheck_status he with status | status
    · exact .inr (.inl status)
    · exact .inr (.inr (.inl status))
  · cases h
    refine .inl ⟨_, rfl, ?_, ?_, advanced.highWater, advanced.kv, advanced.logits⟩
    · dsimp only
      rw [advanced.engine, ← scratch, advanced.engine]
    · dsimp only
      split
      · exact .inr rfl
      · exact .inl rfl

/-- An accepted prefill evaluates all its tokens, or faults. -/
lemma prefillAccepted_spec {promptTokens : List Token} {reserve : Nat} {s t : Evaluation}
    {r : Except InferenceError InferenceStep} (scratch : s.engine.scratch = .zero)
    (hp : s.engine.position + promptTokens.length ≤ contextLimit)
    (h : prefillAccepted K promptTokens reserve s = (r, t)) :
    (∃ step, r = .ok step ∧ Accepted promptTokens.length reserve 1 s t) ∨
      ∃ e, r = .error e ∧ evaluationError e ∧ Faulted s t := by
  unfold prefillAccepted at h
  rw [bind_ok (modify_apply _ _)] at h
  set s₀ : Evaluation := { s with
    engine := { s.engine with generationReserve := reserve, predictionsEmitted := 0 } } with hs₀
  rcases hl : evaluatePrompt K promptTokens s₀ with ⟨e | _, u⟩ <;>
    have run := evaluateAll_spec (s := s₀) scratch (by simpa using hp) hl
  · rcases run with ⟨bad, _⟩ | ⟨e', n, he, herr, advanced⟩
    · cases bad
    · cases he
      have failed : onError (evaluatePrompt K promptTokens) (fun _ => fault) s₀ =
          (.error e, fault u) := by
        rw [onError, hl]
      rw [bind_error failed] at h
      cases h
      exact .inr ⟨e, rfl, herr, ⟨advanced.machine.model, advanced.machine.backend,
        advanced.machine.dispatcher⟩, rfl, rfl, rfl, advanced.highWater, advanced.fault.logits⟩
  · rcases run with ⟨_, advanced, clear⟩ | ⟨_, _, bad, _⟩
    · have stored : onError (evaluatePrompt K promptTokens) (fun _ => fault) s₀ = (.ok (), u) := by
        rw [onError, hl]
      have reserved : u.engine.generationReserve = reserve := by rw [advanced.engine]
      rw [bind_ok stored, bind_ok (modify_apply _ _)] at h
      rw [List.length_zipIdx] at advanced
      rcases publishStep_spec advanced clear u.engine.generationReserve 1 h with ⟨step, hr, done⟩ | ⟨e, hr, herr, failed⟩
      · rw [reserved] at done
        exact .inl ⟨step, hr, done.engine, done.state, done.highWater, done.kv, done.logits⟩
      · exact .inr ⟨e, hr, herr, ⟨failed.machine.model, failed.machine.backend,
          failed.machine.dispatcher⟩, failed.state, failed.retained, failed.scratch,
          failed.highWater, failed.logits⟩
    · cases bad

/-- An accepted decode evaluates its token, or faults. -/
lemma decodeAccepted_spec {token : Token} {s t : Evaluation}
    {r : Except InferenceError InferenceStep} (hp : s.engine.position < contextLimit)
    (h : decodeAccepted K token s = (r, t)) :
    (∃ step, r = .ok step ∧
        Accepted 1 s.engine.generationReserve (s.engine.predictionsEmitted + 1) s t) ∨
      ∃ e, r = .error e ∧ evaluationError e ∧ Faulted s t := by
  unfold decodeAccepted at h
  rcases hl : evaluate K token true s with ⟨e | _, u⟩
  · rcases evaluate_spec hp hl with ⟨bad, _⟩ | ⟨e', he, herr, hu⟩
    · cases bad
    · cases he
      have failed : onError (evaluate K token true) (fun _ => fault) s = (.error e, fault u) := by
        rw [onError, hl]
      rw [bind_error failed] at h
      cases h
      exact .inr ⟨e, rfl, herr, (hu.advanced hp).fault⟩
  · rcases evaluate_spec hp hl with ⟨_, hu⟩ | ⟨_, bad, _⟩
    · have stored : onError (evaluate K token true) (fun _ => fault) s = (.ok (), u) := by
        rw [onError, hl]
      have reserve : u.engine.generationReserve = s.engine.generationReserve := by rw [hu.engine]
      have emitted : u.engine.predictionsEmitted = s.engine.predictionsEmitted := by rw [hu.engine]
      have clear : u.engine.scratch = .zero := by rw [hu.engine]
      rw [bind_ok stored, bind_ok (modify_apply _ _), emitted] at h
      have done := publishStep_spec hu.advanced clear u.engine.generationReserve
        (s.engine.predictionsEmitted + 1) h
      rwa [reserve] at done
    · cases bad

/-- The engine between calls. -/
structure InferenceEngine.Invariant (engine : InferenceEngine) : Prop where
  budget : engine.state = .ready ∨ engine.state = .eos →
    1 ≤ engine.predictionsEmitted ∧ engine.predictionsEmitted ≤ engine.generationReserve ∧
      engine.position + (engine.generationReserve - engine.predictionsEmitted) < contextLimit
  reset : engine.state = .reset →
    engine.position = 0 ∨
      (engine.retainedPrefix.len ≠ 0 ∧ engine.position = engine.retainedPrefix.len)
  retained : engine.retainedPrefix.len ≠ 0 →
    engine.state ≠ .faulted ∧ engine.retainedPrefix.len ≤ engine.position
  scratch : engine.scratch = .zero
  highWater : engine.kvCurrent ≤ engine.kvHighWater

/-- The three ways a call ends. -/
inductive Settled (rejection : Option InferenceError)
    (n generationReserve predictionsEmitted : Nat) (s : Evaluation) :
    Except InferenceError InferenceStep → Evaluation → Prop
  | rejected {e : InferenceError} : rejection = some e →
    Settled rejection n generationReserve predictionsEmitted s (.error e) s
  | accepted {step : InferenceStep} {t : Evaluation} : rejection = none →
    Accepted n generationReserve predictionsEmitted s t →
    Settled rejection n generationReserve predictionsEmitted s (.ok step) t
  | failed {e : InferenceError} {t : Evaluation} : rejection = none → evaluationError e →
    Faulted s t → Settled rejection n generationReserve predictionsEmitted s (.error e) t

/-- A method settles as soon as its accepted runs end in one of two ways. -/
lemma accepting_settles {rejection : Option InferenceError} {run : EngineM InferenceStep}
    {n reserve emitted : Nat} {s t : Evaluation} {r : Except InferenceError InferenceStep}
    (ends : rejection = none → run s = (r, t) →
      (∃ step, r = .ok step ∧ Accepted n reserve emitted s t) ∨
        ∃ e, r = .error e ∧ evaluationError e ∧ Faulted s t)
    (h : accepting rejection run s = (r, t)) : Settled rejection n reserve emitted s r t := by
  unfold accepting at h
  cases hr : rejection with
  | some e =>
    rw [hr] at h
    cases h
    exact .rejected rfl
  | none =>
    rw [hr] at h
    rcases ends hr h with ⟨step, rfl, done⟩ | ⟨e, rfl, herr, failed⟩
    · exact .accepted rfl done
    · exact .failed rfl herr failed

/-- Only a buffer of the vocabulary's length is accepted. -/
lemma logitsError_eq_none {len position : Nat} :
    logitsError len position = none ↔ len = logitWords := by
  unfold logitsError
  split
  · rename_i h
    exact ⟨fun _ => h, fun _ => rfl⟩
  · rename_i h
    exact ⟨nofun, fun e => absurd e h⟩

/-- Only tokens of the vocabulary are accepted. -/
lemma tokenRejection_eq_none {start : Nat} {promptTokens : List Token} :
    tokenRejection start promptTokens = none ↔ ∀ token ∈ promptTokens, token.toNat < vocabCount := by
  unfold tokenRejection
  rw [Option.map_eq_none_iff, List.find?_eq_none]
  constructor
  · intro h token member
    obtain ⟨i, inside, rfl⟩ := List.getElem_of_mem member
    have entry := h (promptTokens[i], i) (List.mk_mem_zipIdx_iff_getElem?.mpr (by simp [inside]))
    simpa using entry
  · rintro h ⟨token, index⟩ member
    have valid := h token (List.fst_mem_of_mem_zipIdx member)
    simpa using valid

/-- What lets a prefill through; the separate bounds on the reserve and on a fresh prompt follow
from the bound on the total. -/
lemma prefillRejection_eq_none {engine : InferenceEngine} {promptTokens : List Token}
    {reserve len : Nat} {append : Bool} :
    engine.prefillRejection promptTokens reserve len append = none ↔
      1 ≤ reserve ∧ promptTokens ≠ [] ∧
        engine.position + promptTokens.length + reserve ≤ contextLimit ∧ len = logitWords ∧
        ∀ token ∈ promptTokens, token.toNat < vocabCount := by
  unfold InferenceEngine.prefillRejection
  dsimp only
  constructor
  · intro h
    split at h
    · cases h
    rename_i bounds
    split at h
    · cases h
    rename_i nonempty
    split at h
    · cases h
    split at h
    · cases h
    rename_i total
    rw [Option.or_eq_none_iff, logitsError_eq_none, tokenRejection_eq_none] at h
    exact ⟨(not_not.mp bounds).1, nonempty, Nat.not_lt.mp total, h⟩
  · rintro ⟨one, nonempty, total, h⟩
    rw [if_neg (by omega), if_neg nonempty, if_neg (by omega), if_neg (by omega),
      Option.or_eq_none_iff, logitsError_eq_none, tokenRejection_eq_none]
    exact h

/-- A prefill is rejected, accepted or faults, as its checks say. -/
lemma prefillInner_settles {promptTokens : List Token} {reserve : Nat} {append : Bool}
    {s t : Evaluation} {r : Except InferenceError InferenceStep} (scratch : s.engine.scratch = .zero)
    (h : prefillInner K promptTokens reserve append s = (r, t)) :
    Settled (s.engine.prefillRejection promptTokens reserve s.logits.length append)
      promptTokens.length reserve 1 s r t := by
  refine accepting_settles ?_ h
  intro checks run
  obtain ⟨_, _, room, _⟩ := prefillRejection_eq_none.mp checks
  exact prefillAccepted_spec scratch (by omega) run

/-- What the checks of a decode establish. -/
lemma decodeRejection_eq_none {engine : InferenceEngine} {token : Token} {len : Nat} {greedy : Bool}
    (h : engine.decodeRejection token len greedy = none) :
    (engine.state = .ready ∨ engine.state = .eos) ∧
      engine.predictionsEmitted < engine.generationReserve ∧ engine.position < contextLimit ∧
      len = logitWords := by
  unfold InferenceEngine.decodeRejection at h
  split at h
  · cases h
  rename_i faulted
  split at h
  · cases h
  split at h
  · cases h
  rename_i reset
  split at h
  · cases h
  split at h
  · cases h
  split at h
  · cases h
  rename_i emitted
  split at h
  · cases h
  rename_i position
  refine ⟨?_, Nat.not_le.mp emitted, Nat.not_le.mp position, logitsError_eq_none.mp h⟩
  cases hs : engine.state <;> simp_all

/-- A decode is rejected, accepted or faults, as its checks say. -/
lemma decodeInner_settles {token : Token} {greedy : Bool} {s t : Evaluation}
    {r : Except InferenceError InferenceStep} (h : decodeInner K token greedy s = (r, t)) :
    Settled (s.engine.decodeRejection token s.logits.length greedy) 1 s.engine.generationReserve
      (s.engine.predictionsEmitted + 1) s r t := by
  refine accepting_settles ?_ h
  intro checks run
  obtain ⟨_, _, room, _⟩ := decodeRejection_eq_none checks
  exact decodeAccepted_spec room run

/-- The checks of `prefill`, the state first. -/
def InferenceEngine.freshRejection (engine : InferenceEngine) (promptTokens : List Token)
    (generationReserve logitsLength : Nat) : Option InferenceError :=
  match engine.state with
  | .faulted => some (engine.stateError .reset 3)
  | .ready | .eos => some (engine.stateError .reset 1)
  | .reset => engine.prefillRejection promptTokens generationReserve logitsLength false

/-- The checks of `append_prefill`. -/
def InferenceEngine.appendRejection (engine : InferenceEngine) (promptTokens : List Token)
    (generationReserve logitsLength : Nat) : Option InferenceError :=
  match engine.state with
  | .faulted => some (engine.stateError .reset 3)
  | .reset => some (engine.stateError .ready 0)
  | .ready | .eos => engine.prefillRejection promptTokens generationReserve logitsLength true

/-- A fresh prefill is rejected, accepted or faults, as its checks say. -/
lemma prefill_settles {promptTokens : List Token} {reserve : Nat} {s t : Evaluation}
    {r : Except InferenceError InferenceStep} (scratch : s.engine.scratch = .zero)
    (h : prefill K promptTokens reserve s = (r, t)) :
    Settled (s.engine.freshRejection promptTokens reserve s.logits.length) promptTokens.length
      reserve 1 s r t := by
  unfold prefill at h
  unfold InferenceEngine.freshRejection
  cases hs : s.engine.state <;> rw [hs] at h <;> dsimp only at h ⊢
  case reset => exact prefillInner_settles scratch h
  all_goals
    cases h
    exact .rejected rfl

/-- An appended prefill is rejected, accepted or faults, as its checks say. -/
lemma appendPrefill_settles {promptTokens : List Token} {reserve : Nat} {s t : Evaluation}
    {r : Except InferenceError InferenceStep} (scratch : s.engine.scratch = .zero)
    (h : appendPrefill K promptTokens reserve s = (r, t)) :
    Settled (s.engine.appendRejection promptTokens reserve s.logits.length) promptTokens.length
      reserve 1 s r t := by
  unfold appendPrefill at h
  unfold InferenceEngine.appendRejection
  cases hs : s.engine.state <;> rw [hs] at h <;> dsimp only at h ⊢
  case ready | eos => exact prefillInner_settles scratch h
  all_goals
    cases h
    exact .rejected rfl

section Kept

variable {s t : Evaluation} {r : Except InferenceError InferenceStep}

/-- A reset establishes the invariant. -/
lemma InferenceEngine.resetState_invariant (engine : InferenceEngine) :
    engine.resetState.Invariant := by
  refine ⟨nofun, fun _ => .inl rfl, fun h => (h rfl).elim, rfl, ?_⟩
  simp [InferenceEngine.resetState, kvCurrent]

/-- Where the reservation arithmetic is: what is left of the reserve still fits. -/
lemma Accepted.invariant {n reserve emitted : Nat} (h : Accepted n reserve emitted s t)
    (inv : s.engine.Invariant) (one : 1 ≤ emitted) (within : emitted ≤ reserve)
    (fits : s.engine.position + n + (reserve - emitted) < contextLimit) :
    t.engine.Invariant := by
  have position : t.engine.position = s.engine.position + n := by rw [h.engine]
  have retained : t.engine.retainedPrefix = s.engine.retainedPrefix := by rw [h.engine]
  refine ⟨?_, ?_, ?_, ?_, h.highWater inv.highWater⟩
  · intro _
    rw [h.engine]
    exact ⟨one, within, fits⟩
  · intro reset
    rcases h.state with state | state <;> rw [state] at reset <;> cases reset
  · intro nonzero
    rw [retained] at nonzero ⊢
    obtain ⟨_, le⟩ := inv.retained nonzero
    refine ⟨?_, by omega⟩
    rcases h.state with state | state <;> rw [state] <;> decide
  · rw [h.engine]

/-- A fault keeps the invariant. -/
lemma Faulted.invariant (h : Faulted s t) (inv : s.engine.Invariant) : t.engine.Invariant := by
  refine ⟨?_, ?_, ?_, h.scratch, h.highWater inv.highWater⟩
  · intro state
    rw [h.state] at state
    rcases state with state | state <;> cases state
  · intro state
    rw [h.state] at state
    cases state
  · intro nonzero
    rw [h.retained] at nonzero
    exact (nonzero rfl).elim

/-- A settled call keeps the invariant if its checks leave room. -/
lemma Settled.invariant {rejection : Option InferenceError} {n reserve emitted : Nat}
    (h : Settled rejection n reserve emitted s r t) (inv : s.engine.Invariant)
    (checked : rejection = none → 1 ≤ emitted ∧ emitted ≤ reserve ∧
      s.engine.position + n + (reserve - emitted) < contextLimit) :
    t.engine.Invariant := by
  cases h with
  | rejected => exact inv
  | accepted none done =>
    obtain ⟨one, within, fits⟩ := checked none
    exact done.invariant inv one within fits
  | failed _ _ failed => exact failed.invariant inv

/-- A prefill that was let through reserves within the context. -/
lemma prefillRejection_budget {engine : InferenceEngine} {promptTokens : List Token}
    {reserve len : Nat} {append : Bool}
    (h : engine.prefillRejection promptTokens reserve len append = none) :
    1 ≤ 1 ∧ 1 ≤ reserve ∧ engine.position + promptTokens.length + (reserve - 1) < contextLimit := by
  obtain ⟨one, _, room, _⟩ := prefillRejection_eq_none.mp h
  exact ⟨Nat.le_refl 1, one, by omega⟩

/-- A fresh prefill is accepted on a reset engine only. -/
lemma freshRejection_eq_none {engine : InferenceEngine} {promptTokens : List Token}
    {reserve len : Nat} :
    engine.freshRejection promptTokens reserve len = none ↔
      engine.state = .reset ∧ engine.prefillRejection promptTokens reserve len false = none := by
  unfold InferenceEngine.freshRejection
  cases engine.state <;> simp

/-- An appended prefill is accepted behind a step only. -/
lemma appendRejection_eq_none {engine : InferenceEngine} {promptTokens : List Token}
    {reserve len : Nat} (h : engine.appendRejection promptTokens reserve len = none) :
    (engine.state = .ready ∨ engine.state = .eos) ∧
      engine.prefillRejection promptTokens reserve len true = none := by
  unfold InferenceEngine.appendRejection at h
  split at h
  · cases h
  · cases h
  · exact ⟨.inl ‹_›, h⟩
  · exact ⟨.inr ‹_›, h⟩

/-- The checks of `prefill_with_prefix`: the prefix itself, then those of the branch it takes. -/
def InferenceEngine.retainRejection (engine : InferenceEngine) (promptTokens : List Token)
    (prefixTokens generationReserve logitsLength : Nat) : Option InferenceError :=
  if prefixTokens = 0 ∨ promptTokens.length ≤ prefixTokens ∨ maxTokens < prefixTokens then
    some (prefixError prefixTokens)
  else if engine.retainedPrefix.len = 0 then
    engine.freshRejection promptTokens generationReserve logitsLength
  else if engine.reuses promptTokens prefixTokens then
    engine.prefillRejection (promptTokens.drop prefixTokens) generationReserve logitsLength true
  else if engine.state ≠ .reset then
    some (engine.stateError .reset 4)
  else
    engine.resetState.freshRejection promptTokens generationReserve logitsLength

/-- What a call with its own rejection leaves of the engine and of the logits. -/
structure Call (rejection : Option InferenceError) (s : Evaluation) (kept : InferenceEngine → Prop)
    (r : Except InferenceError InferenceStep) (t : Evaluation) : Prop where
  machine : SameMachine s.engine t.engine
  invariant : t.engine.Invariant
  rejected : ∀ e, rejection = some e → r = .error e ∧ kept t.engine ∧ t.logits = s.logits
  failed : ∀ e, rejection = none → r = .error e →
    evaluationError e ∧ t.engine.state = .faulted ∧ t.engine.retainedPrefix = .empty ∧
      t.logits = List.replicate s.logits.length 0

/-- A settled call is one that meets the specification of calls. -/
lemma Settled.call {rejection : Option InferenceError} {n reserve emitted : Nat}
    (h : Settled rejection n reserve emitted s r t) (inv : s.engine.Invariant)
    (checked : rejection = none → 1 ≤ emitted ∧ emitted ≤ reserve ∧
      s.engine.position + n + (reserve - emitted) < contextLimit) :
    Call rejection s (· = s.engine) r t := by
  refine ⟨?_, h.invariant inv checked, ?_, ?_⟩
  · cases h with
    | rejected => exact .refl _
    | accepted _ done => exact done.machine
    | failed _ _ failed => exact failed.machine
  · intro e he
    cases h with
    | rejected some =>
      rw [some] at he
      cases he
      exact ⟨rfl, rfl, rfl⟩
    | accepted none => rw [none] at he; cases he
    | failed none => rw [none] at he; cases he
  · intro e he hr
    cases h with
    | rejected some => rw [some] at he; cases he
    | accepted => cases hr
    | failed _ herr failed =>
      cases hr
      exact ⟨herr, failed.state, failed.retained, failed.logits⟩

/-- A fresh prefill meets the specification of calls. -/
lemma prefill_call {promptTokens : List Token} {reserve : Nat} (inv : s.engine.Invariant)
    (h : prefill K promptTokens reserve s = (r, t)) :
    Call (s.engine.freshRejection promptTokens reserve s.logits.length) s (· = s.engine) r t :=
  (prefill_settles inv.scratch h).call inv fun none =>
    prefillRejection_budget (freshRejection_eq_none.mp none).2

/-- An appended prefill meets the specification of calls. -/
lemma appendPrefill_call {promptTokens : List Token} {reserve : Nat} (inv : s.engine.Invariant)
    (h : appendPrefill K promptTokens reserve s = (r, t)) :
    Call (s.engine.appendRejection promptTokens reserve s.logits.length) s (· = s.engine) r t :=
  (appendPrefill_settles inv.scratch h).call inv fun none =>
    prefillRejection_budget (appendRejection_eq_none none).2

/-- A decode meets the specification of calls. -/
lemma decodeInner_call {token : Token} {greedy : Bool} (inv : s.engine.Invariant)
    (h : decodeInner K token greedy s = (r, t)) :
    Call (s.engine.decodeRejection token s.logits.length greedy) s (· = s.engine) r t := by
  refine (decodeInner_settles h).call inv fun none => ?_
  obtain ⟨live, emitted, _⟩ := decodeRejection_eq_none none
  obtain ⟨_, _, fits⟩ := inv.budget live
  exact ⟨by omega, by omega, by omega⟩

/-- Retaining the prefix of a prefill that succeeded: its rows end before the position. -/
lemma prefillRetaining_call {promptTokens : List Token} {prefixTokens reserve : Nat}
    (inv : s.engine.Invariant) (short : prefixTokens < promptTokens.length)
    (h : prefillRetaining K promptTokens prefixTokens reserve s = (r, t)) :
    Call (s.engine.freshRejection promptTokens reserve s.logits.length) s (· = s.engine) r t := by
  unfold prefillRetaining at h
  rcases hp : prefill K promptTokens reserve s with ⟨e | step, u⟩
  · rw [bind_error hp] at h
    cases h
    exact prefill_call inv hp
  · rw [bind_ok hp, bind_ok (modify_apply _ _)] at h
    cases h
    have call := prefill_call inv hp
    cases prefill_settles inv.scratch hp with
    | accepted none done =>
      have position : u.engine.position = s.engine.position + promptTokens.length := by
        rw [done.engine]
      refine ⟨⟨call.machine.model, call.machine.backend, call.machine.dispatcher⟩,
        ⟨call.invariant.budget, ?_, ?_, call.invariant.scratch, call.invariant.highWater⟩, ?_, ?_⟩
      · intro reset
        rcases done.state with state | state <;> rw [state] at reset <;> cases reset
      · intro _
        refine ⟨?_, ?_⟩
        · rcases done.state with state | state <;> rw [state] <;> decide
        · show prefixTokens ≤ u.engine.position
          omega
      · intro e he
        rw [none] at he
        cases he
      · intro e _ hr
        cases hr

/-- What a rejected call keeps may be weakened. -/
lemma Call.mono {rejection : Option InferenceError} {kept kept' : InferenceEngine → Prop}
    (h : Call rejection s kept r t) (imp : ∀ e, kept e → kept' e) : Call rejection s kept' r t := by
  refine ⟨h.machine, h.invariant, ?_, h.failed⟩
  intro e he
  obtain ⟨hr, hk, hl⟩ := h.rejected e he
  exact ⟨hr, imp _ hk, hl⟩

/-- A check that fails before any evaluation, having left an engine that keeps the invariant. -/
lemma Call.of_rejected {error : InferenceError} {kept : InferenceEngine → Prop}
    (machine : SameMachine s.engine t.engine) (inv : t.engine.Invariant) (keeps : kept t.engine) (logits : t.logits = s.logits) :
    Call (some error) s kept (.error error) t := by
  refine ⟨machine, inv, ?_, ?_⟩
  · intro e he
    cases he
    exact ⟨rfl, keeps, logits⟩
  · intro e he
    cases he

/-- A prefill with a prefix meets the specification of calls. -/
lemma prefillWithPrefix_call {promptTokens : List Token} {prefixTokens reserve : Nat}
    (inv : s.engine.Invariant)
    (h : prefillWithPrefix K promptTokens prefixTokens reserve s = (r, t)) :
    Call (s.engine.retainRejection promptTokens prefixTokens reserve s.logits.length) s
      (fun e => e = s.engine ∨ e = s.engine.resetState) r t := by
  unfold prefillWithPrefix at h
  unfold InferenceEngine.retainRejection
  dsimp only at h
  split at h
  · rename_i invalid
    cases h
    rw [if_pos invalid]
    exact .of_rejected ⟨rfl, rfl, rfl⟩ (InferenceEngine.resetState_invariant _) (.inr rfl) rfl
  rename_i valid
  rw [if_neg valid]
  have short : prefixTokens < promptTokens.length := by omega
  split at h
  · rename_i fresh
    rw [if_pos fresh]
    exact (prefillRetaining_call inv short h).mono fun _ he => .inl he
  rename_i held
  rw [if_neg held]
  split at h
  · rename_i reuse
    rw [if_pos reuse]
    have settled := (prefillInner_settles inv.scratch h).call inv fun none =>
      prefillRejection_budget none
    exact settled.mono fun _ he => .inl he
  rename_i mismatch
  rw [if_neg mismatch]
  split at h
  · rename_i state
    cases h
    rw [if_pos state]
    exact .of_rejected ⟨rfl, rfl, rfl⟩ (InferenceEngine.resetState_invariant _) (.inr rfl) rfl
  · rename_i state
    rw [if_neg state]
    -- The cleared engine differs from the caller's only before the call.
    have call := prefillRetaining_call (InferenceEngine.resetState_invariant _) short h
    refine ⟨⟨call.machine.model, call.machine.backend, call.machine.dispatcher⟩, call.invariant, ?_,
      call.failed⟩
    intro e he
    obtain ⟨hr, hk, hl⟩ := call.rejected e he
    exact ⟨hr, .inr hk, hl⟩

end Kept

/-- A reset to the prefix keeps the invariant. -/
lemma InferenceEngine.resetToPrefix_invariant {engine : InferenceEngine} (inv : engine.Invariant) :
    engine.resetToPrefix.2.Invariant := by
  unfold resetToPrefix
  split
  · rename_i valid
    have nonzero : engine.retainedPrefix.len ≠ 0 := by
      intro zero
      unfold retainedValid at valid
      cases hs : engine.state <;> rw [hs] at valid <;> simp [zero] at valid
    obtain ⟨_, le⟩ := inv.retained nonzero
    refine ⟨nofun, fun _ => .inr ⟨nonzero, rfl⟩, fun _ => ⟨nofun, Nat.le_refl _⟩, rfl, ?_⟩
    have current := inv.highWater
    unfold kvCurrent at current ⊢
    exact Nat.le_trans (Nat.mul_le_mul_right _ (Nat.mul_le_mul_right _ le)) current
  · exact resetState_invariant engine

/-- The checks of a call, on the engine it meets. -/
def EngineOp.rejection (engine : InferenceEngine) : EngineOp → Option InferenceError
  | .prefill promptTokens generationReserve logits =>
    engine.freshRejection promptTokens generationReserve logits.length
  | .prefillWithPrefix promptTokens prefixTokens generationReserve logits =>
    engine.retainRejection promptTokens prefixTokens generationReserve logits.length
  | .appendPrefill promptTokens generationReserve logits =>
    engine.appendRejection promptTokens generationReserve logits.length
  | .decode token logits => engine.decodeRejection token logits.length true
  | .decodeSelected token logits => engine.decodeRejection token logits.length false
  | .reset | .resetToPrefix => none

/-- The logits buffer of a call. -/
def EngineOp.logits : EngineOp → List Word
  | .prefill _ _ logits | .prefillWithPrefix _ _ _ logits | .appendPrefill _ _ logits
  | .decode _ logits | .decodeSelected _ logits => logits
  | .reset | .resetToPrefix => []

/-- The engines a rejected call may leave. -/
def EngineOp.Keeps (engine : InferenceEngine) : EngineOp → InferenceEngine → Prop
  | .prefillWithPrefix .., after => after = engine ∨ after = engine.resetState
  | _, after => after = engine

/-- What every call does to an engine that keeps the invariant. -/
structure EngineOp.Spec (engine : InferenceEngine) (op : EngineOp)
    (out : Option InferenceError × Evaluation) : Prop where
  machine : SameMachine engine out.2.engine
  invariant : out.2.engine.Invariant
  rejected : ∀ e, op.rejection engine = some e →
    out.1 = some e ∧ op.Keeps engine out.2.engine ∧ out.2.logits = op.logits
  failed : ∀ e, op.rejection engine = none → out.1 = some e →
    evaluationError e ∧ out.2.engine.state = .faulted ∧ out.2.engine.retainedPrefix = .empty ∧
      out.2.logits = List.replicate op.logits.length 0

/-- A method that meets the specification of calls does so as an operation. -/
lemma Call.spec {op : EngineOp} {engine : InferenceEngine} {method : EngineM InferenceStep}
    (h : ∀ r t, method ⟨engine, op.logits, []⟩ = (r, t) →
      Call (op.rejection engine) ⟨engine, op.logits, []⟩ (op.Keeps engine) r t) :
    op.Spec engine (outcome method engine op.logits) := by
  unfold outcome
  rcases hm : method ⟨engine, op.logits, []⟩ with ⟨e | step, t⟩
  · have call := h _ _ hm
    refine ⟨call.machine, call.invariant, ?_, ?_⟩
    · intro e' he
      obtain ⟨hr, rest⟩ := call.rejected e' he
      cases hr
      exact ⟨rfl, rest⟩
    · intro e' none he
      cases he
      exact call.failed e none rfl
  · have call := h _ _ hm
    refine ⟨call.machine, call.invariant, ?_, ?_⟩
    · intro e' he
      obtain ⟨hr, _⟩ := call.rejected e' he
      cases hr
    · intro e' _ he
      cases he

/-- One call. -/
lemma EngineOp.call_spec {engine : InferenceEngine} (inv : engine.Invariant) (op : EngineOp) :
    op.Spec engine (op.call K engine) := by
  cases op with
  | prefill => exact Call.spec fun _ _ h => prefill_call inv h
  | prefillWithPrefix => exact Call.spec fun _ _ h => prefillWithPrefix_call inv h
  | appendPrefill => exact Call.spec fun _ _ h => appendPrefill_call inv h
  | decode => exact Call.spec fun _ _ h => decodeInner_call inv h
  | decodeSelected => exact Call.spec fun _ _ h => decodeInner_call inv h
  | reset =>
    refine ⟨⟨rfl, rfl, rfl⟩, InferenceEngine.resetState_invariant engine, ?_, ?_⟩
    · intro e he
      cases he
    · intro e _ he
      cases he
  | resetToPrefix =>
    refine ⟨?_, InferenceEngine.resetToPrefix_invariant inv, ?_, ?_⟩
    · show SameMachine engine engine.resetToPrefix.2
      unfold InferenceEngine.resetToPrefix
      split <;> exact ⟨rfl, rfl, rfl⟩
    · intro e he
      cases he
    · intro e _ he
      cases he

/-- A built engine has the invariant. -/
lemma build_invariant {cpu : Cpu} {model : ModelView} {kvStorage scratchStorage : Storage}
    {dispatcher : Option InferenceDispatcher} {engine : InferenceEngine}
    (h : InferenceEngine.build cpu model kvStorage scratchStorage dispatcher = .ok engine) :
    engine.Invariant := by
  unfold InferenceEngine.build at h
  split at h
  · cases h
  split at h
  · cases h
  cases h
  refine ⟨?_, fun _ => .inl rfl, fun h => (h rfl).elim, rfl, ?_⟩
  · rintro (state | state) <;> cases state
  · simp [InferenceEngine.kvCurrent]

/-- The invariant holds after every sequence of calls. -/
lemma runOps_invariant {engine : InferenceEngine} (inv : engine.Invariant)
    (calls : List (Kernels × EngineOp)) : (runOps engine calls).Invariant := by
  induction calls generalizing engine with
  | nil => exact inv
  | cons call calls ih => exact ih (call.2.call_spec inv).invariant

/-- No call changes the machine. -/
lemma runOps_machine {engine : InferenceEngine} (inv : engine.Invariant)
    (calls : List (Kernels × EngineOp)) : SameMachine engine (runOps engine calls) := by
  induction calls generalizing engine with
  | nil => exact .refl engine
  | cons call calls ih =>
    have spec := call.2.call_spec (K := call.1) inv
    exact spec.machine.trans (ih spec.invariant)

/-- The errors of the position guard of `decode` and of the range checks of `write_kv`. -/
def InferenceError.IsRange (e : InferenceError) : Prop :=
  e.domain = .kv ∧ (e.status = .context ∨ e.status = .arithmetic ∨ e.status = .capacity)

/-- An error of an evaluation is not a range error. -/
lemma evaluationError.not_isRange {e : InferenceError} (h : evaluationError e) : ¬e.IsRange := by
  rintro ⟨domain, status⟩
  rcases h with h | h | h | ⟨h, d⟩
  · rw [h] at status
    simp at status
  · rw [h] at status
    simp at status
  · rw [h] at status
    simp at status
  · rw [d] at domain
    cases domain

/-- A wrong buffer is reported under the logits. -/
lemma logitsError_domain {len position : Nat} {e : InferenceError}
    (h : logitsError len position = some e) : e.domain = .logits := by
  unfold logitsError at h
  split at h
  · cases h
  · cases h
    rfl

/-- No check of a prefill is reported under the cache. -/
lemma prefillRejection_domain {engine : InferenceEngine} {promptTokens : List Token}
    {reserve len : Nat} {append : Bool} {e : InferenceError}
    (h : engine.prefillRejection promptTokens reserve len append = some e) : e.domain ≠ .kv := by
  unfold InferenceEngine.prefillRejection at h
  dsimp only at h
  split at h
  · cases h
    nofun
  split at h
  · cases h
    nofun
  split at h
  · cases h
    nofun
  split at h
  · cases h
    nofun
  rcases Option.or_eq_some_iff.mp h with logits | ⟨_, token⟩
  · rw [logitsError_domain logits]
    nofun
  · obtain ⟨_, _, rfl⟩ := Option.map_eq_some_iff.mp token
    nofun

/-- No check of a fresh prefill is reported under the cache. -/
lemma freshRejection_domain {engine : InferenceEngine} {promptTokens : List Token}
    {reserve len : Nat} {e : InferenceError}
    (h : engine.freshRejection promptTokens reserve len = some e) : e.domain ≠ .kv := by
  unfold InferenceEngine.freshRejection at h
  split at h
  case h_4 => exact prefillRejection_domain h
  all_goals
    cases h
    nofun

/-- No check of an appended prefill is reported under the cache. -/
lemma appendRejection_domain {engine : InferenceEngine} {promptTokens : List Token}
    {reserve len : Nat} {e : InferenceError}
    (h : engine.appendRejection promptTokens reserve len = some e) : e.domain ≠ .kv := by
  unfold InferenceEngine.appendRejection at h
  split at h
  case h_3 | h_4 => exact prefillRejection_domain h
  all_goals
    cases h
    nofun

/-- No check of a prefill with a prefix is reported under the cache. -/
lemma retainRejection_domain {engine : InferenceEngine} {promptTokens : List Token}
    {prefixTokens reserve len : Nat} {e : InferenceError}
    (h : engine.retainRejection promptTokens prefixTokens reserve len = some e) :
    e.domain ≠ .kv := by
  unfold InferenceEngine.retainRejection at h
  split at h
  · cases h
    nofun
  split at h
  · exact freshRejection_domain h
  split at h
  · exact prefillRejection_domain h
  split at h
  · cases h
    nofun
  · exact freshRejection_domain h

/-- The position guard of `decode` needs a live engine at the end of the context. -/
lemma decodeRejection_domain {engine : InferenceEngine} (inv : engine.Invariant) {token : Token}
    {len : Nat} {greedy : Bool} {e : InferenceError}
    (h : engine.decodeRejection token len greedy = some e) : e.domain ≠ .kv := by
  unfold InferenceEngine.decodeRejection at h
  split at h
  · cases h
    nofun
  rename_i faulted
  split at h
  · cases h
    nofun
  split at h
  · cases h
    nofun
  rename_i reset
  split at h
  · cases h
    nofun
  split at h
  · cases h
    nofun
  split at h
  · cases h
    nofun
  split at h
  · rename_i position
    have live : engine.state = .ready ∨ engine.state = .eos := by
      cases hs : engine.state <;> simp_all
    obtain ⟨_, _, fits⟩ := inv.budget live
    omega
  · rw [logitsError_domain h]
    nofun

/-- No call on an engine that keeps the invariant is stopped by a range error. -/
lemma EngineOp.call_not_isRange {engine : InferenceEngine} (inv : engine.Invariant) {op : EngineOp}
    {e : InferenceError} (h : (op.call K engine).1 = some e) : ¬e.IsRange := by
  have spec : op.Spec engine (op.call K engine) := op.call_spec inv
  cases hr : op.rejection engine with
  | none => exact (spec.failed e hr h).1.not_isRange
  | some e' =>
    obtain ⟨returned, _⟩ := spec.rejected e' hr
    rw [h] at returned
    cases returned
    refine fun range => ?_
    cases op with
    | prefill => exact freshRejection_domain hr range.1
    | prefillWithPrefix => exact retainRejection_domain hr range.1
    | appendPrefill => exact appendRejection_domain hr range.1
    | decode => exact decodeRejection_domain inv hr range.1
    | decodeSelected => exact decodeRejection_domain inv hr range.1
    | reset => cases hr
    | resetToPrefix => cases hr

/-- After any calls the engine keeps its invariant; the next call is rejected without a trace, or
fails into the faulted state, or succeeds, and no range error ever stops it. -/
theorem engine_invariant {cpu : Cpu} {model : ModelView} {kvStorage scratchStorage : Storage}
    {dispatcher : Option InferenceDispatcher} {engine : InferenceEngine}
    (built : InferenceEngine.build cpu model kvStorage scratchStorage dispatcher = .ok engine)
    (calls : List (Kernels × EngineOp)) (K : Kernels) (op : EngineOp) :
    (runOps engine calls).Invariant ∧
      op.Spec (runOps engine calls) (op.call K (runOps engine calls)) ∧
      ∀ e, (op.call K (runOps engine calls)).1 = some e → ¬e.IsRange := by
  have inv := runOps_invariant (build_invariant built) calls
  exact ⟨inv, op.call_spec inv, fun _ he => EngineOp.call_not_isRange inv he⟩

end Promptboot
