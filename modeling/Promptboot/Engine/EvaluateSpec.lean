import Promptboot.Engine.Evaluate

/-!
# What an evaluation does

`Evaluating` says what an evaluation may change, finished or not: the KV words of its own position,
the scratch arena, the logits, and the high-water marks. It is kept by every primitive and carried
through the layer loop; `evaluationError` excludes the range errors of `write_kv`.

The `keeps_` lemmas go up from the primitives in the same order as the evaluation; `keeps_writeKv`
is the one that shows which words of the cache a store touches. `evaluateBody_next` adds the
position, and the headline `evaluate_spec` is `Evaluated` on success and `Evaluating` on failure.
-/

namespace Promptboot
open Fallible

/-- The errors an evaluation inside the context can stop with: none of the range errors of
`write_kv`, and never the position overflow. -/
def evaluationError (e : InferenceError) : Prop :=
  e.status = .model ∨ e.status = .nonfiniteInput ∨ e.status = .nonfiniteOutput ∨
    (e.status = .state ∧ e.domain = .prompt)

/-- `t` is reached from `s` by steps of one evaluation that has not advanced the position; only
where it `attends` may it have run an attention kernel. -/
structure Evaluating (coordinator : TokenCoordinator) (attends : Prop) (s t : Evaluation) : Prop where
  engine : t.engine = { s.engine with
    kv := t.engine.kv
    scratch := t.engine.scratch
    scratchHighWater := t.engine.scratchHighWater }
  kv : s.engine.position < contextLimit → ∀ c : KvCoord, c.position.val ≠ s.engine.position →
    t.engine.kv c.word = s.engine.kv c.word
  logits : t.logits.length = s.logits.length
  runs : ∃ new, t.vectorRuns = s.vectorRuns ++ new ∧ ∀ run ∈ new,
    (∃ rows, run = .matvec coordinator.backend rows) ∨
      (attends ∧ ∃ layer, run = .attention s.engine.backend layer)

variable {K : Kernels} {coordinator : TokenCoordinator} {attends : Prop} {s₀ : Evaluation}

/-- An evaluation starts as itself. -/
lemma Evaluating.refl (s : Evaluation) : Evaluating coordinator attends s s :=
  ⟨rfl, fun _ _ _ => rfl, rfl, [], by simp, by simp⟩

/-- Under way the position stays. -/
lemma Evaluating.position {s t : Evaluation} (h : Evaluating coordinator attends s t) :
    t.engine.position = s.engine.position := by
  rw [h.engine]

/-- Under way the backend stays. -/
lemma Evaluating.backend {s t : Evaluation} (h : Evaluating coordinator attends s t) :
    t.engine.backend = s.engine.backend := by
  rw [h.engine]

/-- A step that only touches the scratch arena and its high-water mark. -/
lemma Evaluating.scratch {s t u : Evaluation} (h : Evaluating coordinator attends s t)
    (engine : u.engine = { t.engine with
      scratch := u.engine.scratch
      scratchHighWater := u.engine.scratchHighWater })
    (logits : u.logits = t.logits) (runs : u.vectorRuns = t.vectorRuns) :
    Evaluating coordinator attends s u := by
  refine ⟨?_, ?_, ?_, ?_⟩
  · rw [engine, h.engine]
  · intro hp c hc
    rw [engine]
    exact h.kv hp c hc
  · rw [logits]
    exact h.logits
  · rw [runs]
    exact h.runs

/-- The invariant of a part of an evaluation, with its errors as they are inside the context. -/
abbrev KeepsEvaluating (coordinator : TokenCoordinator) (attends : Prop) (s₀ : Evaluation)
    {α : Type} (c : EngineM α) : Prop :=
  Keeps (Evaluating coordinator attends s₀)
    (fun e => s₀.engine.position < contextLimit → evaluationError e) c

/-- A lookup keeps the evaluation under way. -/
lemma keeps_engineTensor {id layer : Nat} {domain : InferenceDomain} :
    KeepsEvaluating coordinator attends s₀ (engineTensor id domain layer) := by
  apply Keeps.lift
  intro s e _ he
  split at he
  · cases he
  · cases he
    exact fun _ => .inl rfl

/-- A lookup in a layer keeps the evaluation under way. -/
lemma keeps_layerTensor {layer role : Nat} {domain : InferenceDomain} :
    KeepsEvaluating coordinator attends s₀ (layerTensor layer role domain) := by
  apply Keeps.lift
  intro s e _ he
  split at he
  · cases he
  · cases he
    exact fun _ => .inl rfl

/-- Reading the position keeps the evaluation under way. -/
lemma keeps_currentPosition : KeepsEvaluating coordinator attends s₀ currentPosition := by
  apply Keeps.lift
  intro s e _ he
  cases he

/-- Reaching for the scratch arena keeps the evaluation under way. -/
lemma keeps_touchScratch {stop : Nat} :
    KeepsEvaluating coordinator attends s₀ (touchScratch stop) :=
  Keeps.modify fun _ hs => hs.scratch rfl rfl rfl

/-- A change of the scratch arena keeps the evaluation under way. -/
lemma keeps_onScratch {f : Scratch → Scratch} :
    KeepsEvaluating coordinator attends s₀ (onScratch f) :=
  Keeps.modify fun _ hs => hs.scratch rfl rfl rfl

/-- A check of values fails for a value that is not finite. -/
lemma injectAndCheck_status {domain : InferenceDomain} {layer tensorId position : Nat}
    {values : List Word} {e : InferenceError}
    (h : injectAndCheck domain layer tensorId position values = some e) :
    e.status = .nonfiniteInput ∨ e.status = .nonfiniteOutput := by
  unfold injectAndCheck at h
  split at h
  · cases h
  · cases h
    dsimp only
    split
    · exact .inl rfl
    · exact .inr rfl

/-- A check of the scratch arena keeps the evaluation under way. -/
lemma keeps_check {domain : InferenceDomain} {layer tensorId : Nat}
    {values : Scratch → List Word} :
    KeepsEvaluating coordinator attends s₀ (check domain layer tensorId values) := by
  apply Keeps.lift
  intro s e _ he
  split at he
  · rename_i error herror
    cases he
    rcases injectAndCheck_status herror with h | h
    · exact fun _ => .inr (.inl h)
    · exact fun _ => .inr (.inr (.inl h))
  · cases he

/-- The check of the logits keeps the evaluation under way. -/
lemma keeps_checkLogits {domain : InferenceDomain} :
    KeepsEvaluating coordinator attends s₀ (checkLogits domain) := by
  apply Keeps.lift
  intro s e _ he
  split at he
  · rename_i error herror
    cases he
    rcases injectAndCheck_status herror with h | h
    · exact fun _ => .inr (.inl h)
    · exact fun _ => .inr (.inr (.inl h))
  · cases he

/-- A product keeps the evaluation under way. -/
lemma keeps_run {job : Scratch → MatvecJob} {store : (Nat → Word → Word) → Scratch → Scratch} :
    KeepsEvaluating coordinator attends s₀ (coordinator.run K job store) := by
  apply Keeps.modify
  intro s hs
  refine ⟨?_, hs.kv, hs.logits, ?_⟩
  · dsimp only
    rw [hs.engine]
  · obtain ⟨new, e, hnew⟩ := hs.runs
    refine ⟨new ++ [.matvec coordinator.backend (job s.engine.scratch).rows], ?_, ?_⟩
    · simp [e]
    · intro run hrun
      rcases List.mem_append.mp hrun with h | h
      · exact hnew run h
      · exact .inl ⟨_, List.mem_singleton.mp h⟩

/-- Computing the logits keeps the evaluation under way. -/
lemma keeps_runOutput {output : TensorView} :
    KeepsEvaluating coordinator attends s₀ (runOutput K coordinator output) := by
  apply Keeps.modify
  intro s hs
  refine ⟨hs.engine, hs.kv, ?_, ?_⟩
  · rw [List.length_mapIdx]
    exact hs.logits
  · obtain ⟨new, e, hnew⟩ := hs.runs
    refine ⟨new ++ [.matvec coordinator.backend logitWords], ?_, ?_⟩
    · simp [e]
    · intro run hrun
      rcases List.mem_append.mp hrun with h | h
      · exact hnew run h
      · exact .inl ⟨_, List.mem_singleton.mp h⟩

/-- Attention keeps an evaluation under way in which it may run. -/
lemma keeps_runAttention {layer : Nat} (ha : attends) :
    KeepsEvaluating coordinator attends s₀ (runAttention K layer) := by
  apply Keeps.modify
  intro s hs
  refine ⟨?_, hs.kv, hs.logits, ?_⟩
  · dsimp only
    rw [hs.engine]
  · obtain ⟨new, e, hnew⟩ := hs.runs
    refine ⟨new ++ [.attention s.engine.backend layer], ?_, ?_⟩
    · simp [e]
    · intro run hrun
      rcases List.mem_append.mp hrun with h | h
      · exact hnew run h
      · rw [hs.backend] at h
        exact .inr ⟨ha, _, List.mem_singleton.mp h⟩

/-- A KV store inside the context cannot fail, and touches its own position only. -/
lemma keeps_writeKv {layer : Nat} (hl : layer < layers) :
    KeepsEvaluating coordinator attends s₀ (writeKv layer) := by
  apply Keeps.bind
  · apply Keeps.lift
    intro s e hs he hp
    rw [writeKvError_eq_none hl (by rw [hs.position]; exact hp)] at he
    cases he
  · intro _
    apply Keeps.modify
    intro s hs
    refine ⟨?_, ?_, hs.logits, hs.runs⟩
    · dsimp only
      rw [hs.engine]
    · intro hp c hc
      dsimp only
      rw [hs.position, storeKv_of_ne hp (.inr hc)]
      exact hs.kv hp c hc

/-- Each part of an evaluation is a chain of primitives. -/
lemma keeps_evaluateQkv {layer : Nat} (hl : layer < layers) :
    KeepsEvaluating coordinator attends s₀ (evaluateQkv K coordinator layer) := by
  unfold evaluateQkv
  repeat first
    | with_reducible exact keeps_writeKv hl
    | refine Keeps.bind ?_ fun _ => ?_
    | exact keeps_onScratch
    | exact keeps_layerTensor
    | exact keeps_touchScratch
    | exact keeps_check
    | exact keeps_run
    | exact keeps_currentPosition

/-- The projection behind attention keeps the evaluation under way. -/
lemma keeps_projectAttention {layer : Nat} :
    KeepsEvaluating coordinator attends s₀ (projectAttention K coordinator layer) := by
  unfold projectAttention
  repeat first
    | refine Keeps.bind ?_ fun _ => ?_
    | exact keeps_onScratch
    | exact keeps_layerTensor
    | exact keeps_check
    | exact keeps_run

/-- The attention of a layer keeps the evaluation under way. -/
lemma keeps_evaluateAttention {layer : Nat} (ha : attends) :
    KeepsEvaluating coordinator attends s₀ (evaluateAttention K coordinator layer) :=
  Keeps.bind (keeps_runAttention ha) fun _ => keeps_projectAttention

/-- The feed-forward part of a layer keeps the evaluation under way. -/
lemma keeps_evaluateFeedForward {layer : Nat} :
    KeepsEvaluating coordinator attends s₀ (evaluateFeedForward K coordinator layer) := by
  unfold evaluateFeedForward
  repeat first
    | refine Keeps.bind ?_ fun _ => ?_
    | exact keeps_onScratch
    | exact keeps_layerTensor
    | exact keeps_check
    | exact keeps_run

/-- A layer keeps the evaluation under way. -/
lemma keeps_evaluateLayer {layer : Nat} (hl : layer < layers) (ha : attends) :
    KeepsEvaluating coordinator attends s₀ (evaluateLayer K coordinator layer) := by
  apply Keeps.bind (keeps_evaluateQkv hl)
  intro _
  apply Keeps.bind (keeps_evaluateAttention ha)
  intro _
  exact keeps_evaluateFeedForward

/-- The embedding keeps the evaluation under way. -/
lemma keeps_evaluateEmbedding {token : Token} :
    KeepsEvaluating coordinator attends s₀ (evaluateEmbedding K token) := by
  unfold evaluateEmbedding
  repeat first
    | refine Keeps.bind ?_ fun _ => ?_
    | exact keeps_engineTensor
    | exact keeps_touchScratch
    | exact keeps_onScratch
    | exact keeps_check

/-- The logits and their checks keep the evaluation under way. -/
lemma keeps_evaluateLogits :
    KeepsEvaluating coordinator attends s₀ (evaluateLogits K coordinator) := by
  unfold evaluateLogits
  repeat first
    | refine Keeps.bind ?_ fun _ => ?_
    | exact keeps_engineTensor
    | exact keeps_onScratch
    | exact keeps_check
    | exact keeps_runOutput
    | exact keeps_checkLogits

/-- Inside the context the position advances. -/
lemma checkedNextPosition_apply {s : Evaluation} (hp : s.engine.position < contextLimit) :
    checkedNextPosition s = (.ok (s.engine.position + 1), s) := by
  have lim : s.engine.position < 32768 := hp
  simp only [checkedNextPosition, lift_apply]
  rw [if_pos (by omega)]

/-- The check of the next position keeps the evaluation under way. -/
lemma keeps_checkedNextPosition :
    KeepsEvaluating coordinator attends s₀ checkedNextPosition := by
  apply Keeps.lift
  intro s e hs he hp
  have lim : s₀.engine.position < 32768 := hp
  rw [hs.position, if_pos (by omega)] at he
  cases he

/-- What a finished evaluation leaves. -/
structure Evaluated (s t : Evaluation) : Prop where
  engine : t.engine = { s.engine with
    kv := t.engine.kv
    scratch := .zero
    scratchHighWater := t.engine.scratchHighWater
    position := s.engine.position + 1
    kvHighWater := max s.engine.kvHighWater ((s.engine.position + 1) * kvWordsPerPosition * 4) }
  kv : ∀ c : KvCoord, c.position.val ≠ s.engine.position →
    t.engine.kv c.word = s.engine.kv c.word
  logits : t.logits.length = s.logits.length

/-- An evaluation that finishes has evaluated its token. -/
lemma Evaluating.finish {s t : Evaluation} (h : Evaluating coordinator attends s t)
    (hp : s.engine.position < contextLimit) :
    Evaluated s (finishEvaluation (s.engine.position + 1) t).2 := by
  refine ⟨?_, h.kv hp, h.logits⟩
  simp only [finishEvaluation, modify_apply]
  rw [h.engine]

/-- The end of an evaluation keeps it under way. -/
lemma keeps_evaluateOutput {produceLogits : Bool} :
    KeepsEvaluating coordinator attends s₀ (evaluateOutput K coordinator produceLogits) := by
  cases produceLogits
  · exact Keeps.pure
  · exact keeps_evaluateLogits

/-- The body keeps the evaluation under way. -/
lemma keeps_evaluateBody {token : Token} {produceLogits : Bool} (ha : attends) :
    KeepsEvaluating coordinator attends s₀ (evaluateBody K token produceLogits coordinator) := by
  unfold evaluateBody
  refine Keeps.bind keeps_evaluateEmbedding fun _ => ?_
  refine Keeps.bind (Keeps.forM fun _ hl => keeps_evaluateLayer (List.mem_range.mp hl) ha) fun _ => ?_
  refine Keeps.bind keeps_checkedNextPosition fun _ => ?_
  exact Keeps.bind keeps_evaluateOutput fun _ => Keeps.pure

/-- A finished body returns the position after its own. -/
lemma evaluateBody_next {token : Token} {produceLogits : Bool} {s t : Evaluation} {n : Nat}
    (hp : s.engine.position < contextLimit)
    (h : evaluateBody K token produceLogits coordinator s = (.ok n, t)) :
    n = s.engine.position + 1 := by
  unfold evaluateBody at h
  obtain ⟨_, s₁, h₁, h⟩ := bind_eq_ok h
  obtain ⟨_, s₂, h₂, h⟩ := bind_eq_ok h
  obtain ⟨m, s₃, h₃, h⟩ := bind_eq_ok h
  have k₁ : KeepsEvaluating coordinator True s (evaluateEmbedding K token) :=
    keeps_evaluateEmbedding
  have e₁ := (k₁ s (.refl s)).1
  rw [h₁] at e₁
  have k₂ : KeepsEvaluating coordinator True s
      ((List.range layers).forM (evaluateLayer K coordinator)) :=
    Keeps.forM fun _ hl => keeps_evaluateLayer (List.mem_range.mp hl) trivial
  have e₂ := (k₂ s₁ e₁).1
  rw [h₂] at e₂
  rw [checkedNextPosition_apply (by rw [e₂.position]; exact hp), e₂.position] at h₃
  cases h₃
  obtain ⟨_, s₄, h₄, hn⟩ := bind_eq_ok h
  cases hn
  rfl

/-- The specification of an evaluation inside the context. -/
lemma evaluateInner_spec {token : Token} {produceLogits : Bool} {s t : Evaluation}
    {r : Except InferenceError Unit} (hp : s.engine.position < contextLimit)
    (h : evaluateInner K token produceLogits coordinator s = (r, t)) :
    (r = .ok () ∧ Evaluated s t) ∨
      ∃ e, r = .error e ∧ evaluationError e ∧ Evaluating coordinator True s t := by
  have body : KeepsEvaluating coordinator True s (evaluateBody K token produceLogits coordinator) :=
    keeps_evaluateBody trivial
  obtain ⟨inv, err⟩ := body s (.refl s)
  unfold evaluateInner at h
  rcases hb : evaluateBody K token produceLogits coordinator s with ⟨e | n, u⟩ <;>
    rw [hb] at inv err
  · rw [bind_error hb] at h
    cases h
    exact .inr ⟨e, rfl, err e rfl hp, inv⟩
  · rw [bind_ok hb, evaluateBody_next hp hb] at h
    cases h
    exact .inl ⟨rfl, inv.finish hp⟩

/-- The specification of `evaluate` inside the context. -/
lemma evaluate_spec {token : Token} {produceLogits : Bool} {s t : Evaluation}
    {r : Except InferenceError Unit} (hp : s.engine.position < contextLimit)
    (h : evaluate K token produceLogits s = (r, t)) :
    (r = .ok () ∧ Evaluated s t) ∨
      ∃ e, r = .error e ∧ evaluationError e ∧ Evaluating s.engine.coordinator True s t := by
  rw [evaluate_eq] at h
  split at h
  · exact evaluateInner_spec hp h
  · cases h
    exact .inr ⟨_, rfl, .inr (.inr (.inr ⟨rfl, rfl⟩)), .refl s⟩

end Promptboot
