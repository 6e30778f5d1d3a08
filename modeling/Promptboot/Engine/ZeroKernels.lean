import Promptboot.Engine.Invariant

/-!
# Kernels that return zero

On `zeroKernels` no check of an evaluation can fail, so every call that passes its own checks
succeeds: the invariant is that the scratch arena and the logits stay zero. The hypotheses of the
engine's theorems are met by whole runs on them.

The `blank_` lemmas go up from the primitives as in the specification of an evaluation, and each
method has its own (`prefill_zero`, `prefillWithPrefix_zero`, `appendPrefill_zero`,
`decodeSelected_zero`). The headline `engine_invariant_decode` is a run with a decode in it.
-/

namespace Promptboot
open Fallible

/-- The scratch and the logits of an evaluation that has only met zeros. -/
structure Blank (s : Evaluation) : Prop where
  scratch : s.engine.scratch = .zero
  logits : s.logits = List.replicate logitWords 0
  context : s.engine.position < contextLimit

abbrev KeepsBlank {α : Type} (c : EngineM α) : Prop := Keeps Blank (fun _ => False) c

variable {coordinator : TokenCoordinator} {layer id role stop : Nat} {domain : InferenceDomain}

/-- Zeros pass the check. -/
lemma injectAndCheck_replicate {position tensorId n : Nat} :
    injectAndCheck domain layer tensorId position (List.replicate n 0) = none := by
  unfold injectAndCheck
  rw [List.find?_eq_none.mpr]
  rintro ⟨bits, index⟩ h
  obtain ⟨_, _, bits_eq⟩ := List.mem_zipIdx h
  rw [bits_eq, List.getElem_replicate]
  show ¬(!finite 0) = true
  decide

/-- A lookup in the blank model succeeds. -/
lemma blank_engineTensor (h : id < tensorCount) : KeepsBlank (engineTensor id domain layer) := by
  apply Keeps.lift
  intro s e _ he
  obtain ⟨view, ok⟩ := s.engine.model.tensor_isOk h
  rw [ok] at he
  cases he

/-- A lookup in a layer of the blank model succeeds. -/
lemma blank_layerTensor (hl : layer < layers) (hr : 10 ≤ role ∧ role ≤ 21) :
    KeepsBlank (layerTensor layer role domain) := by
  apply Keeps.lift
  intro s e _ he
  obtain ⟨view, ok⟩ := s.engine.model.tensorFor_isOk hl hr
  rw [ok] at he
  cases he

/-- Reaching for the scratch arena succeeds. -/
lemma blank_touchScratch : KeepsBlank (touchScratch stop) :=
  Keeps.modify fun _ h => ⟨h.scratch, h.logits, h.context⟩

/-- Reading the position succeeds. -/
lemma blank_currentPosition : KeepsBlank currentPosition := by
  apply Keeps.lift
  intro s e _ he
  cases he

/-- A change that keeps zeros succeeds. -/
lemma blank_onScratch {f : Scratch → Scratch} (hf : f .zero = .zero) : KeepsBlank (onScratch f) := by
  apply Keeps.modify
  intro s h
  refine ⟨?_, h.logits, h.context⟩
  dsimp only
  rw [h.scratch, hf]

/-- A check of zeros succeeds. -/
lemma blank_check {tensorId n : Nat} {values : Scratch → List Word}
    (h : values .zero = List.replicate n 0) : KeepsBlank (check domain layer tensorId values) := by
  apply Keeps.lift
  intro s e hs he
  rw [hs.scratch, h, injectAndCheck_replicate] at he
  cases he

/-- A product of zero rows leaves a zero region zero. -/
lemma zero_row {job : MatvecJob} {backend : InferenceBackend} {row stop : Nat} :
    runMatvecRows zeroKernels job backend 0 stop (fun _ => 0) row = 0 := by
  unfold runMatvecRows
  by_cases h : row ∈ List.range' 0 (stop - 0)
  · apply Memory.writeAll_of_mem ⟨row, h, rfl⟩
    intro i _ _
    unfold MatvecJob.row
    split <;> rfl
  · rw [Memory.writeAll_of_ne]
    rintro i hi rfl
    exact h hi

/-- Zeros mapped to zeros. -/
lemma zero_mapIdx {n : Nat} {out : Nat → Word → Word} (h : ∀ row, out row 0 = 0) :
    (Vector.replicate n 0).mapIdx out = Vector.replicate n 0 := by
  ext row hrow
  simp [h]

/-- A product over zero kernels is zero. -/
lemma blank_run {job : Scratch → MatvecJob} {store : (Nat → Word → Word) → Scratch → Scratch}
    (h : ∀ out : Nat → Word → Word, (∀ row, out row 0 = 0) → store out .zero = .zero) :
    KeepsBlank (coordinator.run zeroKernels job store) := by
  apply Keeps.modify
  intro s hs
  refine ⟨?_, hs.logits, hs.context⟩
  dsimp only
  rw [hs.scratch]
  exact h _ fun _ => zero_row

/-- A store of zeros succeeds. -/
lemma blank_writeKv (hl : layer < layers) : KeepsBlank (writeKv layer) := by
  apply Keeps.bind
  · apply Keeps.lift
    intro s e hs he
    rw [writeKvError_eq_none hl hs.context] at he
    cases he
  · intro _
    exact Keeps.modify fun _ hs => ⟨hs.scratch, hs.logits, hs.context⟩

/-- Attention over zero kernels is zero. -/
lemma blank_runAttention : KeepsBlank (runAttention zeroKernels layer) := by
  apply Keeps.modify
  intro s hs
  refine ⟨?_, hs.logits, hs.context⟩
  dsimp only
  rw [hs.scratch]
  rfl

/-- The first part of a layer succeeds on zeros. -/
lemma blank_evaluateQkv (hl : layer < layers) :
    KeepsBlank (evaluateQkv zeroKernels coordinator layer) := by
  unfold evaluateQkv
  repeat first
    | with_reducible exact blank_writeKv hl
    | refine Keeps.bind ?_ fun _ => ?_
    | exact blank_onScratch rfl
    | exact blank_layerTensor hl (by decide)
    | exact blank_touchScratch
    | exact blank_currentPosition
    | exact blank_run fun out h => by simp only [Scratch.zero, zero_mapIdx h]
    | exact blank_check Vector.toList_replicate

/-- The attention of a layer succeeds on zeros. -/
lemma blank_evaluateAttention (hl : layer < layers) :
    KeepsBlank (evaluateAttention zeroKernels coordinator layer) := by
  unfold evaluateAttention projectAttention
  repeat first
    | refine Keeps.bind ?_ fun _ => ?_
    | exact blank_runAttention
    | exact blank_onScratch rfl
    | exact blank_layerTensor hl (by decide)
    | exact blank_run fun out h => by simp only [Scratch.zero, zero_mapIdx h]
    | exact blank_check Vector.toList_replicate

/-- The feed-forward part of a layer succeeds on zeros. -/
lemma blank_evaluateFeedForward (hl : layer < layers) :
    KeepsBlank (evaluateFeedForward zeroKernels coordinator layer) := by
  unfold evaluateFeedForward
  repeat first
    | refine Keeps.bind ?_ fun _ => ?_
    | exact blank_onScratch rfl
    | exact blank_layerTensor hl (by decide)
    | exact blank_run fun out h => by simp only [Scratch.zero, zero_mapIdx h]
    | exact blank_check Vector.toList_replicate

/-- All layers succeed on zeros. -/
lemma blank_evaluateLayers :
    KeepsBlank ((List.range layers).forM (evaluateLayer zeroKernels coordinator)) := by
  apply Keeps.forM
  intro layer hl
  have hl : layer < layers := List.mem_range.mp hl
  refine Keeps.bind (blank_evaluateQkv hl) fun _ => ?_
  refine Keeps.bind (blank_evaluateAttention hl) fun _ => ?_
  exact blank_evaluateFeedForward hl

/-- The embedding succeeds on zeros. -/
lemma blank_evaluateEmbedding {token : Token} : KeepsBlank (evaluateEmbedding zeroKernels token) := by
  unfold evaluateEmbedding
  repeat first
    | refine Keeps.bind ?_ fun _ => ?_
    | exact blank_onScratch rfl
    | exact blank_engineTensor (by decide)
    | exact blank_touchScratch
    | exact blank_check Vector.toList_replicate

/-- The logits over zero kernels are zero. -/
lemma blank_runOutput {output : TensorView} :
    KeepsBlank (runOutput zeroKernels coordinator output) := by
  apply Keeps.modify
  intro s hs
  refine ⟨hs.scratch, ?_, hs.context⟩
  dsimp only
  rw [hs.logits]
  apply List.ext_getElem
  · simp
  · intro row _ _
    simp only [List.getElem_mapIdx, List.getElem_replicate, zero_row]

/-- The check of zero logits succeeds. -/
lemma blank_checkLogits : KeepsBlank (checkLogits domain) := by
  apply Keeps.lift
  intro s e hs he
  rw [hs.logits, injectAndCheck_replicate] at he
  cases he

/-- The end of an evaluation succeeds on zeros. -/
lemma blank_evaluateOutput {produceLogits : Bool} :
    KeepsBlank (evaluateOutput zeroKernels coordinator produceLogits) := by
  cases produceLogits
  · exact Keeps.pure
  unfold evaluateOutput evaluateLogits
  rw [if_pos rfl]
  repeat first
    | refine Keeps.bind ?_ fun _ => ?_
    | exact blank_onScratch rfl
    | exact blank_engineTensor (by decide)
    | exact blank_runOutput
    | exact blank_checkLogits
    | exact blank_check Vector.toList_replicate

/-- The check of the next position succeeds. -/
lemma blank_checkedNextPosition : KeepsBlank checkedNextPosition := by
  apply Keeps.lift
  intro s e hs he
  have lim : s.engine.position < 32768 := hs.context
  rw [if_pos (by omega)] at he
  cases he

/-- The body of an evaluation succeeds on zeros. -/
lemma blank_evaluateBody {token : Token} {produceLogits : Bool} :
    KeepsBlank (evaluateBody zeroKernels token produceLogits coordinator) := by
  unfold evaluateBody
  refine Keeps.bind blank_evaluateEmbedding fun _ => ?_
  refine Keeps.bind blank_evaluateLayers fun _ => ?_
  refine Keeps.bind blank_checkedNextPosition fun _ => ?_
  exact Keeps.bind blank_evaluateOutput fun _ => Keeps.pure

/-- Every token the callback runs is evaluated, with zero logits. -/
lemma evaluate_zero {token : Token} (produceLogits : Bool) {s : Evaluation} (h : Blank s)
    (dispatches : s.engine.dispatches token = true) :
    ∃ t, evaluate zeroKernels token produceLogits s = (.ok (), t) ∧ t.engine.scratch = .zero ∧
      t.logits = List.replicate logitWords 0 := by
  rw [evaluate_eq, if_pos dispatches]
  have body : KeepsBlank (evaluateBody zeroKernels token produceLogits s.engine.coordinator) :=
    blank_evaluateBody
  obtain ⟨blank, ok⟩ := body s h
  unfold evaluateInner
  rcases hb : evaluateBody zeroKernels token produceLogits s.engine.coordinator s with ⟨e | n, t⟩ <;>
    rw [hb] at blank ok
  · exact (ok e rfl).elim
  · rw [bind_ok hb]
    exact ⟨_, rfl, rfl, blank.logits⟩

/-- A clear logits buffer. -/
def zeroLogits : List Word := List.replicate logitWords 0

/-- The zero logits have the vocabulary's length. -/
lemma zeroLogits_length : zeroLogits.length = logitWords := List.length_replicate

/-- A serial engine between calls, with a clear logits buffer. -/
structure Ready (s : Evaluation) : Prop where
  scratch : s.engine.scratch = .zero
  logits : s.logits = zeroLogits
  serial : s.engine.dispatcher = none

/-- A ready engine has a product for every token. -/
lemma Ready.dispatches {s : Evaluation} (h : Ready s) (token : Token) :
    s.engine.dispatches token = true := by
  unfold InferenceEngine.dispatches
  rw [h.serial]

/-- Tokens that fit are evaluated one after another. -/
lemma evaluateAll_zero {β : Type} {token : β → Token} {produceLogits : β → Bool} {l : List β}
    {s : Evaluation} (h : Ready s) (context : s.engine.position + l.length ≤ contextLimit) :
    ∃ t, l.forM (fun b => evaluate zeroKernels (token b) (produceLogits b)) s = (.ok (), t) ∧
      Ready t := by
  induction l generalizing s with
  | nil => exact ⟨s, rfl, h⟩
  | cons b l ih =>
    rw [List.length_cons] at context
    have blank : Blank s := ⟨h.scratch, h.logits, by omega⟩
    obtain ⟨t, run, scratch, logits⟩ :=
      evaluate_zero (produceLogits b) blank (h.dispatches (token b))
    rcases evaluate_spec blank.context run with ⟨_, moved⟩ | ⟨_, bad, _⟩
    · have serial : t.engine.dispatcher = none := by rw [moved.engine, h.serial]
      have position : t.engine.position = s.engine.position + 1 := by rw [moved.engine]
      rw [forM_cons, bind_ok run]
      exact ih ⟨scratch, logits, serial⟩ (by omega)
    · cases bad

/-- A step is published from zero logits. -/
lemma publishStep_zero {s : Evaluation} (logits : s.logits = zeroLogits) :
    ∃ step t, publishStep zeroKernels s = (.ok step, t) := by
  unfold publishStep
  rw [logits, zeroLogits, injectAndCheck_replicate]
  exact ⟨_, _, rfl⟩

/-- A prefill that passes its checks succeeds. -/
lemma prefillInner_zero {promptTokens : List Token} {reserve : Nat} {append : Bool} {s : Evaluation}
    (h : Ready s)
    (checks : s.engine.prefillRejection promptTokens reserve s.logits.length append = none) :
    ∃ step t, prefillInner zeroKernels promptTokens reserve append s = (.ok step, t) := by
  obtain ⟨_, _, room, _⟩ := prefillRejection_eq_none.mp checks
  have ready : Ready { s with
    engine := { s.engine with generationReserve := reserve, predictionsEmitted := 0 } } :=
    ⟨h.scratch, h.logits, h.serial⟩
  have evaluated : ∃ t, evaluatePrompt zeroKernels promptTokens { s with
      engine := { s.engine with generationReserve := reserve, predictionsEmitted := 0 } } =
      (.ok (), t) ∧ Ready t :=
    evaluateAll_zero ready (by rw [List.length_zipIdx]; dsimp only; omega)
  obtain ⟨t, run, after⟩ := evaluated
  unfold prefillInner accepting
  rw [checks]
  unfold prefillAccepted
  rw [bind_ok (modify_apply _ _)]
  have stored : onError (evaluatePrompt zeroKernels promptTokens) (fun _ => fault) { s with
      engine := { s.engine with generationReserve := reserve, predictionsEmitted := 0 } } =
      (.ok (), t) := by
    rw [onError, run]
  rw [bind_ok stored, bind_ok (modify_apply _ _)]
  exact publishStep_zero after.logits

/-- A fresh prefill that passes its checks is accepted. -/
lemma prefill_zero {promptTokens : List Token} {reserve : Nat} {s : Evaluation} (h : Ready s)
    (checks : s.engine.freshRejection promptTokens reserve logitWords = none) :
    ∃ step t, prefill zeroKernels promptTokens reserve s = (.ok step, t) ∧
      Accepted promptTokens.length reserve 1 s t := by
  obtain ⟨state, inner⟩ := freshRejection_eq_none.mp checks
  have length : s.logits.length = logitWords := by rw [h.logits, zeroLogits_length]
  obtain ⟨step, t, run⟩ := prefillInner_zero h (by rw [length]; exact inner)
  have whole : prefill zeroKernels promptTokens reserve s = (.ok step, t) := by
    unfold prefill
    rw [state]
    exact run
  refine ⟨step, t, whole, ?_⟩
  cases prefill_settles h.scratch whole with
  | accepted _ done => exact done

/-- A prefill with a prefix that passes its checks is accepted. -/
lemma prefillWithPrefix_zero {promptTokens : List Token} {prefixTokens reserve : Nat}
    {s : Evaluation} (h : Ready s) (empty : s.engine.retainedPrefix.len = 0)
    (valid : ¬(prefixTokens = 0 ∨ promptTokens.length ≤ prefixTokens ∨ maxTokens < prefixTokens))
    (checks : s.engine.freshRejection promptTokens reserve logitWords = none) :
    ∃ step t, prefillWithPrefix zeroKernels promptTokens prefixTokens reserve s =
        (.ok step, { t with
          engine := { t.engine with retainedPrefix := .of promptTokens prefixTokens } }) ∧
      Accepted promptTokens.length reserve 1 s t := by
  obtain ⟨step, t, run, done⟩ := prefill_zero h checks
  refine ⟨step, t, ?_, done⟩
  unfold prefillWithPrefix prefillRetaining
  dsimp only
  rw [if_neg valid, if_pos empty, bind_ok run, bind_ok (modify_apply _ _)]
  rfl

/-- An append that passes its checks succeeds. -/
lemma appendPrefill_zero {promptTokens : List Token} {reserve : Nat} {s : Evaluation} (h : Ready s)
    (state : s.engine.state = .ready ∨ s.engine.state = .eos)
    (checks : s.engine.prefillRejection promptTokens reserve logitWords true = none) :
    ∃ step t, appendPrefill zeroKernels promptTokens reserve s = (.ok step, t) ∧
      Accepted promptTokens.length reserve 1 s t := by
  have length : s.logits.length = logitWords := by rw [h.logits, zeroLogits_length]
  obtain ⟨step, t, run⟩ := prefillInner_zero h (by rw [length]; exact checks)
  have whole : appendPrefill zeroKernels promptTokens reserve s = (.ok step, t) := by
    unfold appendPrefill
    rcases state with state | state <;> rw [state] <;> exact run
  refine ⟨step, t, whole, ?_⟩
  cases appendPrefill_settles h.scratch whole with
  | accepted _ done => exact done

/-- A decode that passes its checks succeeds. -/
lemma decodeSelected_zero {token : Token} {s : Evaluation} (h : Ready s)
    (context : s.engine.position < contextLimit)
    (checks : s.engine.decodeRejection token logitWords false = none) :
    ∃ step t, decodeSelected zeroKernels token s = (.ok step, t) ∧
      Accepted 1 s.engine.generationReserve (s.engine.predictionsEmitted + 1) s t := by
  have length : s.logits.length = logitWords := by rw [h.logits, zeroLogits_length]
  obtain ⟨t, run, scratch, logits⟩ :=
    evaluate_zero true ⟨h.scratch, h.logits, context⟩ (h.dispatches token)
  have stored : onError (evaluate zeroKernels token true) (fun _ => fault) s = (.ok (), t) := by
    rw [onError, run]
  obtain ⟨step, u, published⟩ : ∃ step u, publishStep zeroKernels { t with
      engine := { t.engine with predictionsEmitted := t.engine.predictionsEmitted + 1 } } =
        (.ok step, u) := publishStep_zero logits
  have whole : decodeSelected zeroKernels token s = (.ok step, u) := by
    unfold decodeSelected decodeInner accepting
    rw [length, checks]
    unfold decodeAccepted
    rw [bind_ok stored, bind_ok (modify_apply _ _)]
    exact published
  refine ⟨step, u, whole, ?_⟩
  cases decodeInner_settles whole with
  | accepted _ done => exact done

/-- A prefill of two tokens and a decode of a third, with a reserve of two predictions. -/
def decodeThird (logits : List Word) : List (Kernels × EngineOp) :=
  [(zeroKernels, .prefill [0, 1] 2 logits), (zeroKernels, .decodeSelected 2 logits)]

/-- What a decode of a token of the vocabulary is checked for on an engine between predictions. -/
lemma decodeRejection_of_live {engine : InferenceEngine} {token : Token}
    (state : engine.state = .ready ∨ engine.state = .eos) (inside : token.toNat < vocabCount)
    (context : engine.position < contextLimit) :
    engine.decodeRejection token logitWords false =
      if engine.generationReserve ≤ engine.predictionsEmitted then
        some ⟨.context, .prompt, noLayer, engine.position, noTensor, engine.generationReserve,
          engine.predictionsEmitted, .reserve, 1⟩
      else none := by
  unfold InferenceEngine.decodeRejection
  rw [if_neg (by rcases state with state | state <;> rw [state] <;> decide), if_neg (by simp),
    if_neg (by rcases state with state | state <;> rw [state] <;> decide),
    if_neg (Nat.not_le.mpr inside), if_neg (by simp), if_neg (Nat.not_le.mpr context),
    logitsError_eq_none.mpr rfl]

/-- Both calls succeed, and a further decode is rejected for the reserve. -/
lemma decodeThird_runs {logits : List Word} (zero : logits = zeroLogits) :
    (runOps blankEngine (decodeThird logits)).position = 3 ∧
      ∃ e, EngineOp.rejection (runOps blankEngine (decodeThird logits))
        (.decodeSelected 3 logits) = some e := by
  have length : logits.length = logitWords := by rw [zero, zeroLogits_length]
  have ready : Ready ⟨blankEngine, logits, []⟩ := ⟨rfl, zero, rfl⟩
  have checks : blankEngine.freshRejection [0, 1] 2 logitWords = none :=
    freshRejection_eq_none.mpr ⟨rfl, prefillRejection_eq_none.mpr
      ⟨Nat.le_succ 1, by simp, by decide, rfl, by simp [vocabCount]⟩⟩
  obtain ⟨step, t, prefilled, first⟩ := prefill_zero ready checks
  have position : t.engine.position = 2 := by rw [first.engine]; rfl
  have reserve : t.engine.generationReserve = 2 := by rw [first.engine]
  have emitted : t.engine.predictionsEmitted = 1 := by rw [first.engine]
  have ready' : Ready ⟨t.engine, logits, []⟩ :=
    ⟨by rw [first.engine], zero, by rw [first.engine]; rfl⟩
  have checks' : t.engine.decodeRejection 2 logitWords false = none := by
    rw [decodeRejection_of_live first.state (by decide) (by rw [position]; decide), reserve, emitted]
    rfl
  obtain ⟨step', u, decoded, second⟩ :=
    decodeSelected_zero ready' (by rw [position]; decide) checks'
  have firstCall : (EngineOp.call zeroKernels blankEngine (.prefill [0, 1] 2 logits)).2.engine =
      t.engine := by
    rw [EngineOp.call, outcome, prefilled]
  have secondCall : (EngineOp.call zeroKernels t.engine (.decodeSelected 2 logits)).2.engine =
      u.engine := by
    rw [EngineOp.call, outcome, decoded]
  have run : runOps blankEngine (decodeThird logits) = u.engine := by
    rw [runOps, decodeThird, List.foldl_cons, List.foldl_cons, List.foldl_nil]
    dsimp only
    rw [firstCall, secondCall]
  have reserve' : u.engine.generationReserve = 2 := by rw [second.engine, reserve]
  have emitted' : u.engine.predictionsEmitted = 2 := by rw [second.engine, emitted]
  have position' : u.engine.position = 3 := by rw [second.engine, position]
  have rejected : ∃ e, u.engine.decodeRejection 3 logitWords false = some e :=
    ⟨_, by rw [decodeRejection_of_live second.state (by decide) (by rw [position']; decide),
      if_pos (by omega)]⟩
  rw [run]
  refine ⟨position', ?_⟩
  rw [EngineOp.rejection, length]
  exact rejected

/-- A prefill and a decode that succeed, and a decode that is rejected, keep the invariant. -/
theorem engine_invariant_decode :
    (runOps blankEngine (decodeThird zeroLogits)).position = 3 ∧
      (runOps blankEngine (decodeThird zeroLogits)).Invariant ∧
      (∃ e, (EngineOp.call zeroKernels (runOps blankEngine (decodeThird zeroLogits))
        (.decodeSelected 3 zeroLogits)).1 = some e ∧ ¬e.IsRange) ∧
      (EngineOp.call zeroKernels (runOps blankEngine (decodeThird zeroLogits))
        (.decodeSelected 3 zeroLogits)).2.engine = runOps blankEngine (decodeThird zeroLogits) := by
  obtain ⟨position, e, rejection⟩ := decodeThird_runs rfl
  obtain ⟨inv, spec, noRange⟩ :=
    engine_invariant build_blank (decodeThird zeroLogits) zeroKernels (.decodeSelected 3 zeroLogits)
  obtain ⟨error, keeps, -⟩ := spec.rejected e rejection
  exact ⟨position, inv, ⟨e, error, noRange e error⟩, keeps⟩

end Promptboot
