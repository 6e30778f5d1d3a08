import Promptboot.Engine.EvaluateSpec

/-!
# What an evaluation depends on

The relational half of the specification. `SameView` relates two evaluations of one token at one
position that see the same KV rows below it, whatever else their caches, counters and logits hold;
every part of an evaluation gives both one outcome, and the layer loop adds the row of the position
itself, layer by layer. `SameRows` is the relation between whole evaluations that comes out, and
`evaluate_agrees` its step.

The `agrees_` lemmas go up from the primitives: `agrees_run` for a product, `agrees_runAttention`
for the kernel that reads the cache, `agrees_evaluateLayer` for the step of the layer loop and
`agrees_evaluateBody` for the loop. The only place where the two caches are compared is
`SameView.liveKv`.
-/

namespace Promptboot
open Fallible

/-- Two evaluations that cannot be told apart before layer `l`: their caches agree below the
position, and at the position on the layers already stored. -/
structure SameView (l : Nat) (s t : Evaluation) : Prop where
  model : s.engine.model = t.engine.model
  backend : s.engine.backend = t.engine.backend
  position : s.engine.position = t.engine.position
  context : s.engine.position < contextLimit
  scratch : s.engine.scratch = t.engine.scratch
  logits : s.logits.length = logitWords ∧ t.logits.length = logitWords
  kv : ∀ c : KvCoord, c.position.val < s.engine.position ∨
    (c.position.val = s.engine.position ∧ c.layer.val < l) →
    s.engine.kv c.word = t.engine.kv c.word

section Primitives

variable {K : Kernels} {coordinator : TokenCoordinator} {l layer id role tensorId stop : Nat}
  {domain : InferenceDomain}

abbrev AgreesAt (l : Nat) {α : Type} (c : EngineM α) : Prop :=
  Agrees (SameView l) c (SameView l)

/-- A step that keeps the view is followed by anything that starts from it. -/
lemma AgreesAt.bind {α β : Type} {c : EngineM α} {f : α → EngineM β}
    {S : Evaluation → Evaluation → Prop} (hc : AgreesAt l c)
    (hf : ∀ a, Agrees (SameView l) (f a) S) : Agrees (SameView l) (c >>= f) S :=
  Agrees.bind hc hf

/-- A lookup keeps the agreement. -/
lemma agrees_engineTensor : AgreesAt l (engineTensor id domain layer) := by
  refine Agrees.lift ?_ fun _ _ h => h
  intro s t h
  rw [h.model, h.position]

/-- A lookup in a layer keeps the agreement. -/
lemma agrees_layerTensor : AgreesAt l (layerTensor layer role domain) := by
  refine Agrees.lift ?_ fun _ _ h => h
  intro s t h
  rw [h.model, h.position]

/-- Reading the position keeps the agreement. -/
lemma agrees_currentPosition : AgreesAt l currentPosition := by
  refine Agrees.lift ?_ fun _ _ h => h
  intro s t h
  rw [h.position]

/-- Reaching for the scratch arena keeps the agreement. -/
lemma agrees_touchScratch : AgreesAt l (touchScratch stop) :=
  Agrees.modify fun _ _ h => ⟨h.model, h.backend, h.position, h.context, h.scratch, h.logits, h.kv⟩

/-- A change of the scratch arena keeps the agreement. -/
lemma agrees_onScratch {f : Scratch → Scratch} : AgreesAt l (onScratch f) := by
  apply Agrees.modify
  intro s t h
  refine ⟨h.model, h.backend, h.position, h.context, ?_, h.logits, h.kv⟩
  dsimp only
  rw [h.scratch]

/-- A check of the scratch arena keeps the agreement. -/
lemma agrees_check {values : Scratch → List Word} :
    AgreesAt l (check domain layer tensorId values) := by
  refine Agrees.lift ?_ fun _ _ h => h
  intro s t h
  rw [h.scratch, h.position]

/-- A product keeps the agreement. -/
lemma agrees_run {job : Scratch → MatvecJob} {store : (Nat → Word → Word) → Scratch → Scratch} :
    AgreesAt l (coordinator.run K job store) := by
  apply Agrees.modify
  intro s t h
  refine ⟨h.model, h.backend, h.position, h.context, ?_, h.logits, h.kv⟩
  dsimp only
  rw [h.scratch]

/-- Below a layer already stored, attention sees one list of keys and values. -/
lemma SameView.liveKv {s t : Evaluation} (h : SameView l s t) (hl : layer < l)
    (hlayers : layer < layers) :
    liveKv s.engine.kv layer s.engine.position = liveKv t.engine.kv layer s.engine.position := by
  apply List.map_congr_left
  intro p hp
  have hp : p < s.engine.position + 1 := List.mem_range.mp hp
  have words : ∀ (kind : Fin 2) (i : Fin kvRowWords),
      s.engine.kv (kvWord layer kind p (i / headWords) (i % headWords)) =
        t.engine.kv (kvWord layer kind p (i / headWords) (i % headWords)) := by
    intro kind i
    have hi : i.val < 128 := i.isLt
    have head : i.val / headWords < kvHeads := by
      unfold headWords kvHeads
      omega
    exact h.kv ⟨⟨layer, hlayers⟩, kind, ⟨p, by have := h.context; omega⟩, ⟨_, head⟩,
      ⟨i % headWords, Nat.mod_lt _ (by decide)⟩⟩ (by dsimp only; omega)
  unfold kvPair
  congr 2
  · funext i
    exact words 0 i
  · funext i
    exact words 1 i

/-- Attention reads the rows of its own layer, which agree. -/
lemma agrees_runAttention (hlayer : layer < layers) :
    AgreesAt (layer + 1) (runAttention K layer) := by
  apply Agrees.modify
  intro s t h
  refine ⟨h.model, h.backend, h.position, h.context, ?_, h.logits, h.kv⟩
  dsimp only
  rw [h.backend, h.scratch, h.liveKv (Nat.lt_succ_self _) hlayer, h.position]

/-- A KV store completes the row of its layer. -/
lemma agrees_writeKv :
    Agrees (SameView layer) (writeKv layer) (SameView (layer + 1)) := by
  refine Agrees.bind (Agrees.lift (S := SameView layer) ?_ fun _ _ h => h) fun _ => ?_
  · intro s t h
    rw [h.position]
  apply Agrees.modify
  intro s t h
  refine ⟨h.model, h.backend, h.position, h.context, h.scratch, h.logits, ?_⟩
  intro c hc
  dsimp only at hc ⊢
  rw [← h.position, h.scratch]
  by_cases here : c.position.val = s.engine.position ∧ c.layer.val = layer
  · exact storeKv_self h.context here.2 here.1
  · rw [storeKv_of_ne h.context (by omega), storeKv_of_ne h.context (by omega)]
    exact h.kv c (by omega)

end Primitives

section Parts

variable {K : Kernels} {coordinator : TokenCoordinator} {l layer : Nat}

/-- Behind its store a layer's rows agree too. -/
lemma agrees_evaluateQkv :
    Agrees (SameView layer) (evaluateQkv K coordinator layer) (SameView (layer + 1)) := by
  unfold evaluateQkv
  repeat first
    | exact agrees_writeKv
    | refine AgreesAt.bind ?_ fun _ => ?_
    | exact agrees_onScratch
    | exact agrees_layerTensor
    | exact agrees_touchScratch
    | exact agrees_check
    | exact agrees_run
    | exact agrees_currentPosition

/-- The attention of a layer keeps the agreement. -/
lemma agrees_evaluateAttention (hlayer : layer < layers) :
    AgreesAt (layer + 1) (evaluateAttention K coordinator layer) := by
  unfold evaluateAttention projectAttention
  repeat first
    | exact agrees_runAttention hlayer
    | refine AgreesAt.bind ?_ fun _ => ?_
    | exact agrees_onScratch
    | exact agrees_layerTensor
    | exact agrees_check
    | exact agrees_run

/-- The feed-forward part of a layer keeps the agreement. -/
lemma agrees_evaluateFeedForward : AgreesAt l (evaluateFeedForward K coordinator layer) := by
  unfold evaluateFeedForward
  repeat first
    | refine AgreesAt.bind ?_ fun _ => ?_
    | exact agrees_onScratch
    | exact agrees_layerTensor
    | exact agrees_check
    | exact agrees_run

/-- A decoder layer extends the common view by the row it stores. -/
lemma agrees_evaluateLayer (hlayer : layer < layers) :
    Agrees (SameView layer) (evaluateLayer K coordinator layer) (SameView (layer + 1)) := by
  unfold evaluateLayer
  refine Agrees.bind agrees_evaluateQkv fun _ => ?_
  refine AgreesAt.bind (agrees_evaluateAttention hlayer) fun _ => ?_
  exact agrees_evaluateFeedForward

/-- The embedding keeps the agreement. -/
lemma agrees_evaluateEmbedding {token : Token} : AgreesAt l (evaluateEmbedding K token) := by
  unfold evaluateEmbedding
  repeat first
    | refine AgreesAt.bind ?_ fun _ => ?_
    | exact agrees_onScratch
    | exact agrees_engineTensor
    | exact agrees_touchScratch
    | exact agrees_check

/-- The check of the next position keeps the agreement. -/
lemma agrees_checkedNextPosition : AgreesAt l checkedNextPosition := by
  refine Agrees.lift ?_ fun _ _ h => h
  intro s t h
  rw [h.position]

/-- After the output product the logits agree as well. -/
structure SameOutput (s t : Evaluation) : Prop extends SameView layers s t where
  values : s.logits = t.logits

/-- The logits agree. -/
lemma agrees_runOutput {output : TensorView} :
    Agrees (SameView layers) (runOutput K coordinator output) SameOutput := by
  apply Agrees.modify
  intro s t h
  obtain ⟨hs, ht⟩ := h.logits
  refine ⟨⟨h.model, h.backend, h.position, h.context, h.scratch, ?_, h.kv⟩, ?_⟩
  · simpa using h.logits
  · apply List.ext_getElem
    · simp [hs, ht]
    · intro row hrow _
      rw [List.length_mapIdx, hs] at hrow
      simp only [List.getElem_mapIdx, h.scratch]
      rw [runMatvecRows_of_lt hrow, runMatvecRows_of_lt hrow]

/-- The check of the logits keeps their agreement. -/
lemma agrees_checkLogits {domain : InferenceDomain} :
    Agrees SameOutput (checkLogits domain) SameOutput := by
  refine Agrees.lift ?_ fun _ _ h => h
  intro s t h
  rw [h.values, h.position]

/-- The checked logits agree. -/
lemma agrees_evaluateLogits :
    Agrees (SameView layers) (evaluateLogits K coordinator) SameOutput := by
  unfold evaluateLogits
  repeat first
    | exact Agrees.bind agrees_runOutput fun _ => agrees_checkLogits
    | refine AgreesAt.bind ?_ fun _ => ?_
    | exact agrees_engineTensor
    | exact agrees_onScratch
    | exact agrees_check

/-- What an evaluation that was asked for logits, or was not, leaves in common. -/
def SameAfter (produceLogits : Bool) (s t : Evaluation) : Prop :=
  SameView layers s t ∧ (produceLogits → s.logits = t.logits)

/-- The body of an evaluation takes agreeing rows to agreeing rows and logits. -/
lemma agrees_evaluateBody {token : Token} {produceLogits : Bool} :
    Agrees (SameView 0) (evaluateBody K token produceLogits coordinator)
      (SameAfter produceLogits) := by
  unfold evaluateBody
  refine AgreesAt.bind agrees_evaluateEmbedding fun _ => ?_
  refine Agrees.bind (Agrees.forM_range fun _ h => agrees_evaluateLayer h) fun _ => ?_
  refine AgreesAt.bind agrees_checkedNextPosition fun _ => ?_
  refine Agrees.bind ?_ fun _ => Agrees.pure fun _ _ h => h
  cases produceLogits
  · exact Agrees.pure fun _ _ h => ⟨h, nofun⟩
  · exact agrees_evaluateLogits.conseq (fun _ _ h => h) fun _ _ h => ⟨h.toSameView, fun _ => h.values⟩

end Parts

/-- Two engines between evaluations that hold the same KV rows. -/
structure SameRows (s t : Evaluation) : Prop where
  model : s.engine.model = t.engine.model
  backend : s.engine.backend = t.engine.backend
  dispatcher : s.engine.dispatcher = t.engine.dispatcher
  position : s.engine.position = t.engine.position
  scratch : s.engine.scratch = t.engine.scratch
  logits : s.logits.length = logitWords ∧ t.logits.length = logitWords
  kv : ∀ c : KvCoord, c.position.val < s.engine.position →
    s.engine.kv c.word = t.engine.kv c.word

/-- Agreeing rows make the first layer see the same. -/
lemma SameRows.view {s t : Evaluation} (h : SameRows s t) (context : s.engine.position < contextLimit) :
    SameView 0 s t :=
  ⟨h.model, h.backend, h.position, context, h.scratch, h.logits, fun c hc => h.kv c (by omega)⟩

section Evaluate

variable {K : Kernels} {token : Token} {produceLogits : Bool} {s t : Evaluation}

/-- A finished body leaves the same rows, its own position included. -/
lemma SameAfter.finish {coordinator : TokenCoordinator} {s' t' : Evaluation} (h : SameRows s t)
    (after : SameAfter produceLogits s' t') (hs : Evaluating coordinator True s s')
    (ht : Evaluating coordinator True t t') :
    SameRows (finishEvaluation (s.engine.position + 1) s').2
      (finishEvaluation (t.engine.position + 1) t').2 := by
  obtain ⟨view, _⟩ := after
  refine ⟨view.model, view.backend, ?_, ?_, rfl, view.logits, ?_⟩
  · simp only [finishEvaluation, modify_apply]
    rw [hs.engine, ht.engine]
    exact h.dispatcher
  · simp only [finishEvaluation, modify_apply]
    rw [h.position]
  · intro c hc
    simp only [finishEvaluation, modify_apply] at hc ⊢
    have layer : c.layer.val < layers := c.layer.isLt
    exact view.kv c (by rw [hs.position]; omega)

/-- An evaluation over agreeing rows ends alike, with agreeing rows. -/
lemma evaluateInner_agrees {coordinator : TokenCoordinator} (h : SameRows s t)
    (context : s.engine.position < contextLimit) :
    (evaluateInner K token produceLogits coordinator s).1 =
        (evaluateInner K token produceLogits coordinator t).1 ∧
      ((evaluateInner K token produceLogits coordinator s).1 = .ok () →
        SameRows (evaluateInner K token produceLogits coordinator s).2
            (evaluateInner K token produceLogits coordinator t).2 ∧
          (produceLogits → (evaluateInner K token produceLogits coordinator s).2.logits =
            (evaluateInner K token produceLogits coordinator t).2.logits)) := by
  have context' : t.engine.position < contextLimit := by
    rw [← h.position]
    exact context
  have keepsS : KeepsEvaluating coordinator True s (evaluateBody K token produceLogits coordinator) :=
    keeps_evaluateBody trivial
  have keepsT : KeepsEvaluating coordinator True t (evaluateBody K token produceLogits coordinator) :=
    keeps_evaluateBody trivial
  obtain ⟨invS, _⟩ := keepsS s (.refl s)
  obtain ⟨invT, _⟩ := keepsT t (.refl t)
  have body : Agrees (SameView 0) (evaluateBody K token produceLogits coordinator)
    (SameAfter produceLogits) := agrees_evaluateBody
  obtain ⟨e, ok⟩ := body s t (h.view context)
  unfold evaluateInner
  rcases hs : evaluateBody K token produceLogits coordinator s with ⟨err | n, s'⟩ <;>
    rcases ht : evaluateBody K token produceLogits coordinator t with ⟨err' | m, t'⟩ <;>
    rw [hs, ht] at e ok <;> rw [hs] at invS <;> rw [ht] at invT <;> cases e
  · rw [bind_error hs, bind_error ht]
    exact ⟨rfl, nofun⟩
  · have after := ok n rfl
    rw [bind_ok hs, bind_ok ht, evaluateBody_next context hs]
    have same := after.finish h invS invT
    rw [← h.position] at same
    exact ⟨rfl, fun _ => ⟨same, after.2⟩⟩

/-- Evaluating a token gives two engines with the same rows one outcome, and extends them by the
same row. -/
lemma evaluate_agrees (token : Token) (produceLogits : Bool) (h : SameRows s t) (context : s.engine.position < contextLimit) :
    (evaluate K token produceLogits s).1 = (evaluate K token produceLogits t).1 ∧
      ((evaluate K token produceLogits s).1 = .ok () →
        SameRows (evaluate K token produceLogits s).2 (evaluate K token produceLogits t).2 ∧
          (produceLogits → (evaluate K token produceLogits s).2.logits =
            (evaluate K token produceLogits t).2.logits)) := by
  have coordinator : t.engine.coordinator = s.engine.coordinator := by
    unfold InferenceEngine.coordinator
    rw [h.dispatcher, h.backend]
  have dispatches : t.engine.dispatches token = s.engine.dispatches token := by
    unfold InferenceEngine.dispatches
    rw [h.dispatcher, h.position]
  rw [evaluate_eq, evaluate_eq, coordinator, dispatches]
  split
  · exact evaluateInner_agrees h context
  · rw [h.position]
    exact ⟨rfl, nofun⟩

end Evaluate

end Promptboot
