import Promptboot.Engine.Invariant
import Promptboot.Engine.SourceKernels

/-!
# One session on every machine

What an engine answers does not depend on the machine: an engine built for AVX2 and one built for
SSE2, alone or with the application processors, give the same steps, errors and logits, call for
call, and leave the same caches. `Twins` is the relation that every part of an evaluation keeps.

Every part has a `matches_` lemma, in the order of the evaluation, from `row_backends` (the
products, by `blockDot_backends`) up to `matches_evaluate`; the methods of the engine follow, and
`EngineOp.reply_on` is one call. The headline `session_on` is the induction on the calls, with the
engine's invariant.
-/

namespace Promptboot
open Fallible Packed

/-- The routines whose results do not depend on the backend; the scores are scratch of attention's
own. -/
structure Kernels.BackendFree (K : Kernels) : Prop where
  q4 : ∀ backend backend' weights staging columns row,
    K.q4MatvecRow backend weights staging columns row =
      K.q4MatvecRow backend' weights staging columns row
  q8 : ∀ backend backend' weights staging columns row,
    K.q8MatvecRow backend weights staging columns row =
      K.q8MatvecRow backend' weights staging columns row
  attention : ∀ backend backend' query live scores scores', live ≠ [] →
    (K.attention backend query live scores).1 = (K.attention backend' query live scores').1

section Source
variable (ops : Primitive.Sse2Ops)

/-- The exact sums have one value, so the routines return one word. -/
lemma blockDot_backends (backend backend' : InferenceBackend)
    (weights activation : Nat → BitVec 8) :
    blockDot (q4BlockDot backend) weights activation =
        blockDot (q4BlockDot backend') weights activation ∧
      blockDot (q8BlockDot backend) weights activation =
        blockDot (q8BlockDot backend') weights activation := by
  have q4 (b : InferenceBackend) : Exact (q4BlockDot b weights activation) fun eax =>
      eax.toInt = q4Sum weights activation := by
    cases b with
    | sse2 => exact q4BlockDotSse2_exact weights activation
    | avx2 => exact q4BlockDotAvx2_exact weights activation
  have q8 (b : InferenceBackend) : Exact (q8BlockDot b weights activation) fun eax =>
      eax.toInt = q8Sum weights activation := by
    cases b with
    | sse2 => exact q8BlockDotSse2_exact weights activation
    | avx2 => exact q8BlockDotAvx2_exact weights activation
  constructor
  · obtain ⟨eax, run, value⟩ := q4 backend
    obtain ⟨eax', run', value'⟩ := q4 backend'
    rw [blockDot, blockDot, run, run', BitVec.eq_of_toInt_eq (value.trans value'.symm)]
  · obtain ⟨eax, run, value⟩ := q8 backend
    obtain ⟨eax', run', value'⟩ := q8 backend'
    rw [blockDot, blockDot, run, run', BitVec.eq_of_toInt_eq (value.trans value'.symm)]

/-- The kernels of the source compute alike on both backends. -/
lemma sourceKernels_backendFree (table : Nat → UInt8) :
    (sourceKernels ops table).BackendFree := by
  constructor
  · intro backend backend' weights staging columns row
    refine List.foldl_ext _ _ _ fun total blockIndex _ => ?_
    dsimp only
    rw [(blockDot_backends backend backend' _ _).1]
  · intro backend backend' weights staging columns row
    refine List.foldl_ext _ _ _ fun total blockIndex _ => ?_
    dsimp only
    rw [(blockDot_backends backend backend' _ _).2]
  · intro backend backend' query live scores scores' some
    have length := List.length_pos_iff.2 some
    have rows : LiveRows (liveMemory live) (liveMemory live) 0 (live.length - 1 + 1) :=
      fun _ _ _ _ _ _ _ _ => rfl
    have fits : live.length - 1 + 1 ≤ softmaxSpan live.length := by
      unfold softmaxSpan
      omega
    have tiles : softmaxSpan live.length % 4 = 0 := Nat.mul_mod_left _ 4
    have output : (inferenceAttention ops.toFp32Ops (wordsOf query) (liveMemory live) backend
        (fun _ => 0) (wordsOf scores) 0 (live.length - 1) (softmaxSpan live.length)).2 =
        (inferenceAttention ops.toFp32Ops (wordsOf query) (liveMemory live) backend'
          (fun _ => 0) (wordsOf scores') 0 (live.length - 1) (softmaxSpan live.length)).2 :=
      inferenceAttention_output rows fits tiles backend backend' ..
    exact congrArg (fun written : Nat → Word => Vector.ofFn fun i : Fin hiddenWords => written i)
      output

end Source

/-- The same engine on another machine. -/
def InferenceEngine.on (engine : InferenceEngine) (backend : InferenceBackend)
    (dispatcher : Option InferenceDispatcher) : InferenceEngine :=
  { engine with backend, dispatcher }

/-- Whether the callback of a machine, if there is one, runs a token at a position. -/
def completesOn (dispatcher : Option InferenceDispatcher) (token : Token) (position : Nat) : Bool :=
  match dispatcher with
  | some dispatcher => dispatcher.completes token position
  | none => true

/-- An evaluation on another machine, with other scores and with vector kernels of its own. -/
def Evaluation.twin (s : Evaluation) (backend : InferenceBackend)
    (dispatcher : Option InferenceDispatcher) (scores : Vector Word contextLimit)
    (runs : List VectorRun) : Evaluation where
  engine := { s.engine.on backend dispatcher with scratch := { s.engine.scratch with scores } }
  logits := s.logits
  vectorRuns := runs

/-- Two evaluations that differ in their machine only, and in what attention has left of its
scores. -/
inductive Twins : Evaluation → Evaluation → Prop
  | mk {s backend dispatcher scores runs} (completes : ∀ token position,
      completesOn dispatcher token position = completesOn s.engine.dispatcher token position) :
      Twins s (s.twin backend dispatcher scores runs)

section Steps
variable {K : Kernels} {α : Type} {c d : TokenCoordinator} {domain : InferenceDomain}
  {layer id role tensorId stop : Nat}

/-- A change that keeps the dispatcher and takes twins to twins. -/
lemma matches_modify {f g : Evaluation → Evaluation}
    (machine : ∀ s, (f s).engine.dispatcher = s.engine.dispatcher)
    (twin : ∀ s backend dispatcher scores runs, ∃ scores' runs',
      g (s.twin backend dispatcher scores runs) = (f s).twin backend dispatcher scores' runs') :
    Matches Twins (modify f : EngineM Unit) (modify g) := by
  apply Matches.modify
  rintro s _ ⟨completes⟩
  obtain ⟨scores', runs', same⟩ := twin s _ _ _ _
  rw [same]
  refine .mk fun token position => ?_
  rw [machine]
  exact completes token position

/-- A check that does not look at the machine. -/
lemma matches_lift {f : Evaluation → Except InferenceError α}
    (same : ∀ s backend dispatcher scores runs,
      f (s.twin backend dispatcher scores runs) = f s) :
    Matches Twins (lift f) (lift f) := by
  apply Matches.lift
  rintro s _ ⟨_⟩
  rw [same]

/-- Twins look a tensor up alike. -/
lemma matches_engineTensor :
    Matches Twins (engineTensor id domain layer) (engineTensor id domain layer) :=
  matches_lift fun _ _ _ _ _ => rfl

/-- Twins look a layer's tensor up alike. -/
lemma matches_layerTensor :
    Matches Twins (layerTensor layer role domain) (layerTensor layer role domain) :=
  matches_lift fun _ _ _ _ _ => rfl

/-- Twins are at the same position. -/
lemma matches_currentPosition : Matches Twins currentPosition currentPosition :=
  matches_lift fun _ _ _ _ _ => rfl

/-- Twins reach for the scratch arena alike. -/
lemma matches_touchScratch : Matches Twins (touchScratch stop) (touchScratch stop) :=
  matches_modify (fun _ => rfl) fun _ _ _ _ _ => ⟨_, _, rfl⟩

/-- What neither reads nor writes the scores. -/
lemma matches_onScratch {f : Scratch → Scratch}
    (other : ∀ r scores, f { r with scores } = { f r with scores }) :
    Matches Twins (onScratch f) (onScratch f) := by
  refine matches_modify (fun _ => rfl) fun s backend dispatcher scores runs => ⟨scores, runs, ?_⟩
  exact congrArg (fun scratch =>
    (⟨{ s.engine.on backend dispatcher with scratch }, s.logits, runs⟩ : Evaluation))
    (other s.engine.scratch scores)

/-- Twins check alike all values but the scores. -/
lemma matches_check {values : Scratch → List Word}
    (other : ∀ r scores, values { r with scores } = values r) :
    Matches Twins (check domain layer tensorId values) (check domain layer tensorId values) := by
  refine matches_lift fun s backend dispatcher scores runs => ?_
  have read : values (s.twin backend dispatcher scores runs).engine.scratch =
      values s.engine.scratch := other s.engine.scratch scores
  rw [read]
  rfl

/-- A row of a product is the same word on both backends. -/
lemma row_backends (free : K.BackendFree) (job : MatvecJob) (backend backend' : InferenceBackend) :
    job.row K backend = job.row K backend' := by
  funext row
  unfold MatvecJob.row
  rw [free.q4 backend backend', free.q8 backend backend']

/-- The rows of a product are the same words on both backends. -/
lemma runMatvecRows_backends (free : K.BackendFree) (job : MatvecJob)
    (backend backend' : InferenceBackend) (first stop : Nat) (output : Nat → Word) :
    runMatvecRows K job backend first stop output =
      runMatvecRows K job backend' first stop output := by
  rw [runMatvecRows, runMatvecRows, row_backends free job backend backend']

/-- A product is the same on every backend and with every coordinator. -/
lemma matches_run (free : K.BackendFree) {job : Scratch → MatvecJob}
    {store : (Nat → Word → Word) → Scratch → Scratch}
    (reads : ∀ r scores, job { r with scores } = job r)
    (writes : ∀ out r scores, store out { r with scores } = { store out r with scores }) :
    Matches Twins (c.run K job store) (d.run K job store) := by
  refine matches_modify (fun _ => rfl) fun s backend dispatcher scores runs => ?_
  have jobs : job (s.twin backend dispatcher scores runs).engine.scratch = job s.engine.scratch :=
    reads s.engine.scratch scores
  have stored := writes (fun row old => runMatvecRows K (job s.engine.scratch) c.backend 0
    (job s.engine.scratch).rows (fun _ => old) row) s.engine.scratch scores
  refine ⟨scores, runs ++ [.matvec d.backend (job s.engine.scratch).rows], ?_⟩
  dsimp only
  rw [jobs]
  simp only [runMatvecRows_backends free _ d.backend c.backend]
  exact congrArg (fun scratch => (⟨{ s.engine.on backend dispatcher with scratch }, s.logits,
    runs ++ [.matvec d.backend (job s.engine.scratch).rows]⟩ : Evaluation)) stored

/-- Twins store the same row in the cache. -/
lemma matches_writeKv : Matches Twins (writeKv layer) (writeKv layer) := by
  refine Matches.bind (matches_lift fun _ _ _ _ _ => rfl) fun _ => ?_
  refine matches_modify (fun _ => rfl) fun s backend dispatcher scores runs => ⟨scores, runs, ?_⟩
  simp only [Evaluation.twin, InferenceEngine.on]

/-- Twins have the same attention, though not the same scores. -/
lemma matches_runAttention (free : K.BackendFree) :
    Matches Twins (runAttention K layer) (runAttention K layer) := by
  refine matches_modify (fun _ => rfl) fun s backend dispatcher scores runs => ?_
  have live : liveKv s.engine.kv layer s.engine.position ≠ [] := by
    simp [liveKv]
  have output := free.attention backend s.engine.backend s.engine.scratch.q
    (liveKv s.engine.kv layer s.engine.position) scores s.engine.scratch.scores live
  refine ⟨(K.attention backend s.engine.scratch.q
    (liveKv s.engine.kv layer s.engine.position) scores).2, runs ++ [.attention backend layer], ?_⟩
  exact congrArg (fun attention => (⟨{ s.engine.on backend dispatcher with
    scratch := { s.engine.scratch with
      attention
      scores := (K.attention backend s.engine.scratch.q
        (liveKv s.engine.kv layer s.engine.position) scores).2 } }, s.logits,
    runs ++ [.attention backend layer]⟩ : Evaluation)) output

end Steps

section Parts
variable {K : Kernels} {c d : TokenCoordinator} {layer : Nat} {token : Token}
  {produceLogits : Bool}

/-- Twins stay twins up to the store in the cache. -/
lemma matches_evaluateQkv (free : K.BackendFree) :
    Matches Twins (evaluateQkv K c layer) (evaluateQkv K d layer) := by
  unfold evaluateQkv
  repeat first
    | exact matches_writeKv
    | refine Matches.bind ?_ fun _ => ?_
    | exact matches_onScratch fun _ _ => rfl
    | exact matches_layerTensor
    | exact matches_touchScratch
    | exact matches_check fun _ _ => rfl
    | exact matches_run free (fun _ _ => rfl) fun _ _ _ => rfl
    | exact matches_currentPosition

/-- Twins stay twins over the attention of a layer. -/
lemma matches_evaluateAttention (free : K.BackendFree) :
    Matches Twins (evaluateAttention K c layer) (evaluateAttention K d layer) := by
  unfold evaluateAttention projectAttention
  repeat first
    | exact matches_runAttention free
    | refine Matches.bind ?_ fun _ => ?_
    | exact matches_onScratch fun _ _ => rfl
    | exact matches_layerTensor
    | exact matches_check fun _ _ => rfl
    | exact matches_run free (fun _ _ => rfl) fun _ _ _ => rfl

/-- Twins stay twins over the feed-forward part of a layer. -/
lemma matches_evaluateFeedForward (free : K.BackendFree) :
    Matches Twins (evaluateFeedForward K c layer) (evaluateFeedForward K d layer) := by
  unfold evaluateFeedForward
  repeat first
    | refine Matches.bind ?_ fun _ => ?_
    | exact matches_onScratch fun _ _ => rfl
    | exact matches_layerTensor
    | exact matches_check fun _ _ => rfl
    | exact matches_run free (fun _ _ => rfl) fun _ _ _ => rfl

/-- Twins stay twins over a layer. -/
lemma matches_evaluateLayer (free : K.BackendFree) :
    Matches Twins (evaluateLayer K c layer) (evaluateLayer K d layer) := by
  refine Matches.bind (matches_evaluateQkv free) fun _ => ?_
  refine Matches.bind (matches_evaluateAttention free) fun _ => ?_
  exact matches_evaluateFeedForward free

/-- Twins stay twins over the embedding. -/
lemma matches_evaluateEmbedding :
    Matches Twins (evaluateEmbedding K token) (evaluateEmbedding K token) := by
  unfold evaluateEmbedding
  repeat first
    | refine Matches.bind ?_ fun _ => ?_
    | exact matches_onScratch fun _ _ => rfl
    | exact matches_engineTensor
    | exact matches_touchScratch
    | exact matches_check fun _ _ => rfl

/-- Twins compute the same logits. -/
lemma matches_runOutput (free : K.BackendFree) {output : TensorView} :
    Matches Twins (runOutput K c output) (runOutput K d output) := by
  refine matches_modify (fun _ => rfl) fun s backend dispatcher scores runs => ?_
  refine ⟨scores, runs ++ [.matvec d.backend logitWords], ?_⟩
  dsimp only
  simp only [runMatvecRows_backends free _ d.backend c.backend]
  rfl

/-- Twins stay twins over the logits and their checks. -/
lemma matches_evaluateLogits (free : K.BackendFree) :
    Matches Twins (evaluateLogits K c) (evaluateLogits K d) := by
  unfold evaluateLogits
  repeat first
    | exact Matches.bind (matches_runOutput free) fun _ => matches_lift fun _ _ _ _ _ => rfl
    | refine Matches.bind ?_ fun _ => ?_
    | exact matches_engineTensor
    | exact matches_onScratch fun _ _ => rfl
    | exact matches_check fun _ _ => rfl

/-- Twins stay twins over the body of an evaluation. -/
lemma matches_evaluateBody (free : K.BackendFree) :
    Matches Twins (evaluateBody K token produceLogits c)
      (evaluateBody K token produceLogits d) := by
  unfold evaluateBody
  refine Matches.bind matches_evaluateEmbedding fun _ => ?_
  refine Matches.bind (Matches.forM fun _ _ => matches_evaluateLayer free) fun _ => ?_
  refine Matches.bind (matches_lift fun _ _ _ _ _ => rfl) fun _ => ?_
  refine Matches.bind ?_ fun _ => Matches.pure
  cases produceLogits
  · exact Matches.pure
  · exact matches_evaluateLogits free

/-- Twins stay twins over an evaluation. -/
lemma matches_evaluateInner (free : K.BackendFree) :
    Matches Twins (evaluateInner K token produceLogits c)
      (evaluateInner K token produceLogits d) := by
  refine Matches.bind (matches_evaluateBody free) fun _ => ?_
  exact matches_modify (fun _ => rfl) fun _ _ _ _ _ => ⟨_, _, rfl⟩

/-- The machines run a token on different coordinators, if they run it. -/
lemma matches_evaluate (free : K.BackendFree) :
    Matches Twins (evaluate K token produceLogits) (evaluate K token produceLogits) := by
  intro s t twins
  have dispatches : t.engine.dispatches token = s.engine.dispatches token := by
    obtain ⟨completes⟩ := twins
    exact completes token s.engine.position
  have position : t.engine.position = s.engine.position := by
    obtain ⟨_⟩ := twins
    rfl
  rw [evaluate_eq, evaluate_eq, dispatches]
  split
  · exact matches_evaluateInner free _ _ twins
  · rw [position]
    exact ⟨rfl, twins⟩

end Parts

section Methods
variable {K : Kernels} {token : Token} {promptTokens : List Token}
  {prefixTokens generationReserve : Nat}

/-- Twins that fail stay twins. -/
lemma Twins.fault {s t : Evaluation} (twins : Twins s t) : Twins (fault s) (fault t) := by
  obtain ⟨completes⟩ := twins
  exact .mk completes

/-- Writes what the machine has no part in. -/
lemma Twins.update {s t : Evaluation} (twins : Twins s t) (f : InferenceEngine → InferenceEngine)
    (machine : ∀ engine, (f engine).dispatcher = engine.dispatcher)
    (other : ∀ engine backend dispatcher scores, ∃ scores',
      f { engine.on backend dispatcher with scratch := { engine.scratch with scores } } =
        { (f engine).on backend dispatcher with
          scratch := { (f engine).scratch with scores := scores' } }) :
    Twins { s with engine := f s.engine } { t with engine := f t.engine } := by
  obtain ⟨completes⟩ := twins
  rename_i backend dispatcher scores runs
  obtain ⟨scores', same⟩ := other s.engine backend dispatcher scores
  have left : ({ s.twin backend dispatcher scores runs with
      engine := f (s.twin backend dispatcher scores runs).engine } : Evaluation) =
      Evaluation.twin { s with engine := f s.engine } backend dispatcher scores' runs :=
    congrArg (fun engine => (⟨engine, s.logits, runs⟩ : Evaluation)) same
  rw [left]
  refine .mk fun token position => ?_
  rw [machine]
  exact completes token position

/-- Twins publish the same step. -/
lemma matches_publishStep : Matches Twins (publishStep K) (publishStep K) := by
  rintro s _ ⟨completes⟩
  rename_i backend dispatcher scores runs
  unfold publishStep
  cases bad : injectAndCheck .argmax noLayer 290 s.engine.position s.logits with
  | some error =>
    have bad' : injectAndCheck .argmax noLayer 290 (s.twin backend dispatcher scores runs).engine.position
        (s.twin backend dispatcher scores runs).logits = some error := bad
    rw [bad']
    exact ⟨rfl, Twins.fault (.mk completes)⟩
  | none =>
    have good : injectAndCheck .argmax noLayer 290 (s.twin backend dispatcher scores runs).engine.position
        (s.twin backend dispatcher scores runs).logits = none := bad
    rw [good]
    exact ⟨rfl, .mk completes⟩

/-- Twins stay twins over an accepted prefill. -/
lemma matches_prefillAccepted (free : K.BackendFree) :
    Matches Twins (prefillAccepted K promptTokens generationReserve)
      (prefillAccepted K promptTokens generationReserve) := by
  refine Matches.bind (matches_modify (fun _ => rfl) fun _ _ _ _ _ => ⟨_, _, rfl⟩) fun _ => ?_
  refine Matches.bind (Matches.onError ?_ fun _ _ _ => Twins.fault) fun _ => ?_
  · exact Matches.forM fun _ _ => matches_evaluate free
  refine Matches.bind (matches_modify (fun _ => rfl) fun _ _ _ _ _ => ⟨_, _, rfl⟩) fun _ => ?_
  exact matches_publishStep

/-- Twins stay twins over an accepted decode. -/
lemma matches_decodeAccepted (free : K.BackendFree) :
    Matches Twins (decodeAccepted K token) (decodeAccepted K token) := by
  refine Matches.bind (Matches.onError (matches_evaluate free) fun _ _ _ => Twins.fault) fun _ => ?_
  refine Matches.bind (matches_modify (fun _ => rfl) fun _ _ _ _ _ => ⟨_, _, rfl⟩) fun _ => ?_
  exact matches_publishStep

/-- The checks of a method see nothing of the machine. -/
lemma matches_accepting {rejection : Evaluation → Option InferenceError} {run : EngineM InferenceStep}
    (same : ∀ s backend dispatcher scores runs,
      rejection (s.twin backend dispatcher scores runs) = rejection s)
    (body : Matches Twins run run) :
    Matches Twins (fun s => accepting (rejection s) run s)
      (fun s => accepting (rejection s) run s) := by
  intro s t twins
  have checks : rejection t = rejection s := by
    obtain ⟨_⟩ := twins
    exact same ..
  show (accepting (rejection s) run s).1 = (accepting (rejection t) run t).1 ∧
    Twins (accepting (rejection s) run s).2 (accepting (rejection t) run t).2
  rw [checks]
  cases rejection s with
  | some error => exact ⟨rfl, twins⟩
  | none => exact body s t twins

/-- Twins stay twins over a prefill and its checks. -/
lemma matches_prefillInner (free : K.BackendFree) (append : Bool) :
    Matches Twins (prefillInner K promptTokens generationReserve append)
      (prefillInner K promptTokens generationReserve append) :=
  matches_accepting (fun _ _ _ _ _ => rfl) (matches_prefillAccepted free)

/-- Twins stay twins over a decode and its checks. -/
lemma matches_decodeInner (free : K.BackendFree) (greedy : Bool) :
    Matches Twins (decodeInner K token greedy) (decodeInner K token greedy) :=
  matches_accepting (fun _ _ _ _ _ => rfl) (matches_decodeAccepted free)

/-- Twins stay twins over a prefill. -/
lemma matches_prefill (free : K.BackendFree) :
    Matches Twins (prefill K promptTokens generationReserve)
      (prefill K promptTokens generationReserve) := by
  intro s t twins
  have state : t.engine.state = s.engine.state := by
    obtain ⟨_⟩ := twins
    rfl
  have error (sub : Nat) : t.engine.stateError .reset sub = s.engine.stateError .reset sub := by
    obtain ⟨_⟩ := twins
    rfl
  unfold prefill
  rw [state, error, error]
  cases s.engine.state with
  | reset => exact matches_prefillInner free false s t twins
  | ready | eos | faulted => exact ⟨rfl, twins⟩

/-- Twins stay twins over an appended prefill. -/
lemma matches_appendPrefill (free : K.BackendFree) :
    Matches Twins (appendPrefill K promptTokens generationReserve)
      (appendPrefill K promptTokens generationReserve) := by
  intro s t twins
  have state : t.engine.state = s.engine.state := by
    obtain ⟨_⟩ := twins
    rfl
  have error (needed : InferenceState) (sub : Nat) :
      t.engine.stateError needed sub = s.engine.stateError needed sub := by
    obtain ⟨_⟩ := twins
    rfl
  unfold appendPrefill
  rw [state, error, error]
  cases s.engine.state with
  | reset | faulted => exact ⟨rfl, twins⟩
  | ready | eos => exact matches_prefillInner free true s t twins

/-- Twins that are reset stay twins. -/
lemma Twins.resetState {s t : Evaluation} (twins : Twins s t) :
    Twins { s with engine := s.engine.resetState } { t with engine := t.engine.resetState } :=
  twins.update _ (fun _ => rfl) fun _ _ _ _ => ⟨_, rfl⟩

/-- Twins stay twins when the prefix is evaluated and kept. -/
lemma matches_prefillRetaining (free : K.BackendFree) :
    Matches Twins (prefillRetaining K promptTokens prefixTokens generationReserve)
      (prefillRetaining K promptTokens prefixTokens generationReserve) := by
  refine Matches.bind (matches_prefill free) fun _ => ?_
  refine Matches.bind (matches_modify (fun _ => rfl) fun _ _ _ _ _ => ⟨_, _, rfl⟩) fun _ => ?_
  exact Matches.pure

/-- Twins stay twins over a prefill behind a kept prefix. -/
lemma matches_prefillWithPrefix (free : K.BackendFree) :
    Matches Twins (prefillWithPrefix K promptTokens prefixTokens generationReserve)
      (prefillWithPrefix K promptTokens prefixTokens generationReserve) := by
  intro s t twins
  have state : t.engine.state = s.engine.state := by
    obtain ⟨_⟩ := twins
    rfl
  have error : t.engine.stateError .reset 4 = s.engine.stateError .reset 4 := by
    obtain ⟨_⟩ := twins
    rfl
  have retained : t.engine.retainedPrefix = s.engine.retainedPrefix := by
    obtain ⟨_⟩ := twins
    rfl
  have reuses : t.engine.reuses promptTokens prefixTokens =
      s.engine.reuses promptTokens prefixTokens := by
    obtain ⟨_⟩ := twins
    rfl
  unfold prefillWithPrefix
  dsimp only
  rw [state, error, retained, reuses]
  split_ifs
  · exact ⟨rfl, twins.resetState⟩
  · exact matches_prefillRetaining free s t twins
  · exact matches_prefillInner free true s t twins
  · exact ⟨rfl, twins.resetState⟩
  · exact matches_prefillRetaining free _ _ twins.resetState

end Methods

/-- What a caller is given. -/
inductive Reply where
  | step (step : InferenceStep)
  | error (error : InferenceError)
  | reset
  /-- the position that `reset_to_prefix` returns -/
  | restarted (position : Nat)

/-- What a method gives its caller, with the logits, and the engine it leaves. -/
def replyOf (method : EngineM InferenceStep) (engine : InferenceEngine) (logits : List Word) :
    (Reply × List Word) × InferenceEngine :=
  match method ⟨engine, logits, []⟩ with
  | (.ok step, s) => ((.step step, s.logits), s.engine)
  | (.error error, s) => ((.error error, s.logits), s.engine)

def EngineOp.reply (K : Kernels) (engine : InferenceEngine) :
    EngineOp → (Reply × List Word) × InferenceEngine
  | .prefill promptTokens generationReserve logits =>
    replyOf (Promptboot.prefill K promptTokens generationReserve) engine logits
  | .prefillWithPrefix promptTokens prefixTokens generationReserve logits =>
    replyOf (Promptboot.prefillWithPrefix K promptTokens prefixTokens generationReserve) engine
      logits
  | .appendPrefill promptTokens generationReserve logits =>
    replyOf (Promptboot.appendPrefill K promptTokens generationReserve) engine logits
  | .decode token logits => replyOf (Promptboot.decode K token) engine logits
  | .decodeSelected token logits => replyOf (Promptboot.decodeSelected K token) engine logits
  | .reset => ((.reset, []), engine.reset)
  | .resetToPrefix => ((.restarted engine.resetToPrefix.1, []), engine.resetToPrefix.2)

/-- The replies to a sequence of calls, and the engine at its end. -/
def session (K : Kernels) (engine : InferenceEngine) :
    List EngineOp → List (Reply × List Word) × InferenceEngine
  | [] => ([], engine)
  | op :: ops =>
    let (reply, engine) := op.reply K engine
    let (replies, last) := session K engine ops
    (reply :: replies, last)

section Sessions
variable {K : Kernels} {engine : InferenceEngine} {backend : InferenceBackend}
  {dispatcher : Option InferenceDispatcher}

/-- The engine behind a reply is that of the outcome. -/
lemma replyOf_outcome (method : EngineM InferenceStep) (logits : List Word) :
    (replyOf method engine logits).2 = (outcome method engine logits).2.engine := by
  unfold replyOf outcome
  rcases method ⟨engine, logits, []⟩ with ⟨error | step, s⟩ <;> rfl

/-- The engine behind a reply is that of the call. -/
lemma EngineOp.reply_engine (op : EngineOp) :
    (op.reply K engine).2 = (op.call K engine).2.engine := by
  cases op with
  | prefill | prefillWithPrefix | appendPrefill | decode | decodeSelected =>
    exact replyOf_outcome _ _
  | reset | resetToPrefix => rfl

/-- What a call gives and leaves on another machine, up to the scores. -/
def RepliesAs (left right : (Reply × List Word) × InferenceEngine) : Prop :=
  right.1 = left.1 ∧ ∃ backend dispatcher scores,
    right.2 = { left.2.on backend dispatcher with scratch := { left.2.scratch with scores } }

/-- Matching methods give the same reply on both machines. -/
lemma replyOf_twins {method : EngineM InferenceStep} (body : Matches Twins method method)
    (completes : ∀ token position,
      completesOn dispatcher token position = completesOn engine.dispatcher token position)
    (logits : List Word) :
    RepliesAs (replyOf method engine logits)
      (replyOf method (engine.on backend dispatcher) logits) := by
  have twins : Twins ⟨engine, logits, []⟩ ⟨engine.on backend dispatcher, logits, []⟩ :=
    Twins.mk (s := ⟨engine, logits, []⟩) completes
  obtain ⟨same, left⟩ := body _ _ twins
  unfold replyOf
  rcases hs : method ⟨engine, logits, []⟩ with ⟨e | step, s⟩ <;>
    rcases ht : method ⟨engine.on backend dispatcher, logits, []⟩ with ⟨e' | step', t⟩ <;>
    rw [hs, ht] at same left <;> cases same <;> cases left
  · exact ⟨rfl, _, _, _, rfl⟩
  · exact ⟨rfl, _, _, _, rfl⟩

/-- Every call gives the same reply on both machines. -/
lemma EngineOp.reply_twins (free : K.BackendFree) (op : EngineOp)
    (completes : ∀ token position,
      completesOn dispatcher token position = completesOn engine.dispatcher token position) :
    RepliesAs (op.reply K engine) (op.reply K (engine.on backend dispatcher)) := by
  cases op with
  | prefill => exact replyOf_twins (matches_prefill free) completes _
  | prefillWithPrefix => exact replyOf_twins (matches_prefillWithPrefix free) completes _
  | appendPrefill => exact replyOf_twins (matches_appendPrefill free) completes _
  | decode => exact replyOf_twins (matches_decodeInner free true) completes _
  | decodeSelected => exact replyOf_twins (matches_decodeInner free false) completes _
  | reset => exact ⟨rfl, _, _, _, rfl⟩
  | resetToPrefix =>
    have valid : (engine.on backend dispatcher).retainedValid = engine.retainedValid := rfl
    show RepliesAs ((.restarted engine.resetToPrefix.1, []), engine.resetToPrefix.2)
      ((.restarted (engine.on backend dispatcher).resetToPrefix.1, []),
        (engine.on backend dispatcher).resetToPrefix.2)
    unfold InferenceEngine.resetToPrefix
    rw [valid]
    split
    · exact ⟨rfl, _, _, _, rfl⟩
    · exact ⟨rfl, _, _, _, rfl⟩

/-- The invariant does not speak of the machine. -/
lemma InferenceEngine.Invariant.on (inv : engine.Invariant) :
    (engine.on backend dispatcher).Invariant :=
  ⟨inv.budget, inv.reset, inv.retained, inv.scratch, inv.highWater⟩

/-- Between calls the scores are cleared, so nothing of the machine is left in them. -/
lemma EngineOp.reply_on (free : K.BackendFree) (inv : engine.Invariant) (op : EngineOp)
    (completes : ∀ token position,
      completesOn dispatcher token position = completesOn engine.dispatcher token position) :
    op.reply K (engine.on backend dispatcher) =
      ((op.reply K engine).1, (op.reply K engine).2.on backend dispatcher) := by
  have spec := op.call_spec (K := K) inv
  have inv' : (engine.on backend dispatcher).Invariant := inv.on
  have spec' := op.call_spec (K := K) inv'
  have twins : RepliesAs (op.reply K engine) (op.reply K (engine.on backend dispatcher)) :=
    op.reply_twins free completes
  obtain ⟨same, backend', dispatcher', scores, left⟩ := twins
  have cleared := spec.invariant.scratch
  have cleared' := spec'.invariant.scratch
  have machine := spec'.machine
  rw [← op.reply_engine] at cleared cleared' machine
  rw [left] at cleared' machine
  obtain rfl : backend' = backend := machine.backend
  obtain rfl : dispatcher' = dispatcher := machine.dispatcher
  have engines : (op.reply K (engine.on backend' dispatcher')).2 =
      (op.reply K engine).2.on backend' dispatcher' := by
    rw [left]
    exact congrArg (fun scratch => { (op.reply K engine).2.on backend' dispatcher' with scratch })
      (cleared'.trans cleared.symm)
  exact Prod.ext same engines

end Sessions

/-- A session gives the same steps, errors and logits on every machine, call for call and bit for
bit, and leaves the same engine but for the machine: with AVX2 or with SSE2, alone or with the
application processors, as long as the callbacks come back for the same tokens. Its attention is
the routine's on the whole cache. -/
theorem session_on (ops : Primitive.Sse2Ops) (table : Nat → UInt8) {engine : InferenceEngine}
    (inv : engine.Invariant) (backend : InferenceBackend) (dispatcher : Option InferenceDispatcher)
    (completes : ∀ token position,
      completesOn dispatcher token position = completesOn engine.dispatcher token position)
    (calls : List EngineOp) :
    session (sourceKernels ops table) (engine.on backend dispatcher) calls =
        ((session (sourceKernels ops table) engine calls).1,
          (session (sourceKernels ops table) engine calls).2.on backend dispatcher) ∧
      (sourceKernels ops table).AttendsCache ops := by
  have free := sourceKernels_backendFree ops table
  refine ⟨?_, sourceKernels_attention table⟩
  induction calls generalizing engine with
  | nil => rfl
  | cons op calls ih =>
    have spec := op.call_spec (K := sourceKernels ops table) inv
    have inv' : (op.reply (sourceKernels ops table) engine).2.Invariant := by
      rw [op.reply_engine]
      exact spec.invariant
    have machine : (op.reply (sourceKernels ops table) engine).2.dispatcher = engine.dispatcher := by
      rw [op.reply_engine]
      exact spec.machine.dispatcher
    have rest := ih inv' fun token position => by rw [machine]; exact completes token position
    rw [session, op.reply_on free inv completes]
    dsimp only
    rw [rest]
    rfl

/-- A prefill and a decode. -/
def shortSession : List EngineOp :=
  [.prefill [0] 1 (List.replicate logitWords 0), .decode 0 (List.replicate logitWords 0)]

/-- A prefill and a decode, with AVX2 and a dispatcher. -/
theorem session_on_blank :
    session (sourceKernels sse2Ieee fun _ => 0)
        (blankEngine.on .avx2 (some ⟨.avx2, fun _ _ => true⟩)) shortSession =
        ((session (sourceKernels sse2Ieee fun _ => 0) blankEngine shortSession).1,
          (session (sourceKernels sse2Ieee fun _ => 0) blankEngine shortSession).2.on .avx2
            (some ⟨.avx2, fun _ _ => true⟩)) ∧
      (sourceKernels sse2Ieee fun _ => 0).AttendsCache sse2Ieee :=
  session_on sse2Ieee (fun _ => 0) (build_invariant build_blank) .avx2
    (some ⟨.avx2, fun _ _ => true⟩) (fun _ _ => rfl) shortSession

end Promptboot
