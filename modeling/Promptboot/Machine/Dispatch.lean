import Promptboot.Engine.ZeroKernels

/-!
# Dispatch to the application processors

How a token reaches the application processors (`mp_inference.rs`): on entry every one establishes
its state and reports whether it is ready and AVX2 capable, all wait for each other, and all compute
the same backend from the same reports. Inside the dispatch, a product runs on every slot with the
backend of the entry; attention runs on slot 0 with the backend the engine found when it was built.
`backendAgreement_iff` says when the two are the same.
-/

namespace Promptboot
open Fallible

/-- What `ap_entry` stores in `ready`. -/
structure ApReport where
  ready : Bool
  capable : Bool
  deriving DecidableEq, Repr

def apReport (cpu : Cpu) : ApReport :=
  let established := cpu.establishApState
  let ready := established.cpuStateReady
  ⟨ready, ready && established.avx2Capable⟩

/-- The two conjunctions that every processor computes over its peers' reports. -/
def allReady (aps : List Cpu) : Bool := aps.all fun ap => (apReport ap).ready

def commonAvx2 (aps : List Cpu) : Bool := aps.all fun ap => (apReport ap).capable

/-- The backend that every processor enters a job with. -/
def negotiatedBackend (aps : List Cpu) : InferenceBackend := if commonAvx2 aps then .avx2 else .sse2

/-- `MpInferenceAdapter::prepare`: below two application processors inference stays serial. A
dispatch that finds a processor not ready runs no kernel and never returns. -/
def mpDispatcher (aps : List Cpu) : Option InferenceDispatcher :=
  if aps.length < 2 then none else some ⟨negotiatedBackend aps, fun _ _ => allReady aps⟩

/-- A vector kernel on the application processor of a slot. -/
structure KernelRun where
  slot : Nat
  backend : InferenceBackend
  deriving DecidableEq, Repr

/-- A product is split over all slots; everything else of an evaluation runs on slot 0. -/
def VectorRun.kernelRuns (workers : Nat) : VectorRun → List KernelRun
  | .matvec backend _ => (List.range workers).map fun slot => ⟨slot, backend⟩
  | .attention backend _ => [⟨0, backend⟩]

/-- The kernels that run while a token is dispatched. -/
def dispatchRuns (K : Kernels) (aps : List Cpu) (engine : InferenceEngine) (logits : List Word)
    (token : Token) (produceLogits : Bool) : List KernelRun :=
  (evaluate K token produceLogits ⟨engine, logits, []⟩).2.vectorRuns.flatMap
    (VectorRun.kernelRuns aps.length)

/-- No processor runs AVX2 code unless all said they can, and the entry's backend is used
throughout. -/
structure BackendAgreement (aps : List Cpu) (runs : List KernelRun) : Prop where
  safe : ∀ run ∈ runs, run.backend = .avx2 → ∀ ap ∈ aps, (apReport ap).capable = true
  agrees : ∀ run ∈ runs, run.backend = negotiatedBackend aps

/-- The part of an evaluation before its first attention kernel. -/
def evaluateBeforeAttention (K : Kernels) (token : Token) (coordinator : TokenCoordinator) :
    EngineM Unit := do
  evaluateEmbedding K token
  evaluateQkv K coordinator 0

/-- Whether a dispatched token gets as far as its first attention kernel. -/
def ReachesAttention (K : Kernels) (aps : List Cpu) (engine : InferenceEngine) (logits : List Word)
    (token : Token) : Prop :=
  allReady aps = true ∧ ∃ s, evaluateBeforeAttention K token (.parallelOn (negotiatedBackend aps))
    ⟨engine, logits, []⟩ = (.ok (), s)

section Runs

variable {K : Kernels} {coordinator : TokenCoordinator} {token : Token} {produceLogits : Bool}

/-- What comes before the attention keeps an evaluation. -/
lemma keeps_evaluateBeforeAttention {s₀ : Evaluation} :
    KeepsEvaluating coordinator False s₀ (evaluateBeforeAttention K token coordinator) :=
  Keeps.bind keeps_evaluateEmbedding fun _ => keeps_evaluateQkv (by decide)

/-- A kernel is on the record of an evaluation. -/
def Recorded (run : VectorRun) (s : Evaluation) : Prop := run ∈ s.vectorRuns

/-- No part of an evaluation takes a kernel off the record. -/
lemma keeps_recorded {α : Type} {c : EngineM α} {run : VectorRun} (coordinator : TokenCoordinator)
    (h : ∀ s₀, KeepsEvaluating coordinator True s₀ c) : Keeps (Recorded run) (fun _ => True) c := by
  intro s hs
  refine ⟨?_, fun _ _ => trivial⟩
  obtain ⟨new, e, _⟩ := (h s s (.refl s)).1.runs
  unfold Recorded
  rw [e]
  exact List.mem_append_left _ hs

/-- Past the first attention kernel the record of an evaluation contains it. -/
lemma evaluateBody_attends {s u : Evaluation}
    (h : evaluateBeforeAttention K token coordinator s = (.ok (), u)) :
    Recorded (.attention u.engine.backend 0)
      (evaluateBody K token produceLogits coordinator s).2 := by
  obtain ⟨_, t, embedded, stored⟩ := bind_eq_ok h
  have attention : Recorded (.attention u.engine.backend 0) (runAttention K 0 u).2 := by
    simp [Recorded, runAttention]
  have first : Recorded (.attention u.engine.backend 0) (evaluateLayer K coordinator 0 t).2 := by
    unfold evaluateLayer
    rw [bind_ok stored]
    refine Keeps.of_bind ?_ fun _ => keeps_recorded coordinator fun _ => keeps_evaluateFeedForward
    exact Keeps.of_bind attention fun _ => keeps_recorded coordinator fun _ => keeps_projectAttention
  have loop : Recorded (.attention u.engine.backend 0)
      ((List.range layers).forM (evaluateLayer K coordinator) t).2 := by
    rw [show List.range layers = 0 :: List.range' 1 23 from rfl, forM_cons]
    refine Keeps.of_bind first fun _ => Keeps.forM fun layer hl => keeps_recorded coordinator fun _ => ?_
    have inside : layer < layers := by
      rw [List.mem_range'_1] at hl
      unfold layers
      omega
    exact keeps_evaluateLayer inside trivial
  unfold evaluateBody
  rw [bind_ok embedded]
  refine Keeps.of_bind (E := fun _ => True) loop fun _ => ?_
  refine Keeps.bind (keeps_recorded coordinator fun _ => keeps_checkedNextPosition) fun _ => ?_
  exact Keeps.bind (keeps_recorded coordinator fun _ => keeps_evaluateOutput) fun _ => Keeps.pure

/-- An evaluation that stops before its first attention kernel stops the whole evaluation there. -/
lemma evaluateBody_stops {s u : Evaluation} {e : InferenceError}
    (h : evaluateBeforeAttention K token coordinator s = (.error e, u)) :
    evaluateBody K token produceLogits coordinator s = (.error e, u) := by
  unfold evaluateBeforeAttention at h
  unfold evaluateBody
  rcases hs : evaluateEmbedding K token s with ⟨_ | _, t⟩
  · rw [bind_error hs] at h ⊢
    cases h
    rfl
  · rw [bind_ok hs] at h ⊢
    rw [show List.range layers = 0 :: List.range' 1 23 from rfl, forM_cons]
    have layer : evaluateLayer K coordinator 0 t = (.error e, u) := bind_error h
    exact bind_error (bind_error layer)

/-- Finishing an evaluation runs no kernel. -/
lemma evaluateInner_vectorRuns {s : Evaluation} :
    (evaluateInner K token produceLogits coordinator s).2.vectorRuns =
      (evaluateBody K token produceLogits coordinator s).2.vectorRuns := by
  unfold evaluateInner
  rcases hs : evaluateBody K token produceLogits coordinator s with ⟨_ | _, t⟩
  · rw [bind_error hs]
  · rw [bind_ok hs]
    rfl

end Runs

section Dispatch

variable {K : Kernels} {aps : List Cpu} {engine : InferenceEngine} {logits : List Word}
  {token : Token} {produceLogits : Bool}

/-- The record of a dispatched token. -/
lemma evaluate_vectorRuns (mp : engine.dispatcher = mpDispatcher aps) (two : 2 ≤ aps.length) :
    (evaluate K token produceLogits ⟨engine, logits, []⟩).2.vectorRuns =
      if allReady aps then
        (evaluateBody K token produceLogits (.parallelOn (negotiatedBackend aps))
          ⟨engine, logits, []⟩).2.vectorRuns
      else [] := by
  unfold mpDispatcher at mp
  rw [if_neg (by omega)] at mp
  unfold evaluate
  dsimp only
  rw [mp]
  dsimp only
  split
  · exact evaluateInner_vectorRuns
  · rfl

/-- If AVX2 is negotiated, every processor reports it. -/
lemma commonAvx2_capable (h : negotiatedBackend aps = .avx2) :
    ∀ ap ∈ aps, (apReport ap).capable = true := by
  unfold negotiatedBackend commonAvx2 at h
  split at h
  · rename_i all
    exact List.all_eq_true.mp all
  · cases h

/-- Every kernel of a dispatch has the negotiated backend or, if the token gets to attention, the
engine's. -/
lemma dispatchRuns_backend (mp : engine.dispatcher = mpDispatcher aps) (two : 2 ≤ aps.length)
    {run : KernelRun} (h : run ∈ dispatchRuns K aps engine logits token produceLogits) :
    run.backend = negotiatedBackend aps ∨
      (ReachesAttention K aps engine logits token ∧ run.backend = engine.backend) := by
  unfold dispatchRuns at h
  rw [evaluate_vectorRuns mp two] at h
  split at h
  · rename_i ready
    obtain ⟨vector, member, slot⟩ := List.mem_flatMap.mp h
    have kernel : run.backend = vector.backend := by
      cases vector with
      | matvec =>
        obtain ⟨_, _, rfl⟩ := List.mem_map.mp slot
        rfl
      | attention =>
        rw [List.mem_singleton.mp slot]
        rfl
    rw [kernel]
    rcases hb : evaluateBeforeAttention K token (.parallelOn (negotiatedBackend aps))
      ⟨engine, logits, []⟩ with ⟨e | _, s⟩
    · have before : KeepsEvaluating (.parallelOn (negotiatedBackend aps)) False
          ⟨engine, logits, []⟩ (evaluateBeforeAttention K token _) := keeps_evaluateBeforeAttention
      have inv := (before _ (.refl _)).1
      rw [hb] at inv
      rw [evaluateBody_stops hb] at member
      obtain ⟨new, e, all⟩ := inv.runs
      rw [e] at member
      rcases all vector member with ⟨_, rfl⟩ | ⟨absurd, _⟩
      · exact .inl rfl
      · exact absurd.elim
    · have body : KeepsEvaluating (.parallelOn (negotiatedBackend aps)) True
          ⟨engine, logits, []⟩ (evaluateBody K token produceLogits _) := keeps_evaluateBody trivial
      obtain ⟨new, e, all⟩ := (body _ (.refl _)).1.runs
      rw [e] at member
      rcases all vector member with ⟨_, rfl⟩ | ⟨_, _, rfl⟩
      · exact .inl rfl
      · exact .inr ⟨⟨ready, s, hb⟩, rfl⟩
  · simp at h

/-- A built engine has the backend of its processor and the dispatcher it was given. -/
lemma build_backend {bsp : Cpu} {model : ModelView} {kvStorage scratchStorage : Storage}
    {dispatcher : Option InferenceDispatcher} {built : InferenceEngine}
    (h : InferenceEngine.build bsp model kvStorage scratchStorage dispatcher = .ok built) :
    built.dispatcher = dispatcher ∧ built.backend = .detect bsp := by
  unfold InferenceEngine.build at h
  split at h
  · cases h
  split at h
  · cases h
  cases h
  exact ⟨rfl, rfl⟩

/-- A token that gets to attention runs it on slot 0 with the engine's backend. -/
lemma ReachesAttention.run (h : ReachesAttention K aps engine logits token)
    (mp : engine.dispatcher = mpDispatcher aps) (two : 2 ≤ aps.length) :
    ⟨0, engine.backend⟩ ∈ dispatchRuns K aps engine logits token produceLogits := by
  obtain ⟨ready, s, before⟩ := h
  have backend : s.engine.backend = engine.backend := by
    have keeps : KeepsEvaluating (.parallelOn (negotiatedBackend aps)) False
      ⟨engine, logits, []⟩ (evaluateBeforeAttention K token _) := keeps_evaluateBeforeAttention
    have inv := (keeps _ (.refl _)).1
    rw [before] at inv
    exact inv.backend
  unfold dispatchRuns
  rw [evaluate_vectorRuns mp two, if_pos ready, List.mem_flatMap]
  refine ⟨_, evaluateBody_attends before, ?_⟩
  rw [backend]
  exact List.mem_singleton.mpr rfl

variable {bsp : Cpu} {model : ModelView} {kvStorage scratchStorage : Storage}
  {built : InferenceEngine}

/-- Whatever an engine built on the bootstrap processor has run, a dispatched token's kernels agree
with the backend negotiated on entry exactly when the bootstrap processor's own detection does, or
no attention kernel is reached. -/
theorem backendAgreement_iff
    (h : InferenceEngine.build bsp model kvStorage scratchStorage (mpDispatcher aps) = .ok built)
    (two : 2 ≤ aps.length) (same : SameMachine built engine) :
    BackendAgreement aps (dispatchRuns K aps engine logits token produceLogits) ↔
      InferenceBackend.detect bsp = negotiatedBackend aps ∨
        ¬ReachesAttention K aps engine logits token := by
  obtain ⟨mp, backend⟩ := build_backend h
  have mp : engine.dispatcher = mpDispatcher aps := same.dispatcher.trans mp
  have backend : engine.backend = .detect bsp := same.backend.trans backend
  constructor
  · rintro ⟨_, agrees⟩
    by_cases reaches : ReachesAttention K aps engine logits token
    · have attention := agrees _ (reaches.run mp two)
      dsimp only at attention
      rw [backend] at attention
      exact .inl attention
    · exact .inr reaches
  · intro condition
    have agrees : ∀ run ∈ dispatchRuns K aps engine logits token produceLogits,
        run.backend = negotiatedBackend aps := by
      intro run member
      rcases dispatchRuns_backend mp two member with negotiated | ⟨reaches, own⟩
      · exact negotiated
      · rcases condition with detected | stops
        · rw [own, backend, detected]
        · exact absurd reaches stops
    refine ⟨?_, agrees⟩
    intro run member avx2
    rw [agrees run member] at avx2
    exact commonAvx2_capable avx2

/-- A bootstrap processor with AVX2, enabled. -/
def avx2Cpu : Cpu := ⟨7, avxLeaf1Mask, 1 <<< 5, 6, 0, 1 <<< 18, 0, 0⟩

/-- The engine built there, next to two application processors without AVX2. -/
def mixedEngine : InferenceEngine :=
  { blankEngine with backend := .avx2, dispatcher := mpDispatcher [blankCpu, blankCpu] }

/-- The engine on the processor with AVX2 is built. -/
lemma build_mixed : InferenceEngine.build avx2Cpu blankModel (blankStorage kvBytes)
    (blankStorage scratchBytes) (mpDispatcher [blankCpu, blankCpu]) = .ok mixedEngine := rfl

/-- Its evaluation reaches the attention. -/
lemma mixed_reachesAttention :
    ReachesAttention zeroKernels [blankCpu, blankCpu] mixedEngine zeroLogits 0 := by
  refine ⟨by decide, ?_⟩
  have blank : Blank ⟨mixedEngine, zeroLogits, []⟩ := ⟨rfl, rfl, by decide⟩
  have keeps : KeepsBlank (evaluateBeforeAttention zeroKernels 0
      (.parallelOn (negotiatedBackend [blankCpu, blankCpu]))) :=
    Keeps.bind blank_evaluateEmbedding fun _ => blank_evaluateQkv (by decide)
  obtain ⟨_, ok⟩ := keeps _ blank
  rcases h : evaluateBeforeAttention zeroKernels 0
    (.parallelOn (negotiatedBackend [blankCpu, blankCpu])) ⟨mixedEngine, zeroLogits, []⟩ with
    ⟨e | _, s⟩
  · rw [h] at ok
    exact (ok e rfl).elim
  · exact ⟨s, rfl⟩

/-- The processor of the engine has AVX2, the two others have not. -/
theorem backendAgreement_iff_mixed :
    BackendAgreement [blankCpu, blankCpu]
        (dispatchRuns zeroKernels [blankCpu, blankCpu] mixedEngine zeroLogits 0 true) ↔
      InferenceBackend.detect avx2Cpu = negotiatedBackend [blankCpu, blankCpu] ∨
        ¬ReachesAttention zeroKernels [blankCpu, blankCpu] mixedEngine zeroLogits 0 :=
  backendAgreement_iff build_mixed (by decide) (.refl mixedEngine)

/-- Slot 0 runs AVX2 attention although no application processor is capable. -/
theorem mixed_backendDisagreement :
    ¬BackendAgreement [blankCpu, blankCpu]
      (dispatchRuns zeroKernels [blankCpu, blankCpu] mixedEngine zeroLogits 0 true) := by
  intro agreement
  have run : ⟨0, .avx2⟩ ∈
      dispatchRuns zeroKernels [blankCpu, blankCpu] mixedEngine zeroLogits 0 true :=
    mixed_reachesAttention.run rfl (by decide)
  have capable := agreement.safe _ run rfl blankCpu (by simp)
  revert capable
  decide

end Dispatch

end Promptboot
