import Promptboot.Engine.Kv

/-!
# Token evaluation

`evaluate_inner` (`inference.rs`) as a computation over the engine, the caller's logits and a
record of the vector kernels it ran: the embedding row, the decoder layers with their KV stores
and attention, the optional logits, and the bookkeeping that ends a successful evaluation. The
layer body is cut at the attention kernel, and `evaluate` chooses between the serial coordinator
and the dispatcher.

`evaluate_eq` is the one lemma that the specifications use of `evaluate`: which coordinator runs,
and when the dispatcher's answer is an error. `runMatvecRows_of_lt` and `runMatvecRows_of_le` say
what a row of a product holds.
-/

namespace Promptboot

/-- One matrix-vector product: the descriptor that the workers of a job share. -/
structure MatvecJob where
  weights : List UInt8
  prepared : Vector UInt8 q8StagingBytes
  rows : Nat
  columns : Nat
  q8 : Bool

/-- The value of one output row. -/
def MatvecJob.row (K : Kernels) (job : MatvecJob) (backend : InferenceBackend) (row : Nat) : Word :=
  if job.q8 then
    K.q8MatvecRow backend job.weights job.prepared job.columns row
  else
    K.q4MatvecRow backend job.weights job.prepared job.columns row

/-- `run_matvec_rows` on the output memory: writes the rows from `first` up to `stop`. -/
def runMatvecRows (K : Kernels) (job : MatvecJob) (backend : InferenceBackend) (first stop : Nat)
    (output : Nat → Word) : Nat → Word :=
  Memory.writeAll output (List.range' first (stop - first)) id (job.row K backend)

/-- A row of the job is computed. -/
lemma runMatvecRows_of_lt {K : Kernels} {job : MatvecJob} {backend : InferenceBackend} {row : Nat}
    {out : Nat → Word} (h : row < job.rows) :
    runMatvecRows K job backend 0 job.rows out row = job.row K backend row := by
  apply Memory.writeAll_of_mem ⟨row, List.mem_range'_1.mpr (by omega), rfl⟩
  rintro i _ rfl
  rfl

/-- A row past the job is left. -/
lemma runMatvecRows_of_le {K : Kernels} {job : MatvecJob} {backend : InferenceBackend} {row : Nat}
    {out : Nat → Word} (h : job.rows ≤ row) :
    runMatvecRows K job backend 0 job.rows out row = out row := by
  apply Memory.writeAll_of_ne
  rintro i mem rfl
  have below := List.mem_range'_1.mp mem
  simp only [id] at h
  omega

/-- A vector kernel that an evaluation ran, with the backend it was compiled for. -/
inductive VectorRun where
  | matvec (backend : InferenceBackend) (rows : Nat)
  | attention (backend : InferenceBackend) (layer : Nat)
  deriving DecidableEq, Repr

def VectorRun.backend : VectorRun → InferenceBackend
  | .matvec backend _ => backend
  | .attention backend _ => backend

/-- How an evaluation runs its matrix-vector products. -/
structure TokenCoordinator where
  backend : InferenceBackend
  parallel : Bool
  deriving DecidableEq, Repr

def TokenCoordinator.serialOn (backend : InferenceBackend) : TokenCoordinator := ⟨backend, false⟩

/-- The coordinator of a job that the workers entered with `backend`. -/
def TokenCoordinator.parallelOn (backend : InferenceBackend) : TokenCoordinator := ⟨backend, true⟩

/-- The state of an evaluation: the engine, the caller's logits, and the vector kernels run. -/
structure Evaluation where
  engine : InferenceEngine
  logits : List Word
  vectorRuns : List VectorRun

/-- A method of the engine that takes the caller's logits. -/
abbrev EngineM := Fallible Evaluation InferenceError

open Fallible

/-- `tensor` of the engine: a failed lookup names its domain. -/
def engineTensor (id : Nat) (domain : InferenceDomain) (layer : Nat) : EngineM TensorView :=
  lift fun s =>
    match s.engine.model.tensor id with
    | .ok view => .ok view
    | .error error =>
      .error ⟨.model, domain, layer, s.engine.position, id, id, error.available, .tensor, 0⟩

/-- `layer_tensor` -/
def layerTensor (layer role : Nat) (domain : InferenceDomain) : EngineM TensorView :=
  lift fun s =>
    match s.engine.model.tensorFor layer role with
    | .ok view => .ok view
    | .error error =>
      .error ⟨.model, domain, layer, s.engine.position, noTensor, role, error.available, .tensor, 0⟩

def currentPosition : EngineM Nat := lift fun s => .ok s.engine.position

/-- Raises the scratch high-water mark. -/
def touchScratch (stop : Nat) : EngineM Unit :=
  modify fun s => { s with
    engine := { s.engine with scratchHighWater := max s.engine.scratchHighWater stop } }

/-- Writes scratch regions from scratch regions. -/
def onScratch (f : Scratch → Scratch) : EngineM Unit :=
  modify fun s => { s with engine := { s.engine with scratch := f s.engine.scratch } }

/-- `inject_and_check`: the first value that is not finite, as an error. -/
def injectAndCheck (domain : InferenceDomain) (layer tensorId position : Nat)
    (values : List Word) : Option InferenceError :=
  match values.zipIdx.find? fun (bits, _) => !finite bits with
  | none => none
  | some (bits, index) =>
    let status := if domain.ctorIdx ≤ InferenceDomain.down.ctorIdx then
      InferenceStatus.nonfiniteInput else InferenceStatus.nonfiniteOutput
    some ⟨status, domain, layer, position, tensorId, 0, bits.toNat, .finite, index⟩

/-- `check` on a scratch region -/
def check (domain : InferenceDomain) (layer tensorId : Nat) (values : Scratch → List Word) :
    EngineM Unit :=
  lift fun s =>
    match injectAndCheck domain layer tensorId s.engine.position (values s.engine.scratch) with
    | some error => .error error
    | none => .ok ()

/-- `TokenCoordinator::q4` and `q8`: the rows of a product replace those of an output region. The
serial coordinator computes them itself, the parallel one publishes the job. Both are the serial
product here: however the processors' steps are interleaved, a job that has ended has computed each
row as the serial product does (`run_correct` of `Workers.Progress`). -/
def TokenCoordinator.run (K : Kernels) (coordinator : TokenCoordinator) (job : Scratch → MatvecJob)
    (store : (Nat → Word → Word) → Scratch → Scratch) : EngineM Unit :=
  modify fun s =>
    let job := job s.engine.scratch
    { s with
      engine := { s.engine with
        scratch := store
          (fun row old => runMatvecRows K job coordinator.backend 0 job.rows (fun _ => old) row)
          s.engine.scratch }
      vectorRuns := s.vectorRuns ++ [.matvec coordinator.backend job.rows] }

/-- A Q4 job on the staged activations. -/
def q4Job (weight : TensorView) (rows columns : Nat) (scratch : Scratch) : MatvecJob :=
  ⟨weight.data, scratch.q8Staging, rows, columns, false⟩

/-- `write_kv` of the K and V regions. -/
def writeKv (layer : Nat) : EngineM Unit := do
  lift fun s =>
    match writeKvError layer s.engine.position with
    | some error => .error error
    | none => .ok ()
  modify fun s => { s with
    engine := { s.engine with
      kv := storeKv s.engine.kv layer s.engine.position s.engine.scratch.k s.engine.scratch.v } }

/-- The attention kernel, compiled for the engine's own backend. -/
def runAttention (K : Kernels) (layer : Nat) : EngineM Unit :=
  modify fun s =>
    let scratch := s.engine.scratch
    let (output, scores) := K.attention s.engine.backend scratch.q
      (liveKv s.engine.kv layer s.engine.position) scratch.scores
    { s with
      engine := { s.engine with scratch := { scratch with attention := output, scores } }
      vectorRuns := s.vectorRuns ++ [.attention s.engine.backend layer] }

/-- The first part of a decoder layer, up to its KV store. -/
def evaluateQkv (K : Kernels) (coordinator : TokenCoordinator) (layer : Nat) : EngineM Unit := do
  onScratch fun r => { r with residual := r.hidden }
  let attnNorm ← layerTensor layer 10 .attnNorm
  touchScratch normEnd
  onScratch fun r => { r with norm := K.rmsnorm r.hidden attnNorm.data }
  check .attnNorm layer attnNorm.info.id.toNat fun r => r.norm.toList
  let qWeight ← layerTensor layer 19 .q
  touchScratch usedScratch
  onScratch fun r => { r with q8Staging := K.prepareQ8 r.norm.toList }
  coordinator.run K (q4Job qWeight hiddenWords hiddenWords) fun out r =>
    { r with q := r.q.mapIdx out }
  let qBias ← layerTensor layer 18 .q
  onScratch fun r => { r with q := K.addBias r.q qBias.data }
  check .q layer qWeight.info.id.toNat fun r => r.q.toList
  let kWeight ← layerTensor layer 16 .k
  coordinator.run K (q4Job kWeight kvRowWords hiddenWords) fun out r =>
    { r with k := r.k.mapIdx out }
  let kBias ← layerTensor layer 15 .k
  onScratch fun r => { r with k := K.addBias r.k kBias.data }
  check .k layer kWeight.info.id.toNat fun r => r.k.toList
  let vWeight ← layerTensor layer 21 .v
  coordinator.run K (q4Job vWeight kvRowWords hiddenWords) fun out r =>
    { r with v := r.v.mapIdx out }
  let vBias ← layerTensor layer 20 .v
  onScratch fun r => { r with v := K.addBias r.v vBias.data }
  check .v layer vWeight.info.id.toNat fun r => r.v.toList
  let position ← currentPosition
  onScratch fun r => { r with q := K.ropeInPlace r.q queryHeads position }
  onScratch fun r => { r with k := K.ropeInPlace r.k kvHeads position }
  check .rope layer qWeight.info.id.toNat fun r => r.q.toList
  check .rope layer kWeight.info.id.toNat fun r => r.k.toList
  check .kv layer kWeight.info.id.toNat fun r => r.k.toList
  writeKv layer

/-- The output projection of attention. -/
def projectAttention (K : Kernels) (coordinator : TokenCoordinator) (layer : Nat) :
    EngineM Unit := do
  check .attention layer noTensor fun r => r.attention.toList
  let attnOutput ← layerTensor layer 17 .attnOutput
  onScratch fun r => { r with q8Staging := K.prepareQ8 r.attention.toList }
  coordinator.run K (q4Job attnOutput hiddenWords hiddenWords) fun out r =>
    { r with norm := r.norm.mapIdx out }
  onScratch fun r => { r with hidden := K.addResidual r.residual r.norm }
  check .attnOutput layer attnOutput.info.id.toNat fun r => r.hidden.toList

/-- The middle of a decoder layer: attention and its output projection. -/
def evaluateAttention (K : Kernels) (coordinator : TokenCoordinator) (layer : Nat) :
    EngineM Unit := do
  runAttention K layer
  projectAttention K coordinator layer

/-- The end of a decoder layer: the gated feed-forward network. -/
def evaluateFeedForward (K : Kernels) (coordinator : TokenCoordinator) (layer : Nat) :
    EngineM Unit := do
  onScratch fun r => { r with residual := r.hidden }
  let ffnNorm ← layerTensor layer 14 .ffnNorm
  onScratch fun r => { r with norm := K.rmsnorm r.hidden ffnNorm.data }
  check .ffnNorm layer ffnNorm.info.id.toNat fun r => r.norm.toList
  let gateWeight ← layerTensor layer 12 .gate
  onScratch fun r => { r with q8Staging := K.prepareQ8 r.norm.toList }
  coordinator.run K (q4Job gateWeight ffnWords hiddenWords) fun out r =>
    { r with gate := r.gate.mapIdx out }
  check .gate layer gateWeight.info.id.toNat fun r => r.gate.toList
  let upWeight ← layerTensor layer 13 .up
  coordinator.run K (q4Job upWeight ffnWords hiddenWords) fun out r =>
    { r with up := r.up.mapIdx out }
  check .up layer upWeight.info.id.toNat fun r => r.up.toList
  onScratch fun r => { r with product := K.swiglu r.gate r.up }
  check .swiglu layer gateWeight.info.id.toNat fun r => r.product.toList
  let downWeight ← layerTensor layer 11 .down
  onScratch fun r => { r with q8Staging := K.prepareQ8 r.product.toList }
  coordinator.run K (q4Job downWeight hiddenWords ffnWords) fun out r =>
    { r with norm := r.norm.mapIdx out }
  onScratch fun r => { r with hidden := K.addResidual r.residual r.norm }
  check .down layer downWeight.info.id.toNat fun r => r.hidden.toList

def evaluateLayer (K : Kernels) (coordinator : TokenCoordinator) (layer : Nat) : EngineM Unit := do
  evaluateQkv K coordinator layer
  evaluateAttention K coordinator layer
  evaluateFeedForward K coordinator layer

/-- The embedding row that evaluation starts from. -/
def evaluateEmbedding (K : Kernels) (token : Token) : EngineM Unit := do
  let embedding ← engineTensor 0 .embedding noLayer
  touchScratch hiddenEnd
  onScratch fun r => { r with hidden := K.q4Row embedding.data token.toNat }
  check .embedding noLayer 0 fun r => r.hidden.toList

/-- `position.checked_add(1)` on 32 bits. -/
def checkedNextPosition : EngineM Nat :=
  lift fun s =>
    if s.engine.position + 1 < 2 ^ 32 then
      .ok (s.engine.position + 1)
    else
      .error ⟨.arithmetic, .prompt, noLayer, s.engine.position, noTensor, s.engine.position, 1, .add,
        0⟩

/-- The output product into the caller's logits. -/
def runOutput (K : Kernels) (coordinator : TokenCoordinator) (output : TensorView) : EngineM Unit :=
  modify fun s =>
    let job : MatvecJob := ⟨output.data, s.engine.scratch.q8Staging, logitWords, hiddenWords, true⟩
    { s with
      logits := s.logits.mapIdx fun row old =>
        runMatvecRows K job coordinator.backend 0 job.rows (fun _ => old) row
      vectorRuns := s.vectorRuns ++ [.matvec coordinator.backend job.rows] }

/-- `inject_and_check` on the caller's logits. -/
def checkLogits (domain : InferenceDomain) : EngineM Unit :=
  lift fun s =>
    match injectAndCheck domain noLayer 290 s.engine.position s.logits with
    | some error => .error error
    | none => .ok ()

/-- The final norm and the logits of the last token of a request. -/
def evaluateLogits (K : Kernels) (coordinator : TokenCoordinator) : EngineM Unit := do
  let outputNorm ← engineTensor 289 .outputNorm noLayer
  onScratch fun r => { r with norm := K.rmsnorm r.hidden outputNorm.data }
  check .outputNorm noLayer 289 fun r => r.norm.toList
  let output ← engineTensor 290 .logits noLayer
  onScratch fun r => { r with q8Staging := K.prepareQ8 r.norm.toList }
  runOutput K coordinator output
  checkLogits .logits

/-- Advances the position and clears the scratch arena. -/
def finishEvaluation (nextPosition : Nat) : EngineM Unit :=
  modify fun s => { s with
    engine := { s.engine with
      position := nextPosition
      kvHighWater := max s.engine.kvHighWater (nextPosition * kvWordsPerPosition * 4)
      scratch := .zero } }

/-- The logits, for the tokens that are asked for them. -/
def evaluateOutput (K : Kernels) (coordinator : TokenCoordinator) (produceLogits : Bool) :
    EngineM Unit :=
  if produceLogits then evaluateLogits K coordinator else pure ()

/-- Everything that can fail in an evaluation; returns the next position. -/
def evaluateBody (K : Kernels) (token : Token) (produceLogits : Bool)
    (coordinator : TokenCoordinator) : EngineM Nat := do
  evaluateEmbedding K token
  (List.range layers).forM (evaluateLayer K coordinator)
  let nextPosition ← checkedNextPosition
  evaluateOutput K coordinator produceLogits
  pure nextPosition

def evaluateInner (K : Kernels) (token : Token) (produceLogits : Bool)
    (coordinator : TokenCoordinator) : EngineM Unit := do
  let nextPosition ← evaluateBody K token produceLogits coordinator
  finishEvaluation nextPosition

/-- The error of a callback that came back without a result. -/
def dispatchError (position : Nat) : InferenceError :=
  ⟨.state, .prompt, noLayer, position, noTensor, 1, 0, .state, 6⟩

/-- `evaluate`: through the dispatcher slot 0 runs `coordinate_engine` on the backend the workers
entered the job with; a callback that came back without it leaves no result. -/
def evaluate (K : Kernels) (token : Token) (produceLogits : Bool) : EngineM Unit := fun s =>
  match s.engine.dispatcher with
  | some dispatcher =>
    if dispatcher.completes token s.engine.position then
      evaluateInner K token produceLogits (.parallelOn dispatcher.backend) s
    else
      (.error (dispatchError s.engine.position), s)
  | none => evaluateInner K token produceLogits (.serialOn s.engine.backend) s

/-- The coordinator that `evaluate` runs a token with. -/
def InferenceEngine.coordinator (engine : InferenceEngine) : TokenCoordinator :=
  match engine.dispatcher with
  | some dispatcher => .parallelOn dispatcher.backend
  | none => .serialOn engine.backend

/-- Whether the callback, if there is one, runs a token at the engine's position. -/
def InferenceEngine.dispatches (engine : InferenceEngine) (token : Token) : Bool :=
  match engine.dispatcher with
  | some dispatcher => dispatcher.completes token engine.position
  | none => true

/-- `evaluate` is `evaluateInner`, unless the callback came back without a result. -/
lemma evaluate_eq (K : Kernels) (token : Token) (produceLogits : Bool) (s : Evaluation) :
    evaluate K token produceLogits s =
      if s.engine.dispatches token then
        evaluateInner K token produceLogits s.engine.coordinator s
      else
        (.error (dispatchError s.engine.position), s) := by
  unfold evaluate InferenceEngine.coordinator InferenceEngine.dispatches
  cases s.engine.dispatcher with
  | none => rw [if_pos rfl]
  | some d => rfl

end Promptboot
