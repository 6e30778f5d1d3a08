import Promptboot.Engine.Evaluate

/-!
# Engine operations

The public methods of `InferenceEngine` (`inference.rs`): the two prefills, the append, the two
decodes and the two resets. A method first rejects what it cannot run, by a check on the engine as
it is, and evaluates only then; the checks of each method are a definition of their own.
`EngineOp` is one call with its arguments and its logits buffer, `runOps` a sequence of calls.

The rejections are definitions of their own (`InferenceEngine.prefillRejection`,
`InferenceEngine.decodeRejection`, `InferenceEngine.retainedValid`) because the theorems about the
calls speak of them: a call that is rejected leaves the engine in the state that `fault` or the
check says.
-/

namespace Promptboot
open Fallible

/-- `state_error` -/
def InferenceEngine.stateError (engine : InferenceEngine) (needed : InferenceState) (sub : Nat) :
    InferenceError :=
  ⟨.state, .prompt, noLayer, engine.position, noTensor, needed.ctorIdx, engine.state.ctorIdx, .state,
    sub⟩

/-- `fault`: what is left of the engine and of the logits when an evaluation fails. -/
def fault (s : Evaluation) : Evaluation :=
  { s with
    engine := { s.engine with
      scratch := .zero
      state := .faulted
      retainedPrefix := .empty }
    logits := List.replicate s.logits.length 0 }

/-- `publish_step` -/
def publishStep (K : Kernels) : EngineM InferenceStep := fun s =>
  match injectAndCheck .argmax noLayer 290 s.engine.position s.logits with
  | some error => (.error error, fault s)
  | none =>
    let selected := inferenceArgmax K s.logits
    let eos := UInt32.ofNat selected == s.engine.model.config.eos
    (.ok ⟨s.engine.position, .ofNat selected, s.logits.getD selected 0, eos⟩,
      { s with
        engine := { s.engine with
          lastSelected := .ofNat selected
          state := if eos then .eos else .ready } })

/-- The first token outside the vocabulary, as an error at its position. -/
def tokenRejection (start : Nat) (promptTokens : List Token) : Option InferenceError :=
  (promptTokens.zipIdx.find? fun (token, _) => vocabCount ≤ token.toNat).map fun (token, index) =>
    ⟨.tokenId, .prompt, noLayer, start + index, noTensor, vocabCount, token.toNat, .token, 0⟩

/-- The checks of `prefill_inner`. -/
def InferenceEngine.prefillRejection (engine : InferenceEngine) (promptTokens : List Token)
    (generationReserve logitsLength : Nat) (append : Bool) : Option InferenceError :=
  let start := engine.position
  let total := start + promptTokens.length + generationReserve
  if ¬(1 ≤ generationReserve ∧ generationReserve ≤ contextLimit) then
    some ⟨.context, .prompt, noLayer, start, noTensor,
      if generationReserve = 0 then 1 else contextLimit, generationReserve, .reserve, 0⟩
  else if promptTokens = [] then
    some ⟨.context, .prompt, noLayer, start, noTensor, 1, 0, .context, 0⟩
  else if append = false ∧ contextLimit ≤ promptTokens.length then
    some ⟨.context, .prompt, noLayer, 0, noTensor, contextLimit - 1, promptTokens.length, .context,
      0⟩
  else if contextLimit < total then
    some ⟨.context, .prompt, noLayer, start, noTensor, contextLimit, total, .context, 1⟩
  else
    (logitsError logitsLength start).or (tokenRejection start promptTokens)

/-- The evaluations of a prompt; only the last token is asked for its logits. -/
def evaluatePrompt (K : Kernels) (promptTokens : List Token) : EngineM Unit :=
  promptTokens.zipIdx.forM fun (token, index) =>
    evaluate K token (index + 1 == promptTokens.length)

/-- `prefill_inner` after its checks. -/
def prefillAccepted (K : Kernels) (promptTokens : List Token) (generationReserve : Nat) :
    EngineM InferenceStep := do
  modify fun s => { s with engine := { s.engine with generationReserve, predictionsEmitted := 0 } }
  onError (evaluatePrompt K promptTokens) fun _ => fault
  modify fun s => { s with engine := { s.engine with predictionsEmitted := 1 } }
  publishStep K

/-- A method that runs what its checks let through. -/
def accepting (rejection : Option InferenceError) (run : EngineM InferenceStep) :
    EngineM InferenceStep := fun s =>
  match rejection with
  | some error => (.error error, s)
  | none => run s

def prefillInner (K : Kernels) (promptTokens : List Token) (generationReserve : Nat)
    (append : Bool) : EngineM InferenceStep := fun s =>
  accepting (s.engine.prefillRejection promptTokens generationReserve s.logits.length append)
    (prefillAccepted K promptTokens generationReserve) s

def prefill (K : Kernels) (promptTokens : List Token) (generationReserve : Nat) :
    EngineM InferenceStep := fun s =>
  match s.engine.state with
  | .faulted => (.error (s.engine.stateError .reset 3), s)
  | .ready | .eos => (.error (s.engine.stateError .reset 1), s)
  | .reset => prefillInner K promptTokens generationReserve false s

/-- `reset_state` -/
def InferenceEngine.resetState (engine : InferenceEngine) : InferenceEngine :=
  { engine with
    scratch := .zero
    position := 0
    generationReserve := 0
    predictionsEmitted := 0
    lastSelected := 0
    state := .reset
    retainedPrefix := .empty }

/-- `reset` cannot fail. -/
def InferenceEngine.reset (engine : InferenceEngine) : InferenceEngine := engine.resetState

/-- When the KV rows of the retained prefix can be kept. -/
def InferenceEngine.retainedValid (engine : InferenceEngine) : Bool :=
  let retained := engine.retainedPrefix.len
  match engine.state with
  | .reset => retained ≠ 0 ∧ engine.position = retained
  | .ready | .eos => retained ≠ 0 ∧ retained ≤ engine.position ∧ engine.position ≤ contextLimit
  | .faulted => false

/-- `reset_to_prefix`, with the position it returns. -/
def InferenceEngine.resetToPrefix (engine : InferenceEngine) : Nat × InferenceEngine :=
  if engine.retainedValid then
    (engine.retainedPrefix.len,
      { engine with
        scratch := .zero
        position := engine.retainedPrefix.len
        generationReserve := 0
        predictionsEmitted := 0
        lastSelected := 0
        state := .reset })
  else
    (0, engine.resetState)

/-- Whether a call finds the rows of its prefix in place. -/
def InferenceEngine.reuses (engine : InferenceEngine) (promptTokens : List Token)
    (prefixTokens : Nat) : Bool :=
  engine.state = .reset ∧ engine.position = engine.retainedPrefix.len ∧
    engine.retainedPrefix.len = prefixTokens ∧
    engine.retainedPrefix.tokens.toList.take prefixTokens = promptTokens.take prefixTokens

/-- The retained prefix of a successful call. -/
def RetainedPrefix.of (promptTokens : List Token) (prefixTokens : Nat) : RetainedPrefix where
  len := prefixTokens
  tokens := Vector.ofFn fun i => if i < prefixTokens then promptTokens.getD i 0 else 0

/-- The error of a prefix that is empty, leaves nothing to evaluate, or is too long to retain. -/
def prefixError (prefixTokens : Nat) : InferenceError :=
  ⟨.context, .prompt, noLayer, 0, noTensor, 1, prefixTokens, .context, 3⟩

/-- A prefill that retains its prefix if it succeeds. -/
def prefillRetaining (K : Kernels) (promptTokens : List Token)
    (prefixTokens generationReserve : Nat) : EngineM InferenceStep := do
  let step ← prefill K promptTokens generationReserve
  modify fun s =>
    { s with engine := { s.engine with retainedPrefix := .of promptTokens prefixTokens } }
  pure step

def prefillWithPrefix (K : Kernels) (promptTokens : List Token)
    (prefixTokens generationReserve : Nat) : EngineM InferenceStep := fun s =>
  let cleared := { s with engine := s.engine.resetState }
  if prefixTokens = 0 ∨ promptTokens.length ≤ prefixTokens ∨ maxTokens < prefixTokens then
    (.error (prefixError prefixTokens), cleared)
  else if s.engine.retainedPrefix.len = 0 then
    prefillRetaining K promptTokens prefixTokens generationReserve s
  else if s.engine.reuses promptTokens prefixTokens then
    prefillInner K (promptTokens.drop prefixTokens) generationReserve true s
  else if s.engine.state ≠ .reset then
    (.error (s.engine.stateError .reset 4), cleared)
  else
    prefillRetaining K promptTokens prefixTokens generationReserve cleared

def appendPrefill (K : Kernels) (promptTokens : List Token) (generationReserve : Nat) :
    EngineM InferenceStep := fun s =>
  match s.engine.state with
  | .faulted => (.error (s.engine.stateError .reset 3), s)
  | .reset => (.error (s.engine.stateError .ready 0), s)
  | .ready | .eos => prefillInner K promptTokens generationReserve true s

/-- The checks of `decode_inner`. -/
def InferenceEngine.decodeRejection (engine : InferenceEngine) (token : Token) (logitsLength : Nat)
    (requirePreviousGreedy : Bool) : Option InferenceError :=
  if engine.state = .faulted then
    some (engine.stateError .reset 3)
  else if engine.state = .eos ∧ requirePreviousGreedy then
    some (engine.stateError .ready 2)
  else if engine.state = .reset then
    some (engine.stateError .ready 0)
  else if vocabCount ≤ token.toNat then
    some ⟨.tokenId, .prompt, noLayer, engine.position, noTensor, vocabCount, token.toNat, .token, 1⟩
  else if requirePreviousGreedy ∧ token ≠ engine.lastSelected then
    some ⟨.state, .argmax, noLayer, engine.position, noTensor, engine.lastSelected.toNat, token.toNat,
      .selected, 0⟩
  else if engine.generationReserve ≤ engine.predictionsEmitted then
    some ⟨.context, .prompt, noLayer, engine.position, noTensor, engine.generationReserve,
      engine.predictionsEmitted, .reserve, 1⟩
  else if contextLimit ≤ engine.position then
    some ⟨.context, .kv, noLayer, engine.position, noTensor, contextLimit, engine.position, .context,
      2⟩
  else
    logitsError logitsLength engine.position

/-- `decode_inner` after its checks. -/
def decodeAccepted (K : Kernels) (token : Token) : EngineM InferenceStep := do
  onError (evaluate K token true) fun _ => fault
  modify fun s => { s with
    engine := { s.engine with predictionsEmitted := s.engine.predictionsEmitted + 1 } }
  publishStep K

def decodeInner (K : Kernels) (token : Token) (requirePreviousGreedy : Bool) :
    EngineM InferenceStep := fun s =>
  accepting (s.engine.decodeRejection token s.logits.length requirePreviousGreedy)
    (decodeAccepted K token) s

def decode (K : Kernels) (token : Token) : EngineM InferenceStep := decodeInner K token true

def decodeSelected (K : Kernels) (token : Token) : EngineM InferenceStep := decodeInner K token false

/-- One call of a public method, with its logits buffer where it takes one. -/
inductive EngineOp where
  | prefill (promptTokens : List Token) (generationReserve : Nat) (logits : List Word)
  | prefillWithPrefix (promptTokens : List Token) (prefixTokens generationReserve : Nat)
      (logits : List Word)
  | appendPrefill (promptTokens : List Token) (generationReserve : Nat) (logits : List Word)
  | decode (token : Token) (logits : List Word)
  | decodeSelected (token : Token) (logits : List Word)
  | reset
  | resetToPrefix

/-- The error of a method, if it returns one, and what the call leaves. -/
def outcome (method : EngineM InferenceStep) (engine : InferenceEngine) (logits : List Word) :
    Option InferenceError × Evaluation :=
  match method ⟨engine, logits, []⟩ with
  | (.ok _, s) => (none, s)
  | (.error error, s) => (some error, s)

def EngineOp.call (K : Kernels) (engine : InferenceEngine) :
    EngineOp → Option InferenceError × Evaluation
  | .prefill promptTokens generationReserve logits =>
    outcome (Promptboot.prefill K promptTokens generationReserve) engine logits
  | .prefillWithPrefix promptTokens prefixTokens generationReserve logits =>
    outcome (Promptboot.prefillWithPrefix K promptTokens prefixTokens generationReserve) engine
      logits
  | .appendPrefill promptTokens generationReserve logits =>
    outcome (Promptboot.appendPrefill K promptTokens generationReserve) engine logits
  | .decode token logits => outcome (Promptboot.decode K token) engine logits
  | .decodeSelected token logits => outcome (Promptboot.decodeSelected K token) engine logits
  | .reset => (none, ⟨engine.reset, [], []⟩)
  | .resetToPrefix => (none, ⟨engine.resetToPrefix.2, [], []⟩)

/-- A sequence of calls; every call may meet other floating-point results. -/
def runOps (engine : InferenceEngine) (calls : List (Kernels × EngineOp)) : InferenceEngine :=
  calls.foldl (fun engine (K, op) => (op.call K engine).2.engine) engine

end Promptboot
