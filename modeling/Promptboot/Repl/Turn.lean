import Promptboot.Repl.Controller
import Promptboot.Tokenizer.Decode

/-!
# A turn of the session

What the controller of `model_repl.rs` does with an accepted line: a command is carried out, and
any other line is a turn. `accepted_turn` renders the prompt and decides about the history,
`generate` evaluates, samples and prints token by token, and commits the turn if it ends in an end
marker.

The loop of `generate` is `generationLoop`, with `generateToken` for one turn of it; `Plan` and
`Generation` are its fixed part and its accumulator. `Controller.handle` is one accepted line and
`Controller.Reachable` the controllers that a session can come to.
-/

namespace Promptboot
namespace Repl
open Fallible

inductive HistoryDecision where
  | use (promptTokens : Nat)
  | retryFresh
  | reset (promptTokens : Nat)
  | reject (freshPromptTokens : Nat)

def decideHistory (hasHistory : Bool) (prospectiveTokens : Nat) (freshPromptTokens : Option Nat) :
    HistoryDecision :=
  if prospectiveTokens ≤ promptLimit then .use prospectiveTokens
  else if hasHistory then
    match freshPromptTokens with
    | none => .retryFresh
    | some fresh => if fresh ≤ promptLimit then .reset fresh else .reject fresh
  else .reject (freshPromptTokens.getD prospectiveTokens)

def renderedBytes : Nat := 660

/-- The slices that a rendering gets. All but the tokens are cut from the logits buffer, the scratch
memory behind 3136 bytes of it; what is in them is written before it is read. -/
def lentBuffers (tokens : List Token) : PromptBuffers where
  rendered := List.replicate renderedBytes 0
  stagingTokens := List.replicate Tokenizer.maxTokens 0
  tokens := tokens
  scratch _ := 0
  scratchAddress := 3136
  scratchLength := Tokenizer.scratchBytes
  outcome := ⟨0, 0, 0, 0, 0, 0⟩

/-- The outcome of rendering a line behind a history, into a working buffer that is clear. -/
def rendering (L : Loaded) (history : List Token) (line : List UInt8) :
    Except ModelError ConversationUsage × PromptBuffers :=
  L.index.renderConversationAndTokenize history line (lentBuffers zeroTokens)

/-- A rendering into the working buffer, which is cleared for it. -/
def renderWorking (L : Loaded) (history : List Token) (line : List UInt8) :
    TurnM (Except ModelError ConversationUsage) := fun s =>
  (.ok (rendering L history line).1, { s with working := (rendering L history line).2.tokens })

/-- The error of a prompt that is longer than the context. -/
def overflow (error : ModelError) : Bool :=
  error.status = .outputCapacity ∧ error.domain = .tokenOutput ∧ contextLimit < error.available

def isHistoryError (error : ModelError) : Bool :=
  error.status = .state ∧ error.domain = .tokenOutput ∧ error.sub = 11

/-- What a rendering that is not merely too long fails with. -/
def tokenizeError (error : ModelError) : TurnError :=
  if isHistoryError error then .ofModel "HISTORY_STATE" "history" error
  else .ofModel "TOKENIZE" "tokenize" error

/-- The length of the prompt that was rendered, or would have been. -/
def prospectiveTokens : Except ModelError ConversationUsage → Except TurnError Nat
  | .ok usage => .ok usage.promptTokens
  | .error error => if overflow error then .ok error.available else .error (tokenizeError error)

/-- `reset_conversation_for_fresh_prompt`; the resets of the engine cannot fail. -/
def resetConversation (freshPromptTokens : Nat) : TurnM Unit := fun s =>
  let (retainedPosition, engine) := s.engine.resetToPrefix
  let s := { s with
    engine, cachedLen := 0, committed := zeroTokens, committedLen := 0, historyTurns := 0 }
  if s.working.length < freshPromptTokens then
    (.ok (), { s with working := zeroTokens, engine := s.engine.reset })
  else
    let s := { s with
      working := s.working.take freshPromptTokens ++
        List.replicate (s.working.length - freshPromptTokens) 0 }
    if freshPromptTokens < retainedPosition ∨ s.engine.position ≠ retainedPosition then
      (.ok (), { s with engine := s.engine.reset })
    else
      (.ok (), s)

/-- A prompt that is ready to be evaluated. -/
structure Prepared where
  promptCount : Nat
  prefixTokens : Nat
  reset : Bool

/-- A prompt that is too long even without the history. -/
def rejectContext : TurnM (Option Prepared) := do
  emitRecord
  clearWorking
  pure none

/-- The history has to go: the prompt is rendered again without it. -/
def retryFresh (L : Loaded) (line : List UInt8) (prospective : Nat) : TurnM (Option Prepared) := do
  clearWorking
  let fresh ← renderWorking L [] line
  match prospectiveTokens fresh with
  | .error error => do
    clearWorking
    fail error
  | .ok freshTokens =>
    match decideHistory true prospective (some freshTokens) with
    | .reset promptTokens =>
      match fresh with
      | .ok usage => do
        emitRecord
        resetConversation promptTokens
        pure (some ⟨promptTokens, usage.prefixTokens, true⟩)
      | .error _ => do
        clearWorking
        fail (.utf "HISTORY_STATE")
    | .reject _ => rejectContext
    | .use _ | .retryFresh => do
      clearWorking
      fail (.utf "HISTORY_STATE")

/-- What is done with a rendering whose prompt has, or would have, `prospective` tokens. -/
def decideTurn (L : Loaded) (line : List UInt8) (hadHistory : Bool)
    (first : Except ModelError ConversationUsage) (prospective : Nat) :
    TurnM (Option Prepared) :=
  match decideHistory hadHistory prospective (if hadHistory then none else some prospective) with
  | .use promptTokens =>
    match first with
    | .ok usage => pure (some ⟨promptTokens, usage.prefixTokens, false⟩)
    | .error _ => do
      clearWorking
      fail (.utf "HISTORY_STATE")
  | .retryFresh => retryFresh L line prospective
  | .reject _ => rejectContext
  | .reset _ => do
    clearWorking
    fail (.utf "HISTORY_STATE")

/-- `emit_prompt_tokenized`, for a prompt that is evaluated. -/
def emitPromptTokenized : Option Prepared → TurnM (Option Prepared)
  | none => pure none
  | some turn => do
    emitRecord
    pure (some turn)

/-- `accepted_turn` up to the call of `generate`. -/
def prepareTurn (L : Loaded) (line : List UInt8) : TurnM (Option Prepared) := do
  writeText "\r\n"
  emitRecord
  clearWorking
  let s ← get
  let first ← renderWorking L (s.committed.take s.committedLen) line
  match prospectiveTokens first with
  | .error error => fail error
  | .ok prospective => do
    let prepared ← decideTurn L line (s.committedLen ≠ 0) first prospective
    emitPromptTokenized prepared

/-- Where the evaluation of a prompt starts: behind what the cache holds of the conversation, behind
the prefix it retains, or at the start. -/
def appendStart (s : Controller) (turn : Prepared) : Option Nat :=
  if s.cachedLen ≠ 0 ∧ s.cachedLen + 1 = s.committedLen ∧ s.cachedLen < turn.promptCount ∧
      s.engine.position = s.cachedLen ∧
      s.working.take s.cachedLen = s.committed.take s.cachedLen then
    some s.cachedLen
  else if s.cachedLen = 0 ∧ s.engine.position = turn.prefixTokens ∧
      turn.prefixTokens < turn.promptCount then
    some turn.prefixTokens
  else if s.cachedLen = 0 ∧ s.engine.position = 0 then
    some 0
  else
    none

/-- What is kept of a generated token for its record. -/
structure TraceEntry where
  id : Token
  kind : PieceKind
  pieceBytes : Nat
  utf16Units : Nat

/-- What a generation works with: the turn, where its evaluation starts, and whether it appends to
what the cache holds. -/
structure Plan extends Prepared where
  start : Nat
  append : Bool

def Plan.limit (plan : Plan) : Nat := min generationReserve (contextLimit - plan.promptCount)

/-- The local state of `generate`. The traces are those of the tokens generated so far, `previous`
is the last token sampled. -/
structure Generation where
  traces : List TraceEntry
  previous : Token
  decoder : Utf8Decoder
  previousWasCr : Bool
  visibleTokens : Nat
  committed : Bool
  interrupted : Bool
  turnError : Option TurnError

namespace Generation

def new : Generation := ⟨[], 0, .new, false, 0, false, false, none⟩

def generated (g : Generation) : Nat := g.traces.length

/-- `decoder.finish().is_err()` -/
def unfinished (g : Generation) : Bool :=
  match g.decoder.finish with
  | .error _ => true
  | .ok () => false

/-- The loop ends with an error. -/
def stop (g : Generation) (error : TurnError) : ForInStep Generation :=
  .done { g with turnError := some error }

/-- An error that comes behind the selection of a token. -/
def stopSelected (g : Generation) (error : TurnError) : ForInStep Generation :=
  g.stop (error.afterSelected g.generated g.visibleTokens)

/-- Notes an error unless there is one. -/
def note (g : Generation) (error : TurnError) : Generation :=
  let error := { error with generated := g.generated, visible := g.visibleTokens != 0 }
  if g.turnError.isNone then { g with turnError := some error } else g

end Generation

/-- The call of the engine: the prompt is evaluated first, then the last token. -/
def evaluation (L : Loaded) (plan : Plan) (g : Generation) (prompt : List Token) :
    EngineM InferenceStep :=
  if g.generated = 0 then
    if plan.append then appendPrefill L.kernels (prompt.drop plan.start) plan.limit
    else prefillWithPrefix L.kernels prompt plan.prefixTokens plan.limit
  else decodeSelected L.kernels g.previous

/-- Evaluates and samples. -/
def infer (L : Loaded) (plan : Plan) (g : Generation) : TurnM (Except TurnError Token) := do
  let s ← get
  let result ← callEngine (evaluation L plan g (s.working.take plan.promptCount))
  match result with
  | .ok _ =>
    match ← sampleToken with
    | .ok token => pure (.ok token)
    | .error error => pure (.error (.ofInference "INFERENCE_SAMPLE" "sample" error))
  | .error error =>
    if g.generated = 0 then pure (.error (.ofInference "INFERENCE_PREFILL" "prefill" error))
    else pure (.error (.ofInference "INFERENCE_DECODE" "decode" error))

/-- A token as text for the console. -/
structure Spoken where
  usage : PieceUsage
  units : List UInt16
  decoder : Utf8Decoder
  previousWasCr : Bool

/-- The units that a piece adds; an unfinished character adds none. -/
def decodeUnits (decoder : Utf8Decoder) (usage : PieceUsage) (piece : List UInt8) :
    Except Utf8Error (List UInt16 × Utf8Decoder) :=
  if usage.kind = .text then
    match decoder.push (piece.take usage.bytes) decodedUnits with
    | .error .incomplete => .ok ([], decoder)
    | result => result
  else
    .ok ([], decoder)

def speak (L : Loaded) (g : Generation) (token : Token) : Except TurnError Spoken :=
  match decodePiece L.model token (List.replicate pieceBytes 0) with
  | .error error => .error (.ofModel "PIECE_DECODE" "piece" error)
  | .ok (usage, piece) =>
    match decodeUnits g.decoder usage piece with
    | .error _ => .error (.utf "UTF8_INVALID")
    | .ok (units, decoder) =>
      match renderConsoleText units g.previousWasCr renderedUnits with
      | .error _ => .error (.simple "UTF16_CAPACITY" "output" true)
      | .ok (rendered, previousWasCr) => .ok ⟨usage, rendered, decoder, previousWasCr⟩

/-- `commit_eos` -/
def commitEos (working : List Token) (workingLen : Nat) : Option (List Token) :=
  if workingLen = 0 ∨ contextLimit < workingLen ∨ working.getD (workingLen - 1) 0 ≠ imEnd then none
  else some (working.take workingLen ++ List.replicate (contextLimit - workingLen) 0)

/-- The end marker: the turn is committed. -/
def commitTurn (plan : Plan) (g : Generation) : TurnM (ForInStep Generation) := do
  if g.unfinished then
    pure (g.stop ((TurnError.utf "UTF8_INCOMPLETE").afterSelected (g.generated - 1)
      g.visibleTokens))
  else
    let s ← get
    let workingLen := plan.promptCount + g.generated
    match commitEos s.working workingLen with
    | none =>
      match validateConversationHistory (s.working.take workingLen) with
      | .error error => pure (g.stop (.ofModel "HISTORY_STATE" "history" error))
      | .ok () =>
        match validateConversationHistory [0] with
        | .error error => pure (g.stop (.ofModel "HISTORY_STATE" "history" error))
        | .ok () => pure (g.stop (.utf "HISTORY_STATE"))
    | some committed =>
      modify fun s => { s with
        committed
        committedLen := workingLen
        historyTurns := min (s.historyTurns + 1) (2 ^ 32 - 1) }
      pure (.done { g with committed := true })

/-- `inference_status_due` -/
def inferenceStatusDue (completedTokens : Nat) : Bool :=
  completedTokens ≠ 0 ∧ completedTokens % 4 = 0

/-- `inference_step_complete` -/
def inferenceStepComplete (completedTokens : Nat) : TurnM (Except Nat Unit) :=
  if inferenceStatusDue completedTokens then outside World.status else pure (.ok ())

/-- The token as it is kept: every end token is an end marker. -/
def storedToken (token : Token) (kind : PieceKind) : Token := if kind = .eos then imEnd else token

/-- The token that was printed is kept, and ends the turn if it is an end token. -/
def keepToken (plan : Plan) (g : Generation) (spoken : Spoken) : TurnM (ForInStep Generation) := do
  modify fun s => { s with
    working := s.working.set (plan.promptCount + g.generated)
      (storedToken g.previous spoken.usage.kind) }
  let g := { g with
    traces := g.traces ++ [⟨g.previous, spoken.usage.kind, spoken.usage.bytes,
      spoken.units.length⟩] }
  match ← inferenceStepComplete g.generated with
  | .error status => pure (g.stop (.ofEfi "STATUS_RENDER" "status" status))
  | .ok () => if spoken.usage.kind = .eos then commitTurn plan g else pure (.yield g)

/-- The units of a token, if it has any. -/
def writeSpoken (units : List UInt16) : TurnM (Except Nat Unit) :=
  if units = [] then pure (.ok ()) else writeConout units

/-- The text of a token goes to the console. -/
def printToken (plan : Plan) (g : Generation) (spoken : Spoken) : TurnM (ForInStep Generation) := do
  let g := { g with decoder := spoken.decoder, previousWasCr := spoken.previousWasCr }
  match ← writeSpoken spoken.units with
  | .error status => pure (g.stopSelected (.ofEfi "CONOUT_WRITE" "output" status))
  | .ok () =>
    let g := if spoken.units = [] then g else { g with visibleTokens := g.visibleTokens + 1 }
    match ← outside World.timer with
    | .error failure =>
      pure (g.stopSelected ⟨failure.code, failure.phase, false, 0, false, failure.model,
        failure.inference, failure.efi, false⟩)
    | .ok () => keepToken plan g spoken

/-- A token is selected; the interrupt key is polled once more before it is printed. -/
def selectToken (L : Loaded) (plan : Plan) (g : Generation) (token : Token) :
    TurnM (ForInStep Generation) := do
  let g := { g with previous := token }
  match ← pollGenerationInterrupt with
  | .error error => pure (g.stop error)
  | .ok true => pure (.done { g with interrupted := true })
  | .ok false =>
    match speak L g token with
    | .error error => pure (g.stopSelected error)
    | .ok spoken => printToken plan g spoken

/-- A turn of the loop of `generate`. -/
def generateToken (L : Loaded) (plan : Plan) (g : Generation) : TurnM (ForInStep Generation) := do
  match ← pollGenerationInterrupt with
  | .error error => pure (g.stop error)
  | .ok true => pure (.done { g with interrupted := true })
  | .ok false =>
    let selected ← infer L plan g
    match ← outside World.timer with
    | .error failure =>
      resetEngine
      clearWorking
      fail ⟨failure.code, failure.phase, false, g.generated, g.visibleTokens != 0, none,
        failure.inference, failure.efi, false⟩
    | .ok () =>
      match selected with
      | .error error => pure (g.stop error)
      | .ok token => selectToken L plan g token

/-- The loop of `generate`, with the turns left to the limit. -/
def generationLoop (L : Loaded) (plan : Plan) : Nat → Generation → TurnM Generation
  | 0, g => pure g
  | turns + 1, g => do
    match ← generateToken L plan g with
    | .done g => pure g
    | .yield g => generationLoop L plan turns g

/-- An answer that ends within a character fails. -/
def Generation.endText (g : Generation) : Generation :=
  let cut := (TurnError.utf "UTF8_INCOMPLETE").afterSelected (g.generated - 1) g.visibleTokens
  if g.turnError.isNone ∧ ¬g.committed ∧ ¬g.interrupted ∧ g.unfinished then
    { g with turnError := some cut }
  else
    g

/-- Behind the loop: the cache is kept for the next turn, or the engine is reset. -/
def settleEngine (g : Generation) : TurnM Generation := do
  let s ← get
  if g.committed ∧ g.turnError.isNone then
    if s.engine.position = s.committedLen - 1 then do
      modify fun s => { s with cachedLen := s.committedLen - 1 }
      pure g
    else do
      resetEngineFresh
      resetEngine
      pure { g with turnError := some (.utf "HISTORY_STATE") }
  else do
    resetEngine
    pure g

/-- The echo of the interrupt key. -/
def echoInterrupt (g : Generation) : TurnM (Except Nat Unit) :=
  if g.interrupted then writeAscii (byteString "^C") else pure (.ok ())

/-- The line ends behind the text. -/
def closeLine (g : Generation) : TurnM Generation := do
  let echoed ← echoInterrupt g
  let g := match echoed with
    | .error status => g.note (.ofEfi "CONOUT_WRITE" "output" status)
    | .ok () => g
  match ← writeConout [13, 10] with
  | .error status => pure (g.note (.ofEfi "CONOUT_WRITE" "output" status))
  | .ok () => pure g

/-- The report of a turn that failed. -/
def reportFailure (error : TurnError) : TurnM Unit := do
  clearWorking
  match ← attempt (emitGenerationFailed error) with
  | .error _ => fail error
  | .ok () => if error.recoverable then pure () else fail { error with reported := true }

/-- The records of the tokens, and the one that ends the turn. -/
def reportTurn (g : Generation) : TurnM Unit := do
  match ← attempt (g.traces.forM fun _ => emitRecord) with
  | .error error => do
    clearWorking
    fail (g.turnError.getD error)
  | .ok _ =>
    match g.turnError with
    | none => do
      emitRecord
      clearWorking
    | some error =>
      reportFailure { error with
        generated := max error.generated g.generated
        visible := error.visible || g.visibleTokens != 0 }

/-- `emit_generation_started`, with what is undone if it fails. -/
def emitGenerationStarted : TurnM Unit :=
  onError emitRecord fun _ s =>
    { s with engine := s.engine.resetToPrefix.2, cachedLen := 0, working := zeroTokens }

def generate (L : Loaded) (turn : Prepared) : TurnM Unit := do
  let s ← get
  match appendStart s turn with
  | none => do
    resetEngineFresh
    fail (.utf "HISTORY_STATE")
  | some start =>
    let plan : Plan := ⟨turn, start, s.cachedLen ≠ 0⟩
    emitGenerationStarted
    let g ← generationLoop L plan plan.limit .new
    let g ← settleEngine g.endText
    let g ← closeLine g
    reportTurn g

def acceptedTurn (L : Loaded) (line : List UInt8) : TurnM Unit := do
  match ← prepareTurn L line with
  | none => pure ()
  | some turn => generate L turn

section Commands

def isEventToggleCommand (line : List UInt8) : Bool := line == byteString "/events"
def isHelpCommand (line : List UInt8) : Bool := line == byteString "/help"
def isNewCommand (line : List UInt8) : Bool := line == byteString "/new"
def isStatusCommand (line : List UInt8) : Bool := line == byteString "/status"

/-- A text that the session writes. -/
def say (text : String) : SessionM Unit :=
  demand (writeAscii (byteString text)) (.ofEfi "CONOUT_WRITE" "output")

/-- `set_state`: the status row shows another state. -/
def setState : SessionM Unit := demand (outside World.status) (.ofEfi "STATUS_RENDER" "status")

/-- `/events`; whether records are shown is no part of the controller. -/
def toggleEvents (enabled : Bool) : SessionM Unit := do
  say "\r\n"
  say (if enabled then "events: on\r\n" else "events: off\r\n")
  demand (outside World.console) (.ofEfi "CONOUT_WRITE" "output")

def helpLines : List String :=
  ["commands:\r\n", "/events - toggle structured event display\r\n", "/help - show this help\r\n",
    "/new - clear the session and scrollback\r\n", "/status - show runtime statistics\r\n",
    "Ctrl-C - stop generation\r\n", "Page Up/Page Down - scroll output\r\n"]

def showHelp : SessionM Unit := do
  say "\r\n"
  helpLines.forM say

/-- `emit_runtime_status` measures the memory, prints the state and records it. -/
def emitRuntimeStatus : SessionM Unit := demand (outside World.runtimeStatus) id

/-- `/new` -/
def newSession : SessionM Unit := do
  resetEngineFresh
  modify fun s => { s with
    committed := zeroTokens, working := zeroTokens, committedLen := 0, historyTurns := 0 }
  demand (outside World.console) (.ofEfi "CONOUT_CLEAR" "output")
  say "new session\r\n"
  setState

end Commands

inductive TurnCompletion where
  | success | recoverableFailure | fatalFailure
  deriving DecidableEq

def completion : Except TurnError Unit → TurnCompletion
  | .ok () => .success
  | .error error => if error.recoverable then .recoverableFailure else .fatalFailure

def waitingRenderFailureIsTerminal (turn : TurnCompletion) : Bool := turn ≠ .fatalFailure

/-- A turn that failed and lets the session go on. -/
def recoverTurn (error : TurnError) : SessionM Unit := do
  clearWorking
  if error.reported then
    pure ()
  else
    match ← attempt (emitGenerationFailed error) with
    | .ok () => pure ()
    | .error _ => fail (.simple "EVIDENCE_RECORD" "record")

/-- A turn that failed and ends the session. -/
def abandonTurn (error : TurnError) : SessionM Unit := do
  clearWorking
  if error.reported ∨ error.code = "EVIDENCE_RECORD" ∨ error.code = "MODEL_TIMER" then
    fail (.ofTurn error)
  else
    match ← attempt (emitGenerationFailed error) with
    | .ok () => fail (.ofTurn { error with reported := true })
    | .error _ => fail (.ofTurn (.ofEfi "EVIDENCE_RECORD" "record" efiDeviceError))

def finishTurn : Except TurnError Unit → SessionM Unit
  | .ok () => pure ()
  | .error error => if error.recoverable then recoverTurn error else abandonTurn error

/-- A line that is no command. -/
def takeTurn (L : Loaded) (line : List UInt8) : SessionM Unit := do
  setState
  let turn ← attempt (acceptedTurn L line)
  match ← outside World.status with
  | .error status =>
    if waitingRenderFailureIsTerminal (completion turn) then
      fail (.ofEfi "STATUS_RENDER" "status" status)
    else
      finishTurn turn
  | .ok () => finishTurn turn

/-- What is done with an accepted line; `enabled` is the state that `/events` switches to. -/
def carryOut (L : Loaded) (enabled : Bool) (line : List UInt8) : SessionM Unit :=
  if isEventToggleCommand line then toggleEvents enabled
  else if isHelpCommand line then showHelp
  else if isStatusCommand line then emitRuntimeStatus
  else if isNewCommand line then newSession
  else takeTurn L line

/-- A call from the editor. -/
inductive Call where
  | liveAscii (byte : UInt8)
  | eraseLast
  | accepted (enabled : Bool) (line : List UInt8)
  | rejected
  | prompt

def Call.run (L : Loaded) : Call → SessionM Unit
  | liveAscii byte => demand (writeAscii [byte]) (.ofEfi "CONOUT_WRITE" "output")
  | eraseLast => demand (writeAscii [8, 32, 8]) (.ofEfi "CONOUT_WRITE" "output")
  | accepted enabled line => carryOut L enabled line
  | rejected => do
    say "\r\n"
    demand (outside World.record) (.ofEfi "EVIDENCE_RECORD" "record")
  | prompt => do
    demand (outside World.record) (.ofEfi "EVIDENCE_RECORD" "record")
    say "promptboot> "

/-- A call to a controller that has not ended the session; what ends it stays in `terminal`. -/
def Controller.handle (L : Loaded) (call : Call) (s : Controller) : Controller :=
  if s.terminal.isSome then s
  else
    match call.run L s with
    | (.ok (), s) => s
    | (.error failure, s) => { s with terminal := some failure }

/-- The controller of a session that starts. -/
def Controller.new (engine : InferenceEngine) (world : World) : Controller where
  engine := engine
  committed := zeroTokens
  working := zeroTokens
  committedLen := 0
  cachedLen := 0
  historyTurns := 0
  terminal := none
  world := world

/-- The controllers that a session can come to, with an engine that was just built. -/
inductive Controller.Reachable (L : Loaded) : Controller → Prop
  | new {cpu : Cpu} {kv scratch : Storage} {dispatcher : Option InferenceDispatcher}
      {engine : InferenceEngine} (world : World) :
    InferenceEngine.build cpu L.model kv scratch dispatcher = .ok engine →
    Reachable L (.new engine world)
  | handle {s : Controller} (call : Call) : Reachable L s → Reachable L (s.handle L call)

end Repl
end Promptboot
