import Promptboot.Repl.Turn

/-!
# A step of a generation

What a turn of the loop of `generate` can do, once for all of its exits: it stops with the history
as it was, it keeps a token and goes on, or it keeps an end marker and commits the turn.

`Asks` is what a call of the outside keeps and `Outward` what a stretch of such calls keeps, each
with its rules; `Still` says that history and cache are untouched. `infer_outcome`,
`keepToken_outcome` and `selectToken_outcome` are the parts of a turn of the loop, and the headline
`generateToken_outcome` is its inversion lemma.
-/

namespace Promptboot
namespace Repl
open Fallible

section Outward

variable {ε α β : Type}

/-- The controller after some calls to the outside. -/
def Controller.atClock (s : Controller) (n : Nat) : Controller :=
  { s with world := { s.world with clock := n } }

/-- The computation only asks the outside, and goes on whatever the answers are. -/
def Asks (c : Fallible Controller ε α) : Prop := ∀ s, ∃ a n, c s = (.ok a, s.atClock n)

namespace Asks

/-- A value asks nothing. -/
lemma pure {a : α} : Asks (Pure.pure a : Fallible Controller ε α) :=
  fun s => ⟨a, s.world.clock, rfl⟩

/-- A call to the outside asks once. -/
lemma outside {answer : World → Nat → α} : Asks (outside answer : Fallible Controller ε α) :=
  fun s => ⟨answer s.world s.world.clock, s.world.clock + 1, rfl⟩

/-- Behind a question only the time has passed. -/
lemma bind_ensures {c : Fallible Controller ε α} {f : α → Fallible Controller ε β}
    {s : Controller} {Q : Except ε β → Controller → Prop} (hc : Asks c)
    (h : ∀ a n, Ensures (f a) (s.atClock n) Q) : Ensures (c >>= f) s Q := by
  obtain ⟨a, n, run⟩ := hc s
  rw [Ensures, bind_ok run]
  exact h a n

/-- Writing to the console asks. -/
lemma writeConout {units : List UInt16} :
    Asks (writeConout units : Fallible Controller ε (Except Nat Unit)) := by
  rw [Repl.writeConout]
  split
  · exact outside
  · exact pure

/-- Writing a text asks. -/
lemma writeAscii {bytes : List UInt8} :
    Asks (writeAscii bytes : Fallible Controller ε (Except Nat Unit)) := by
  rw [Repl.writeAscii]
  split
  · exact pure
  · exact writeConout

/-- Writing a token asks. -/
lemma writeSpoken {units : List UInt16} : Asks (writeSpoken units) := by
  rw [Repl.writeSpoken]
  split
  · exact pure
  · exact writeConout

/-- Echoing an interrupt asks. -/
lemma echoInterrupt {g : Generation} : Asks (echoInterrupt g) := by
  rw [Repl.echoInterrupt]
  split
  · exact writeAscii
  · exact pure

/-- Reporting a step asks. -/
lemma inferenceStepComplete {completedTokens : Nat} :
    Asks (inferenceStepComplete completedTokens) := by
  rw [Repl.inferenceStepComplete]
  split
  · exact outside
  · exact pure

/-- Polling for an interrupt asks. -/
lemma pollGenerationInterrupt : Asks pollGenerationInterrupt := by
  intro s
  rcases answer : s.world.interrupt s.world.clock with code | pressed
  · refine ⟨_, s.world.clock + 1, (bind_ok (a := .error code) (t := s.tick) ?_).trans rfl⟩
    exact congrArg (fun x => (Except.ok x, s.tick)) answer
  · refine ⟨_, s.world.clock + 1, (bind_ok (a := .ok pressed) (t := s.tick) ?_).trans rfl⟩
    exact congrArg (fun x => (Except.ok x, s.tick)) answer

end Asks

/-- The computation only asks the outside, and may stop at an answer. -/
def Outward (c : Fallible Controller ε α) : Prop := ∀ s, ∃ n, (c s).2 = s.atClock n

/-- What asks acts on the outside only. -/
lemma Asks.outward {c : Fallible Controller ε α} (h : Asks c) : Outward c := by
  intro s
  obtain ⟨a, n, run⟩ := h s
  exact ⟨n, by rw [run]⟩

namespace Outward

/-- A failure acts on nothing. -/
lemma fail {e : ε} : Outward (Fallible.fail e : Fallible Controller ε α) :=
  fun s => ⟨s.world.clock, rfl⟩

/-- Parts that act on the outside do so in succession. -/
lemma bind {c : Fallible Controller ε α} {f : α → Fallible Controller ε β} (hc : Outward c)
    (hf : ∀ a, Outward (f a)) : Outward (c >>= f) := by
  intro s
  obtain ⟨n, left⟩ := hc s
  rcases run : c s with ⟨e | a, t⟩ <;> rw [run] at left <;> subst left
  · exact ⟨n, by rw [bind_error run]⟩
  · obtain ⟨m, left⟩ := hf a (s.atClock n)
    exact ⟨m, by rw [bind_ok run, left]; rfl⟩

/-- The controller is the one from before, at another clock. -/
lemma ensures {c : Fallible Controller ε α} {s : Controller} {Q : Except ε α → Controller → Prop}
    (hc : Outward c) (h : ∀ r n, Q r (s.atClock n)) : Ensures c s Q := by
  obtain ⟨n, left⟩ := hc s
  rw [Ensures, left]
  exact h _ n

/-- Behind an act on the outside only the time has passed, also if it failed. -/
lemma bind_ensures {c : Fallible Controller ε α} {f : α → Fallible Controller ε β} {s : Controller}
    {Q : Except ε β → Controller → Prop} (hc : Outward c)
    (ok : ∀ a n, Ensures (f a) (s.atClock n) Q) (error : ∀ e n, Q (.error e) (s.atClock n)) :
    Ensures (c >>= f) s Q := by
  refine Ensures.bind_of (P := fun _ t => ∃ n, t = s.atClock n) (hc.ensures fun _ n => ⟨n, rfl⟩) ?_ ?_
  · rintro a t ⟨n, rfl⟩
    exact ok a n
  · rintro e t ⟨n, rfl⟩
    exact error e n

/-- A demanded call acts on the outside only. -/
lemma demand {call : Fallible Controller ε (Except β Unit)} {failure : β → ε}
    (h : Asks call) : Outward (demand call failure) := by
  refine bind h.outward fun answer => ?_
  cases answer with
  | ok => exact Asks.pure.outward
  | error => exact fail

/-- A record goes to the outside. -/
lemma emitRecord : Outward emitRecord := demand .outside

/-- A text goes to the outside. -/
lemma writeText {text : String} : Outward (writeText text) := demand .writeAscii

/-- A message goes to the outside. -/
lemma say {text : String} : Outward (say text) := demand .writeAscii

/-- The report of a failure goes to the outside. -/
lemma emitGenerationFailed {error : TurnError} : Outward (emitGenerationFailed error) :=
  bind emitRecord fun _ => bind writeText fun _ => bind writeText fun _ => writeText

/-- A loop of acts on the outside is one. -/
lemma forM {γ : Type} {f : γ → Fallible Controller ε PUnit} (h : ∀ a, Outward (f a))
    (l : List γ) : Outward (l.forM f) := by
  induction l with
  | nil => exact Asks.pure.outward
  | cons a l ih => exact bind (h a) fun _ => ih

end Outward

end Outward

/-- The stored conversation: its tokens and how many turns they come from. -/
structure SessionHistory where
  committed : List Token
  committedLen : Nat
  historyTurns : Nat

namespace SessionHistory

/-- The history that holds some tokens, and zeros behind them. -/
def of (tokens : List Token) (turns : Nat) : SessionHistory where
  committed := tokens ++ List.replicate (contextLimit - tokens.length) 0
  committedLen := tokens.length
  historyTurns := turns

/-- The history of a session that starts, or starts again. -/
def empty : SessionHistory := ⟨zeroTokens, 0, 0⟩

/-- The tokens that count. -/
def live (h : SessionHistory) : List Token := h.committed.take h.committedLen

/-- The live tokens are those that were stored. -/
@[simp] lemma live_of (tokens : List Token) (turns : Nat) : (of tokens turns).live = tokens :=
  List.take_left

end SessionHistory

def Controller.history (s : Controller) : SessionHistory :=
  ⟨s.committed, s.committedLen, s.historyTurns⟩

section Still

/-- What the history rests on is the same. -/
structure Steady (s t : Controller) : Prop where
  history : t.history = s.history
  engine : t.engine = s.engine
  cachedLen : t.cachedLen = s.cachedLen
  sampled : t.world.sampled = s.world.sampled

variable {ε α β : Type} {s t u : Controller}

/-- No change is steady. -/
lemma Steady.refl (s : Controller) : Steady s s := ⟨rfl, rfl, rfl, rfl⟩

/-- Steady changes are steady in succession. -/
lemma Steady.trans (first : Steady s t) (second : Steady t u) : Steady s u :=
  ⟨second.history.trans first.history, second.engine.trans first.engine,
    second.cachedLen.trans first.cachedLen, second.sampled.trans first.sampled⟩

/-- Passing time is steady. -/
lemma Steady.atClock (steady : Steady s t) (n : Nat) : Steady s (t.atClock n) :=
  ⟨steady.history, steady.engine, steady.cachedLen, steady.sampled⟩

/-- A change of the working tokens is steady. -/
lemma Steady.working (steady : Steady s t) (tokens : List Token) :
    Steady s { t with working := tokens } :=
  ⟨steady.history, steady.engine, steady.cachedLen, steady.sampled⟩

/-- The computation changes nothing that the history rests on. -/
def Still (c : Fallible Controller ε α) : Prop := ∀ s, Steady s (c s).2

/-- What acts on the outside is still. -/
lemma Outward.still {c : Fallible Controller ε α} (h : Outward c) : Still c := by
  intro s
  obtain ⟨n, left⟩ := h s
  rw [left]
  exact (Steady.refl s).atClock n

namespace Still

/-- Still parts are still in succession. -/
lemma bind {c : Fallible Controller ε α} {f : α → Fallible Controller ε β} (hc : Still c)
    (hf : ∀ a, Still (f a)) : Still (c >>= f) := by
  intro s
  have first := hc s
  rcases run : c s with ⟨e | a, t⟩ <;> rw [run] at first
  · rw [bind_error run]
    exact first
  · rw [bind_ok run]
    exact first.trans (hf a t)

/-- A value is still. -/
lemma pure {a : α} : Still (Pure.pure a : Fallible Controller ε α) := Steady.refl

/-- A failure is still. -/
lemma fail {e : ε} : Still (Fallible.fail e : Fallible Controller ε α) := Steady.refl

/-- Clearing the working tokens is still. -/
lemma clearWorking : Still (clearWorking : Fallible Controller ε Unit) :=
  fun s => (Steady.refl s).working zeroTokens

/-- An attempt is as still as what it attempts. -/
lemma attempt {ε' : Type} {c : Fallible Controller ε α} (h : Still c) :
    Still (attempt c : Fallible Controller ε' (Except ε α)) :=
  h

/-- Closing the line is still. -/
lemma closeLine {g : Generation} : Still (closeLine g) := by
  refine bind Asks.echoInterrupt.outward.still fun echoed => ?_
  refine bind Asks.writeConout.outward.still fun written => ?_
  cases written with
  | ok => exact pure
  | error => exact pure

/-- Reporting a failure is still. -/
lemma reportFailure {error : TurnError} : Still (reportFailure error) := by
  refine bind clearWorking fun _ => ?_
  refine bind (Outward.emitGenerationFailed.still).attempt fun reported => ?_
  cases reported with
  | error => exact fail
  | ok =>
    dsimp only
    split
    · exact pure
    · exact fail

/-- Reporting a turn is still. -/
lemma reportTurn {g : Generation} : Still (reportTurn g) := by
  refine bind ((Outward.forM (fun _ => .emitRecord) g.traces).still).attempt fun emitted => ?_
  cases emitted with
  | error => exact bind clearWorking fun _ => fail
  | ok =>
    dsimp only
    split
    · exact bind Outward.emitRecord.still fun _ => clearWorking
    · exact reportFailure

/-- Finishing a turn is still. -/
lemma finishTurn {turn : Except TurnError Unit} : Still (finishTurn turn) := by
  have reported (error : TurnError) :
      Still (Fallible.attempt (emitGenerationFailed error) : SessionM (Except TurnError Unit)) :=
    (Outward.emitGenerationFailed.still).attempt
  cases turn with
  | ok => exact pure
  | error error =>
    rw [Repl.finishTurn]
    split
    · refine bind clearWorking fun _ => ?_
      split
      · exact pure
      · refine bind (reported error) fun answer => ?_
        cases answer with
        | ok => exact pure
        | error => exact fail
    · refine bind clearWorking fun _ => ?_
      split
      · exact fail
      · refine bind (reported error) fun answer => ?_
        cases answer with
        | ok => exact fail
        | error => exact fail

/-- Behind a turn the session only reports. -/
lemma showAndFinish {turn : Except TurnError Unit} : Still (do
    match ← outside World.status with
    | .error status =>
      if waitingRenderFailureIsTerminal (completion turn) then
        Fallible.fail (.ofEfi "STATUS_RENDER" "status" status)
      else
        Repl.finishTurn turn
    | .ok () => Repl.finishTurn turn : SessionM Unit) := by
  refine bind Asks.outside.outward.still fun shown => ?_
  cases shown with
  | error status =>
    dsimp only
    split
    · exact fail
    · exact finishTurn
  | ok => exact finishTurn

end Still

end Still

section Steps

variable {L : Loaded} {plan : Plan} {g : Generation} {s : Controller}

/-- The evaluation that a step of the loop makes. -/
def Controller.evaluate (s : Controller) (L : Loaded) (plan : Plan) (g : Generation) :
    Except InferenceError InferenceStep × Evaluation :=
  evaluation L plan g (s.working.take plan.promptCount) ⟨s.engine, List.replicate logitWords 0, []⟩

/-- The engine is as before the step, or as an evaluation left it. -/
def Touched (L : Loaded) (plan : Plan) (g : Generation) (s : Controller)
    (engine : InferenceEngine) : Prop :=
  engine = s.engine ∨ engine = (s.evaluate L plan g).2.engine

/-- What has not changed when only the engine was called and the outside asked. -/
structure Aside (s t : Controller) : Prop where
  history : t.history = s.history
  working : t.working = s.working
  cachedLen : t.cachedLen = s.cachedLen

/-- A token was evaluated for and sampled. -/
structure Selected (L : Loaded) (plan : Plan) (g : Generation) (s : Controller) (token : Token)
    (t : Controller) : Prop extends Aside s t where
  sampled : t.world.sampled = s.world.sampled ++ [token]
  engine : ∃ step left, s.evaluate L plan g = (.ok step, left) ∧ t.engine = left.engine

/-- Behind a selected token the engine is one step on. -/
lemma Selected.touched {token : Token} {t : Controller} (h : Selected L plan g s token t) :
    Touched L plan g s t.engine := by
  obtain ⟨step, left, run, engine⟩ := h.engine
  exact .inr (by rw [run, engine])

/-- A token was written behind the prompt and those before it. -/
structure Kept (L : Loaded) (plan : Plan) (g : Generation) (s : Controller) (token : Token) (kind : PieceKind)
    (g' : Generation) (t : Controller) : Prop where
  history : t.history = s.history
  cachedLen : t.cachedLen = s.cachedLen
  working : t.working = s.working.set (plan.promptCount + g.generated) (storedToken token kind)
  sampled : t.world.sampled = s.world.sampled ++ [token]
  engine : ∃ step left, s.evaluate L plan g = (.ok step, left) ∧ t.engine = left.engine
  traces : ∃ entry : TraceEntry, entry.id = token ∧ g'.traces = g.traces ++ [entry]
  previous : g'.previous = token
  committed : g'.committed = g.committed
  turnError : g'.turnError = g.turnError

/-- The exits of a step of the loop. -/
inductive StepOutcome (L : Loaded) (plan : Plan) (g : Generation) (s : Controller) :
    Except TurnError (ForInStep Generation) → Controller → Prop
  /-- The loop ends: an interrupt, or a failure of any kind. -/
  | stopped {g' t} : t.history = s.history → t.cachedLen = s.cachedLen →
    Touched L plan g s t.engine → g'.committed = g.committed →
    StepOutcome L plan g s (.ok (.done g')) t
  /-- The timer fails behind the evaluation. -/
  | timedOut {e t} : t.history = s.history → t.cachedLen = 0 →
    (∃ engine, Touched L plan g s engine ∧ t.engine = engine.resetToPrefix.2) →
    StepOutcome L plan g s (.error e) t
  | kept {token kind g' t} : Kept L plan g s token kind g' t → kind ≠ .eos →
    StepOutcome L plan g s (.ok (.yield g')) t
  /-- An end marker commits the turn. -/
  | committed {token g' t committed} : Kept L plan g s token .eos g' t →
    commitEos t.working (plan.promptCount + g'.generated) = some committed →
    StepOutcome L plan g s (.ok (.done { g' with committed := true })) { t with
      committed
      committedLen := plan.promptCount + g'.generated
      historyTurns := min (s.historyTurns + 1) (2 ^ 32 - 1) }

/-- What the inference of a step leaves, with a token or without. -/
lemma infer_outcome : Ensures (infer L plan g) s fun r t =>
    ∃ answer, r = .ok answer ∧ Aside s t ∧ Touched L plan g s t.engine ∧
      ∀ token, answer = .ok token → Selected L plan g s token t := by
  rw [Ensures, infer, bind_ok (get_apply s)]
  generalize run : s.evaluate L plan g = result
  have call : (callEngine (evaluation L plan g (s.working.take plan.promptCount)) :
      TurnM (Except InferenceError InferenceStep)) s =
        (.ok result.1, { s.tick with engine := result.2.engine }) := by
    rw [← run]
    rfl
  rw [bind_ok call]
  have touched : Touched L plan g s result.2.engine := .inr (by rw [run])
  rcases result with ⟨error | step, left⟩
  · dsimp only
    split <;> exact ⟨_, rfl, ⟨rfl, rfl, rfl⟩, touched, by rintro _ ⟨⟩⟩
  · dsimp only
    rcases answer : s.world.sample (s.world.clock + 1) with error | token
    · have sample : (sampleToken : TurnM (Except InferenceError Token))
          { s.tick with engine := left.engine } =
            (.ok (.error error), { s.tick.tick with engine := left.engine }) := by
        rw [sampleToken, bind_ok (a := .error error) (t := { s.tick.tick with engine := left.engine })]
        · rfl
        · exact congrArg (fun x => (Except.ok x, _)) answer
      rw [bind_ok sample]
      exact ⟨_, rfl, ⟨rfl, rfl, rfl⟩, touched, by rintro _ ⟨⟩⟩
    · have sample : (sampleToken : TurnM (Except InferenceError Token))
          { s.tick with engine := left.engine } =
            (.ok (.ok token), { s.tick.tick with
              engine := left.engine
              world := { s.tick.tick.world with sampled := s.world.sampled ++ [token] } }) := by
        rw [sampleToken, bind_ok (a := .ok token) (t := { s.tick.tick with engine := left.engine })]
        · rfl
        · exact congrArg (fun x => (Except.ok x, _)) answer
      rw [bind_ok sample]
      refine ⟨_, rfl, ⟨rfl, rfl, rfl⟩, touched, ?_⟩
      rintro _ ⟨⟩
      exact ⟨⟨rfl, rfl, rfl⟩, rfl, step, left, run, rfl⟩

/-- Behind a kept token the engine is one step on. -/
lemma Kept.touched {token : Token} {kind : PieceKind} {g' : Generation} {t : Controller}
    (h : Kept L plan g s token kind g' t) : Touched L plan g s t.engine := by
  obtain ⟨step, left, run, engine⟩ := h.engine
  exact .inr (by rw [run, engine])

/-- A turn may stop behind a kept token. -/
lemma Kept.stopped {token : Token} {kind : PieceKind} {g' : Generation} {t : Controller}
    (h : Kept L plan g s token kind g' t) (error : TurnError) :
    StepOutcome L plan g s (.ok (g'.stop error)) t :=
  .stopped h.history h.cachedLen h.touched h.committed

/-- Committing the turn leaves an outcome of the step. -/
lemma commitTurn_outcome {token : Token} {g' : Generation} {t : Controller}
    (kept : Kept L plan g s token .eos g' t) :
    Ensures (commitTurn plan g') t (StepOutcome L plan g s) := by
  rw [commitTurn]
  split
  · exact .pure (kept.stopped _)
  apply Ensures.get_bind
  dsimp only
  split
  -- the two validations only choose the error
  · split
    · exact .pure (kept.stopped _)
    · split <;> exact .pure (kept.stopped _)
  · rename_i committed commit
    have turns : t.historyTurns = s.historyTurns :=
      congrArg SessionHistory.historyTurns kept.history
    apply Ensures.modify_bind
    apply Ensures.pure
    rw [turns]
    exact .committed kept commit

/-- What a step has not changed of its local state before the token is kept. -/
structure Generation.Follows (g g' : Generation) : Prop where
  traces : g'.traces = g.traces
  committed : g'.committed = g.committed
  turnError : g'.turnError = g.turnError

/-- Keeping a token leaves an outcome of the step. -/
lemma keepToken_outcome {token : Token} {g' : Generation} {t : Controller}
    (selected : Selected L plan g s token t) (follows : g.Follows g') (previous : g'.previous = token)
    (spoken : Spoken) : Ensures (keepToken plan g' spoken) t (StepOutcome L plan g s) := by
  have generated : g'.generated = g.generated := congrArg List.length follows.traces
  rw [keepToken]
  apply Ensures.modify_bind
  dsimp only
  generalize kept_state : ({ t with working := _ } : Controller) = u
  generalize next : ({ g' with traces := _ } : Generation) = g''
  have kept (n : Nat) : Kept L plan g s token spoken.usage.kind g'' (u.atClock n) := by
    subst kept_state next
    refine ⟨selected.history, selected.cachedLen, ?_, selected.sampled, selected.engine,
      ⟨_, previous, congrArg (· ++ [_]) follows.traces⟩, previous, follows.committed,
      follows.turnError⟩
    show t.working.set (plan.promptCount + g'.generated) _ = _
    rw [generated, previous, selected.working]
  refine Asks.inferenceStepComplete.bind_ensures fun step n => ?_
  cases step with
  | error status => exact .pure ((kept n).stopped _)
  | ok =>
    dsimp only
    split
    · rename_i eos
      exact commitTurn_outcome (eos ▸ kept n)
    · rename_i other
      exact .pure (.kept (kept n) other)

/-- Printing a token leaves an outcome of the step. -/
lemma printToken_outcome {token : Token} {g' : Generation} {t : Controller}
    (selected : ∀ n, Selected L plan g s token (t.atClock n)) (follows : g.Follows g')
    (previous : g'.previous = token) (spoken : Spoken) :
    Ensures (printToken plan g' spoken) t (StepOutcome L plan g s) := by
  have stopped (n : Nat) {g'' : Generation} (same : g''.committed = g.committed)
      (error : TurnError) : StepOutcome L plan g s (.ok (g''.stopSelected error)) (t.atClock n) :=
    .stopped (selected n).history (selected n).cachedLen (selected n).touched same
  rw [printToken]
  dsimp only
  refine Asks.writeSpoken.bind_ensures fun written n => ?_
  cases written with
  | error status =>
    apply Ensures.pure
    exact stopped n (by exact follows.committed) _
  | ok =>
    dsimp only
    generalize next : (if spoken.units = [] then ({ g' with
      decoder := spoken.decoder, previousWasCr := spoken.previousWasCr } : Generation) else _) = g''
    have later : g.Follows g'' ∧ g''.previous = token := by
      subst next
      split <;> exact ⟨⟨follows.traces, follows.committed, follows.turnError⟩, previous⟩
    refine Asks.outside.bind_ensures fun timed m => ?_
    cases timed with
    | error failure =>
      apply Ensures.pure
      exact stopped m later.1.committed _
    | ok => exact keepToken_outcome (selected m) later.1 later.2 spoken

/-- Selecting a token leaves an outcome of the step. -/
lemma selectToken_outcome {token : Token} {t : Controller}
    (selected : ∀ n, Selected L plan g s token (t.atClock n)) :
    Ensures (selectToken L plan g token) t (StepOutcome L plan g s) := by
  have stopped (n : Nat) {g'' : Generation} (same : g''.committed = g.committed) :
      StepOutcome L plan g s (.ok (.done g'')) (t.atClock n) :=
    .stopped (selected n).history (selected n).cachedLen (selected n).touched same
  rw [selectToken]
  dsimp only
  refine Asks.pollGenerationInterrupt.bind_ensures fun pressed n => ?_
  split
  · exact .pure (stopped n rfl)
  · exact .pure (stopped n rfl)
  · split
    · exact .pure (stopped n rfl)
    · have later (m : Nat) : Selected L plan g s token ((t.atClock n).atClock m) := selected m
      refine printToken_outcome later ?_ ?_ _
      · exact ⟨rfl, rfl, rfl⟩
      · rfl

/-- A step of the loop has no other exits. -/
lemma generateToken_outcome : Ensures (generateToken L plan g) s (StepOutcome L plan g s) := by
  rw [generateToken]
  refine Asks.pollGenerationInterrupt.bind_ensures fun pressed n => ?_
  split
  · exact .pure (.stopped rfl rfl (.inl rfl) rfl)
  · exact .pure (.stopped rfl rfl (.inl rfl) rfl)
  have inferred : Ensures (infer L plan g) (s.atClock n) fun r t =>
      ∃ answer, r = .ok answer ∧ Aside s t ∧ Touched L plan g s t.engine ∧
        ∀ token, answer = .ok token → Selected L plan g s token t := by
    refine infer_outcome.mono fun r t => ?_
    rintro ⟨answer, rfl, aside, touched, selected⟩
    refine ⟨answer, rfl, ⟨aside.history, aside.working, aside.cachedLen⟩, touched, ?_⟩
    intro token answered
    obtain ⟨aside, sampled, engine⟩ := selected token answered
    exact ⟨⟨aside.history, aside.working, aside.cachedLen⟩, sampled, engine⟩
  refine Ensures.bind_of inferred ?_ (by rintro e t ⟨answer, same, -⟩; cases same)
  rintro answer t ⟨_, ⟨⟩, aside, touched, selected⟩
  refine Asks.outside.bind_ensures fun timed m => ?_
  cases timed with
  | error failure =>
    apply Ensures.modify_bind
    apply Ensures.modify_bind
    exact .fail (.timedOut aside.history rfl ⟨t.engine, touched, rfl⟩)
  | ok =>
    dsimp only
    cases answer with
    | error error => exact .pure (.stopped aside.history aside.cachedLen touched rfl)
    | ok token =>
      refine selectToken_outcome fun k => ?_
      obtain ⟨aside, sampled, engine⟩ := selected token rfl
      exact ⟨⟨aside.history, aside.working, aside.cachedLen⟩, sampled, engine⟩

/-- The start is reported, or the engine is reset and the tokens are cleared. -/
lemma emitGenerationStarted_cases (s : Controller) :
    (∃ n, emitGenerationStarted s = (.ok (), s.atClock n)) ∨
      ∃ e n, emitGenerationStarted s = (.error e, { s.atClock n with
        engine := s.engine.resetToPrefix.2, cachedLen := 0, working := zeroTokens }) := by
  obtain ⟨n, left⟩ := Outward.emitRecord s
  rcases run : emitRecord s with ⟨e | ⟨⟩, t⟩ <;> rw [run] at left <;> subst left
  · exact .inr ⟨e, n, by rw [emitGenerationStarted, onError, run]; rfl⟩
  · exact .inl ⟨n, by rw [emitGenerationStarted, onError, run]⟩

end Steps

end Repl
end Promptboot
