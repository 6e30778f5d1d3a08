import Promptboot.Repl.TurnCoherent

/-!
# Quiet turns

A turn in which nothing fails is committed. In a `Quiet` world every call to the outside is answered,
nobody interrupts, and the sampler answers with the end marker at once. There the preparation of a
turn succeeds as soon as its prompt is rendered and short enough (`prepareTurn_quiet`), the loop
commits the turn in its first step if the evaluation succeeds (`generationLoop_quiet`), and the rest
of the turn goes through (`takeTurn_quiet`).

On kernels that return zero every evaluation succeeds. So a session on them commits line after line,
the first from an empty cache and each later one behind what the cache holds (`Standing.turn`); the
theorems about the history and the cache are instanced on two such lines.
-/

namespace Promptboot
namespace Repl
open Fallible MergeIndex

section Quiet

variable {ε α β : Type} {s : Controller}

/-- Nothing outside fails, nobody interrupts, and the sampler ends every answer at once. -/
structure Quiet (s : Controller) : Prop where
  interrupt : ∀ n, s.world.interrupt n = .ok false
  sample : ∀ n, s.world.sample n = .ok imEnd
  console : ∀ n, s.world.console n = .ok ()
  record : ∀ n, s.world.record n = .ok ()
  status : ∀ n, s.world.status n = .ok ()
  timer : ∀ n, s.world.timer n = .ok ()

/-- The answers from outside that a turn asks for. -/
def World.answers (w : World) :=
  (w.interrupt, w.sample, w.console, w.record, w.status, w.timer)

/-- The computation only asks the outside, and returns the value. -/
def Yields (c : Fallible Controller ε α) (s : Controller) (a : α) : Prop :=
  ∃ n, c s = (.ok a, s.atClock n)

/-- A call to the outside yields its answer. -/
lemma yields_outside {answer : World → Nat → α} {a : α} (h : answer s.world s.world.clock = a) :
    Yields (outside answer : Fallible Controller ε α) s a :=
  ⟨s.world.clock + 1, by rw [outside, h]; rfl⟩

/-- Parts that yield yield in succession, each at its own time. -/
lemma Yields.bind {c : Fallible Controller ε α} {f : α → Fallible Controller ε β} {a : α} {b : β}
    (first : Yields c s a) (second : ∀ n, Yields (f a) (s.atClock n) b) : Yields (c >>= f) s b := by
  obtain ⟨n, run⟩ := first
  obtain ⟨m, later⟩ := second n
  exact ⟨m, (bind_ok run).trans later⟩

/-- A demanded call whose answer is good. -/
lemma Yields.demand {call : Fallible Controller ε (Except β Unit)} {failure : β → ε}
    (h : Yields call s (.ok ())) : Yields (demand call failure) s () :=
  h.bind fun n => ⟨n, rfl⟩

namespace Quiet

/-- A controller with the same answers ahead is as quiet. -/
lemma congr {t : Controller} (quiet : Quiet s) (same : t.world.answers = s.world.answers) :
    Quiet t := by
  simp only [World.answers, Prod.mk.injEq] at same
  obtain ⟨interrupt, sample, console, record, status, timer⟩ := same
  refine ⟨?_, ?_, ?_, ?_, ?_, ?_⟩
  · rw [interrupt]
    exact quiet.interrupt
  · rw [sample]
    exact quiet.sample
  · rw [console]
    exact quiet.console
  · rw [record]
    exact quiet.record
  · rw [status]
    exact quiet.status
  · rw [timer]
    exact quiet.timer

/-- A quiet world stays quiet. -/
lemma atClock (quiet : Quiet s) (n : Nat) : Quiet (s.atClock n) := quiet.congr rfl

/-- A record is emitted. -/
lemma emitRecord (quiet : Quiet s) : Yields emitRecord s () := (yields_outside (quiet.record _)).demand

/-- The status is set. -/
lemma setState (quiet : Quiet s) : Yields setState s () := (yields_outside (quiet.status _)).demand

/-- A writable text goes to the console. -/
lemma writeConout {units : List UInt16} (quiet : Quiet s) (writable : Writable units) :
    Yields (writeConout units : Fallible Controller ε (Except Nat Unit)) s (.ok ()) := by
  rw [Repl.writeConout, if_pos writable]
  exact yields_outside (quiet.console _)

/-- A line end goes to the console. -/
lemma writeLineEnd (quiet : Quiet s) :
    Yields (Repl.writeConout [13, 10] : Fallible Controller ε (Except Nat Unit)) s (.ok ()) :=
  quiet.writeConout ⟨by decide, by simp⟩

/-- The line end that a turn starts with. -/
lemma writeText (quiet : Quiet s) : Yields (writeText "\r\n") s () := by
  have ascii : ¬(conoutUnits < (byteString "\r\n").length ∨
      ∃ byte ∈ byteString "\r\n", 128 ≤ byte ∨ byte = 0) := by decide +kernel
  rw [Repl.writeText, writeAscii, if_neg ascii]
  exact quiet.writeLineEnd.demand

/-- Nobody interrupts. -/
lemma pollGenerationInterrupt (quiet : Quiet s) : Yields pollGenerationInterrupt s (.ok false) :=
  (yields_outside (quiet.interrupt _)).bind fun n => ⟨n, rfl⟩

/-- The records of some tokens. -/
lemma records {γ : Type} (quiet : Quiet s) (l : List γ) : Yields (l.forM fun _ => Repl.emitRecord) s ⟨⟩ := by
  induction l generalizing s with
  | nil => exact ⟨s.world.clock, rfl⟩
  | cons a l ih => exact quiet.emitRecord.bind fun n => ih (quiet.atClock n)

end Quiet

end Quiet

section Turns

variable {L : Loaded} {line : List UInt8} {s : Controller} {usage : ConversationUsage}
  {b : PromptBuffers}

/-- The preparation of a turn whose prompt is rendered and short enough. -/
lemma prepareTurn_quiet (quiet : Quiet s) (rendered : rendering L s.history.live line = (.ok usage, b))
    (short : usage.promptTokens ≤ promptLimit) :
    ∃ n, prepareTurn L line s = (.ok (some ⟨usage.promptTokens, usage.prefixTokens, false⟩),
      { s with working := b.tokens }.atClock n) := by
  obtain ⟨n, wrote⟩ := quiet.writeText
  obtain ⟨m, emitted⟩ := (quiet.atClock n).emitRecord
  have working : Quiet { (s.atClock n).atClock m with working := b.tokens } := quiet.congr rfl
  obtain ⟨k, noted⟩ := working.emitRecord
  have cleared : (clearWorking : TurnM Unit) ((s.atClock n).atClock m) =
      (.ok (), { (s.atClock n).atClock m with working := zeroTokens }) := rfl
  have render : renderWorking L s.history.live line
      { (s.atClock n).atClock m with working := zeroTokens } =
        (.ok (.ok usage), { (s.atClock n).atClock m with working := b.tokens }) := by
    rw [renderWorking, rendered]
  have decided : decideTurn L line (s.committedLen ≠ 0) (.ok usage) usage.promptTokens =
      pure (some ⟨usage.promptTokens, usage.prefixTokens, false⟩) := by
    have use (fresh : Option Nat) : decideHistory (s.committedLen ≠ 0) usage.promptTokens fresh =
        .use usage.promptTokens := by
      unfold decideHistory
      rw [if_pos short]
    rw [decideTurn, use]
  refine ⟨k, ?_⟩
  rw [prepareTurn, bind_ok wrote, bind_ok emitted, bind_ok cleared, bind_ok (get_apply _)]
  show (renderWorking L s.history.live line >>= _) _ = _
  rw [bind_ok render]
  show (decideTurn L line (s.committedLen ≠ 0) (.ok usage) usage.promptTokens >>= _) _ = _
  rw [decided, Fallible.pure_bind]
  show (Repl.emitRecord >>= _) _ = _
  rw [bind_ok noted]
  rfl

/-- The units of an end marker: none. -/
def Ends (L : Loaded) : Prop :=
  decodePiece L.model imEnd (List.replicate pieceBytes 0) =
    .ok (⟨.eos, 0⟩, List.replicate pieceBytes 0)

/-- The end marker is spoken without a unit. -/
lemma speak_quiet (ends : Ends L) (g : Generation) :
    ∃ flag, speak L g imEnd = .ok ⟨⟨.eos, 0⟩, [], g.decoder, flag⟩ := by
  refine ⟨endsInReturn g.previousWasCr [], ?_⟩
  rw [speak, ends]
  rfl

/-- The controller behind an evaluation whose token is the end marker. -/
def Controller.answered (s : Controller) (engine : InferenceEngine) : Controller :=
  { s with engine, world := { s.world with sampled := s.world.sampled ++ [imEnd] } }

variable {plan : Plan} {g : Generation} {step : InferenceStep} {left : Evaluation}

/-- An answered call leaves the world quiet. -/
lemma Quiet.answered (quiet : Quiet s) (engine : InferenceEngine) : Quiet (s.answered engine) :=
  quiet.congr rfl

/-- An evaluation that succeeds samples the end marker. -/
lemma infer_quiet (quiet : Quiet s) (evaluated : s.evaluate L plan g = (.ok step, left)) :
    ∃ n, infer L plan g s = (.ok (.ok imEnd), (s.answered left.engine).atClock n) := by
  have called : (callEngine (evaluation L plan g (s.working.take plan.promptCount)) :
      TurnM (Except InferenceError InferenceStep)) s =
        (.ok (.ok step), { s.tick with engine := left.engine }) := by
    rw [Controller.evaluate] at evaluated
    rw [callEngine, evaluated]
  have sampled : (sampleToken : TurnM (Except InferenceError Token))
      { s.tick with engine := left.engine } =
        (.ok (.ok imEnd), ((s.answered left.engine).atClock (s.world.clock + 2))) := by
    have answer : s.world.sample (s.world.clock + 1) = .ok imEnd := quiet.sample _
    have asked : (outside World.sample : TurnM (Except InferenceError Token))
        { s.tick with engine := left.engine } =
          (.ok (.ok imEnd), { s.tick.tick with engine := left.engine }) :=
      congrArg (fun x => (Except.ok x, _)) answer
    rw [sampleToken, bind_ok asked]
    rfl
  refine ⟨s.world.clock + 2, ?_⟩
  rw [infer, bind_ok (get_apply s), bind_ok called]
  dsimp only
  rw [bind_ok sampled]
  rfl

/-- The tokens that a turn stores that is ended at once. -/
def storedTurn (s : Controller) (promptCount : Nat) : List Token :=
  s.working.take promptCount ++ [imEnd] ++ List.replicate (contextLimit - (promptCount + 1)) 0

/-- The controller behind a turn that was ended at once. -/
def Controller.ended (s : Controller) (engine : InferenceEngine) (promptCount : Nat) : Controller :=
  { s.answered engine with
    working := s.working.set promptCount imEnd
    committed := storedTurn s promptCount
    committedLen := promptCount + 1
    historyTurns := min (s.historyTurns + 1) (2 ^ 32 - 1) }

/-- The end marker behind the prompt ends the stored turn. -/
lemma commitEos_quiet {promptCount : Nat} (room : s.working.length = contextLimit)
    (short : promptCount ≤ promptLimit) :
    commitEos (s.working.set promptCount imEnd) (promptCount + 1) =
      some (storedTurn s promptCount) := by
  have inside : promptCount < s.working.length := by
    have limit : promptLimit + 1 = contextLimit := rfl
    omega
  have last : (s.working.set promptCount imEnd).getD (promptCount + 1 - 1) 0 = imEnd := by
    rw [Nat.add_sub_cancel, List.getD_eq_getElem?_getD, List.getElem?_set_self inside,
      Option.getD_some]
  rw [commitEos, if_neg, take_set_succ inside, storedTurn]
  rintro (zero | long | other)
  · exact Nat.succ_ne_zero _ zero
  · omega
  · exact other last

/-- The generation when the end marker is printed. -/
def printedEnd (flag : Bool) : Generation := ⟨[], imEnd, .new, flag, 0, false, false, none⟩

/-- The generation when it is kept. -/
def keptEnd (flag : Bool) : Generation :=
  ⟨[⟨imEnd, .eos, 0, 0⟩], imEnd, .new, flag, 0, false, false, none⟩

/-- The generation of a turn that was ended at once. -/
def endedAtOnce (flag : Bool) : Generation := { keptEnd flag with committed := true }

/-- Working tokens that end in an end marker are committed. -/
lemma commitTurn_commits {g : Generation} {c : Controller} {tokens : List Token}
    (finished : g.unfinished = false)
    (commit : commitEos c.working (plan.promptCount + g.generated) = some tokens) :
    commitTurn plan g c = (.ok (.done { g with committed := true }),
      { c with
        committed := tokens
        committedLen := plan.promptCount + g.generated
        historyTurns := min (c.historyTurns + 1) (2 ^ 32 - 1) }) := by
  rw [commitTurn, finished, if_neg Bool.false_ne_true, bind_ok (get_apply _), commit]
  rfl

/-- The end marker is kept and commits the turn. -/
lemma keepToken_quiet {flag : Bool} (engine : InferenceEngine)
    (room : s.working.length = contextLimit) (short : plan.promptCount ≤ promptLimit) (n : Nat) :
    keepToken plan (printedEnd flag) ⟨⟨.eos, 0⟩, [], .new, flag⟩ ((s.answered engine).atClock n) =
      (.ok (.done (endedAtOnce flag)),
        (s.ended engine plan.promptCount).atClock n) := by
  have commit := commitEos_quiet room short
  have undue (c : Controller) : inferenceStepComplete (keptEnd flag).generated c = (.ok (.ok ()), c) :=
    rfl
  rw [keepToken, bind_ok (modify_apply _ _)]
  show (inferenceStepComplete (keptEnd flag).generated >>= _) _ = _
  rw [bind_ok (undue _)]
  have finished : (keptEnd flag).unfinished = false := rfl
  exact commitTurn_commits finished commit

/-- The token is printed, kept, and ends the turn. -/
lemma printToken_quiet (quiet : Quiet s) (flag : Bool) (engine : InferenceEngine)
    (room : s.working.length = contextLimit) (short : plan.promptCount ≤ promptLimit) :
    ∃ n, printToken plan { Generation.new with previous := imEnd } ⟨⟨.eos, 0⟩, [], .new, flag⟩
        (s.answered engine) = (.ok (.done (endedAtOnce flag)),
          (s.ended engine plan.promptCount).atClock n) := by
  obtain ⟨n, timed⟩ : Yields (outside World.timer : TurnM (Except Failure Unit))
      (s.answered engine) (.ok ()) := yields_outside ((quiet.answered engine).timer _)
  have spoken : writeSpoken [] (s.answered engine) = (.ok (.ok ()), s.answered engine) := rfl
  refine ⟨n, ?_⟩
  rw [printToken]
  dsimp only
  rw [bind_ok spoken]
  dsimp only
  rw [bind_ok timed]
  exact keepToken_quiet engine room short n

/-- The loop commits the turn in its first step. -/
lemma generationLoop_quiet (quiet : Quiet s) (ends : Ends L)
    (evaluated : s.evaluate L plan .new = (.ok step, left))
    (room : s.working.length = contextLimit) (short : plan.promptCount ≤ promptLimit) :
    ∃ flag n, generationLoop L plan plan.limit .new s =
      (.ok (endedAtOnce flag),
        (s.ended left.engine plan.promptCount).atClock n) := by
  obtain ⟨limit, limit_eq⟩ : ∃ limit, plan.limit = limit + 1 := by
    refine Nat.exists_eq_add_one.mpr (lt_min (by decide) ?_)
    have bound : promptLimit + 1 = contextLimit := rfl
    omega
  obtain ⟨flag, spoken⟩ := speak_quiet ends { Generation.new with previous := imEnd }
  obtain ⟨n, polled⟩ := quiet.pollGenerationInterrupt
  have evaluated : (s.atClock n).evaluate L plan .new = (.ok step, left) := evaluated
  obtain ⟨m, inferred⟩ : ∃ m, infer L plan .new (s.atClock n) =
      (.ok (.ok imEnd), (s.answered left.engine).atClock m) :=
    infer_quiet (quiet.atClock n) evaluated
  have answered := (quiet.answered left.engine).atClock m
  obtain ⟨k, timed⟩ : Yields (outside World.timer : TurnM (Except Failure Unit))
      ((s.answered left.engine).atClock m) (.ok ()) := yields_outside (answered.timer _)
  obtain ⟨j, again⟩ := (answered.atClock k).pollGenerationInterrupt
  obtain ⟨i, printed⟩ := printToken_quiet (quiet.atClock j) flag left.engine room short
  refine ⟨flag, i, ?_⟩
  have stepped : generateToken L plan .new s =
      (.ok (.done (endedAtOnce flag)),
        (s.ended left.engine plan.promptCount).atClock i) := by
    rw [generateToken, bind_ok polled]
    dsimp only
    rw [bind_ok inferred]
    show (outside World.timer >>= _) _ = _
    rw [bind_ok timed]
    show selectToken L plan .new imEnd _ = _
    rw [selectToken]
    dsimp only
    rw [bind_ok again]
    dsimp only
    rw [spoken]
    exact printed
  rw [limit_eq, generationLoop, bind_ok stepped]
  rfl

/-- The engine holds the stored turn but for its end marker. -/
lemma settleEngine_quiet {flag : Bool}
    (position : s.engine.position = s.committedLen - 1) :
    settleEngine (endedAtOnce flag).endText s =
      (.ok (endedAtOnce flag), { s with cachedLen := s.committedLen - 1 }) := by
  have same : (endedAtOnce flag).endText = endedAtOnce flag := rfl
  rw [same, settleEngine, bind_ok (get_apply s), if_pos ⟨rfl, rfl⟩, if_pos position]
  rfl

/-- The line is closed. -/
lemma closeLine_quiet (quiet : Quiet s) (flag : Bool) :
    Yields (closeLine (endedAtOnce flag)) s (endedAtOnce flag) := by
  obtain ⟨n, written⟩ : Yields (writeConout [13, 10] : TurnM (Except Nat Unit)) s (.ok ()) :=
    quiet.writeLineEnd
  have silent : echoInterrupt (endedAtOnce flag) s = (.ok (.ok ()), s) := rfl
  refine ⟨n, ?_⟩
  rw [closeLine, bind_ok silent]
  dsimp only
  rw [bind_ok written]
  rfl

/-- The turn is reported. -/
lemma reportTurn_quiet (quiet : Quiet s) (flag : Bool) :
    ∃ n, reportTurn (endedAtOnce flag) s = (.ok (), { s with working := zeroTokens }.atClock n) := by
  obtain ⟨n, records⟩ := quiet.records (endedAtOnce flag).traces
  obtain ⟨m, emitted⟩ := (quiet.atClock n).emitRecord
  have noted : (attempt ((endedAtOnce flag).traces.forM fun _ => emitRecord) :
      TurnM (Except TurnError PUnit)) s = (.ok (.ok ⟨⟩), s.atClock n) := by
    rw [attempt, records]
  refine ⟨m, ?_⟩
  rw [reportTurn, bind_ok noted]
  show (emitRecord >>= fun _ => clearWorking) _ = _
  rw [bind_ok emitted]
  rfl

variable {turn : Prepared} {start : Nat}

/-- The controller behind a turn that was ended at once and settled. -/
def Controller.turned (s : Controller) (engine : InferenceEngine) (promptCount : Nat) : Controller :=
  { s.ended engine promptCount with cachedLen := promptCount, working := zeroTokens }

/-- A turn whose evaluation succeeds is committed. -/
lemma generate_quiet (quiet : Quiet s) (ends : Ends L) (found : appendStart s turn = some start)
    (evaluated : s.evaluate L ⟨turn, start, s.cachedLen ≠ 0⟩ .new = (.ok step, left))
    (room : s.working.length = contextLimit) (short : turn.promptCount ≤ promptLimit)
    (position : left.engine.position = turn.promptCount) :
    ∃ n, generate L turn s = (.ok (), (s.turned left.engine turn.promptCount).atClock n) := by
  obtain ⟨n, emitted⟩ := quiet.emitRecord
  have started : emitGenerationStarted s = (.ok (), s.atClock n) := by
    rw [emitGenerationStarted, onError, emitted]
  obtain ⟨flag, m, loop⟩ : ∃ flag m,
      generationLoop L ⟨turn, start, s.cachedLen ≠ 0⟩ (Plan.limit ⟨turn, start, s.cachedLen ≠ 0⟩)
        .new (s.atClock n) =
          (.ok (endedAtOnce flag), (s.ended left.engine turn.promptCount).atClock m) :=
    generationLoop_quiet (quiet.atClock n) ends evaluated room short
  have ended : Quiet ((s.ended left.engine turn.promptCount).atClock m) := quiet.congr rfl
  have settled : settleEngine (endedAtOnce flag).endText
      ((s.ended left.engine turn.promptCount).atClock m) = (.ok (endedAtOnce flag),
        { (s.ended left.engine turn.promptCount).atClock m with cachedLen := turn.promptCount }) :=
    settleEngine_quiet position
  have cached : Quiet { (s.ended left.engine turn.promptCount).atClock m with
    cachedLen := turn.promptCount } := quiet.congr rfl
  obtain ⟨k, closed⟩ := closeLine_quiet cached flag
  obtain ⟨j, reported⟩ := reportTurn_quiet (cached.atClock k) flag
  refine ⟨j, ?_⟩
  rw [generate, bind_ok (get_apply s), found]
  dsimp only
  rw [bind_ok started, bind_ok loop]
  show (settleEngine (endedAtOnce flag).endText >>= _) _ = _
  rw [bind_ok settled]
  show (closeLine (endedAtOnce flag) >>= _) _ = _
  rw [bind_ok closed]
  exact reported

/-- A line whose prompt is rendered, short enough and evaluated is committed. -/
lemma takeTurn_quiet (quiet : Quiet s) (ends : Ends L)
    (rendered : rendering L s.history.live line = (.ok usage, b))
    (short : usage.promptTokens ≤ promptLimit) {t : Controller}
    (working : t = { s with working := b.tokens })
    (found : appendStart t ⟨usage.promptTokens, usage.prefixTokens, false⟩ = some start)
    (evaluated : t.evaluate L
      ⟨⟨usage.promptTokens, usage.prefixTokens, false⟩, start, t.cachedLen ≠ 0⟩ .new =
        (.ok step, left))
    (position : left.engine.position = usage.promptTokens) :
    ∃ n, takeTurn L line s = (.ok (), (t.turned left.engine usage.promptTokens).atClock n) := by
  subst working
  obtain ⟨n, shown⟩ := quiet.setState
  obtain ⟨m, prepared⟩ := prepareTurn_quiet (quiet.atClock n) rendered short
  have drafted : Quiet ({ s with working := b.tokens }.atClock m) := quiet.congr rfl
  obtain ⟨k, generated⟩ : ∃ k, generate L ⟨usage.promptTokens, usage.prefixTokens, false⟩
      ({ s with working := b.tokens }.atClock m) = (.ok (),
        ({ s with working := b.tokens }.turned left.engine usage.promptTokens).atClock k) :=
    generate_quiet drafted ends found evaluated (rendering_tokens rendered).2.2 short position
  have accepted : acceptedTurn L line (s.atClock n) =
      (.ok (), ({ s with working := b.tokens }.turned left.engine usage.promptTokens).atClock k) := by
    rw [acceptedTurn, bind_ok prepared]
    exact generated
  have taken : (attempt (acceptedTurn L line) : SessionM (Except TurnError Unit)) (s.atClock n) =
      (.ok (.ok ()), ({ s with working := b.tokens }.turned left.engine
        usage.promptTokens).atClock k) := by
    rw [attempt, accepted]
  have after : Quiet (({ s with working := b.tokens }.turned left.engine
      usage.promptTokens).atClock k) := quiet.congr rfl
  obtain ⟨j, status⟩ : Yields (outside World.status : SessionM (Except Nat Unit))
      (({ s with working := b.tokens }.turned left.engine usage.promptTokens).atClock k)
      (.ok ()) := yields_outside (after.status _)
  refine ⟨j, ?_⟩
  rw [takeTurn, bind_ok shown, bind_ok taken, bind_ok status]
  rfl

end Turns

section Talk

/-- A model of zeros but for the type of its end marker; the types begin at 1981312. -/
def talkModel : ModelView where
  bytes address := if address = 1981312 + imEnd.toNat then 3 else 0
  sections := frozenSections
  config := .frozen

/-- What a session is opened on whose evaluations all succeed. -/
def talk : Loaded := ⟨zeroKernels, talkModel, lineIndex⟩

def talkEngine : InferenceEngine := { blankEngine with model := talkModel }

/-- The engine of the example is built. -/
lemma build_talk : InferenceEngine.build blankCpu talk.model (blankStorage kvBytes)
    (blankStorage scratchBytes) none = .ok talkEngine := rfl

/-- Its end marker ends a turn. -/
lemma talk_ends : Ends talk := by
  have eos : talkModel.tokenType imEnd.toNat = .ok 3 := by
    rw [ModelView.tokenType, if_neg (by decide), talkModel]
    have there : frozenSections[2].offset + imEnd.toNat = 1981312 + imEnd.toNat := rfl
    dsimp only
    rw [if_pos there]
  have kind : pieceKind imEnd 3 = .ok .eos := rfl
  have empty (output : List UInt8) : copyFromSlice output 0 [] = output := by
    rw [copyFromSlice, List.take_zero, List.nil_append, List.nil_append, List.length_nil,
      Nat.add_zero, List.drop_zero]
  have bind {α β : Type} (a : α) (f : α → Except ModelError β) : (Except.ok a >>= f) = f a := rfl
  rw [Ends, decodePiece, if_neg (by decide)]
  show (talkModel.tokenType imEnd.toNat >>= _) = _
  rw [eos, bind]
  dsimp only
  rw [kind, bind, if_neg (by decide), bind, if_neg (by simp), empty]
  rfl

/-- A session on these between two lines: its world is quiet, and the cache holds the conversation or
has never held one. -/
structure Standing (s : Controller) : Prop where
  quiet : Quiet s
  started : s.terminal = none
  serial : s.engine.dispatcher = none
  inside : ∀ token ∈ s.history.live, token.toNat < vocabCount
  start : s.cachedLen ≠ 0 ∨
    s.engine.state = .reset ∧ s.engine.position = 0 ∧ s.engine.retainedPrefix.len = 0

variable {s : Controller} {line : List UInt8}

/-- The system prefix is a part of the template. -/
lemma length_tokensBefore_le : lineIndex.tokensBefore.length ≤ 100 := by
  refine le_trans ?_ (length_templateTokens_le lineIndex)
  rw [templateTokens, List.flatMap_append, List.length_append]
  exact Nat.le_add_right _ _

/-- What a line of the session comes to: its prompt behind the history, where the evaluation of that
starts, and the engine it leaves. -/
structure Course (s : Controller) (line : List UInt8) (usage : ConversationUsage)
    (b : PromptBuffers) (start : Nat) (engine : InferenceEngine) : Prop where
  rendered : rendering talk s.history.live line = (.ok usage, b)
  short : usage.promptTokens ≤ promptLimit
  nonempty : usage.promptTokens ≠ 0
  length : usage.promptTokens ≤ s.history.live.length + 100 + line.length
  inside : ∀ token ∈ b.tokens.take usage.promptTokens, token.toNat < vocabCount
  found : appendStart { s with working := b.tokens }
    ⟨usage.promptTokens, usage.prefixTokens, false⟩ = some start
  evaluated : ∃ step left, Controller.evaluate { s with working := b.tokens } talk
    ⟨⟨usage.promptTokens, usage.prefixTokens, false⟩, start, s.cachedLen ≠ 0⟩ .new =
      (.ok step, left) ∧ left.engine = engine
  position : engine.position = usage.promptTokens
  serial : engine.dispatcher = none

/-- The prompt of a short line is rendered. -/
lemma Standing.rendered (standing : Standing s) (conversing : Conversing talk s)
    (short : line.length ≤ 400) (printable : ∀ byte ∈ line, 0x20 ≤ byte ∧ byte ≤ 0x7e)
    (room : s.history.live.length + 700 ≤ promptLimit) :
    ∃ usage b, rendering talk s.history.live line = (.ok usage, b) ∧
      usage.promptTokens ≤ s.history.live.length + 100 + line.length ∧
      ∀ token ∈ b.tokens.take usage.promptTokens, token.toNat < vocabCount := by
  obtain ⟨turns, tokens, committed, fits, history⟩ := conversing
  have live : s.history.live = tokens := by rw [history, SessionHistory.live_of]
  have inside := standing.inside
  rw [live] at room inside ⊢
  have template := length_templateTokens_le lineIndex
  have total := length_promptTokens_le lineIndex line
  have limit : promptLimit + 1 = contextLimit := rfl
  have tokenLimit : Tokenizer.maxTokens = 599 := rfl
  have lent : Roomy line { lentBuffers zeroTokens with
      tokens := (lentBuffers zeroTokens).stagingTokens } := by
    refine ⟨?_, ?_, Nat.le_refl _, rfl⟩
    · show 148 + line.length ≤ (List.replicate renderedBytes 0).length
      rw [List.length_replicate, renderedBytes]
      omega
    · show Tokenizer.maxTokens ≤ (List.replicate Tokenizer.maxTokens 0).length
      rw [List.length_replicate]
  have zeros : contextLimit ≤ (lentBuffers zeroTokens).tokens.length :=
    Nat.le_of_eq List.length_replicate.symm
  have valid : checkConversation tokens line (lentBuffers zeroTokens) = .ok () :=
    checkConversation_room (short.trans (by decide)) (checkUserBytes_printable printable) fits
      committed.ends lent zeros
  obtain ⟨usage, b, run⟩ := renderConversation_runs lineIndex_ordinary lineIndex_newline valid
    (by omega) (by omega)
  obtain ⟨_, start, -, -, prompt, count⟩ := renderConversation_tokens run
  refine ⟨usage, b, run, ?_, ?_⟩
  · rw [count, List.length_append, List.length_drop]
    omega
  · intro token mem
    rw [prompt] at mem
    rcases List.mem_append.mp mem with old | new
    · exact inside token old
    · exact lineIndex_ordinary.promptTokens_lt token (List.mem_of_mem_drop new)

/-- A short line is evaluated: behind the cache, or from the start. -/
lemma Standing.course (standing : Standing s) (reachable : s.Reachable talk)
    (short : line.length ≤ 400) (printable : ∀ byte ∈ line, 0x20 ≤ byte ∧ byte ≤ 0x7e)
    (room : s.history.live.length + 700 ≤ promptLimit) :
    ∃ usage b start engine, Course s line usage b start engine := by
  have conversing := reachable.conversing
  obtain ⟨usage, b, rendered, length, inside⟩ :=
    standing.rendered conversing short printable room
  have fits : usage.promptTokens ≤ promptLimit := by omega
  have limit : promptLimit + 1 = contextLimit := rfl
  obtain ⟨-, -, full⟩ := rendering_tokens rendered
  -- the prompt stands behind the history, and the cache is in order
  have steady : Steady s { s with working := b.tokens } := (Steady.refl s).working b.tokens
  have cached : Cached talk { s with working := b.tokens } := reachable.cached.steady steady
  have ready : Repl.Ready talk s.history.live line
      ⟨usage.promptTokens, usage.prefixTokens, false⟩ { s with working := b.tokens } :=
    ⟨⟨usage, b, rendered, rfl, rfl, rfl⟩, full, fits⟩
  have conversing' : Conversing talk { s with working := b.tokens } := conversing
  obtain ⟨prompt, laid⟩ := ready.laid conversing'
  obtain ⟨start, found, warm⟩ := cached.appendStart laid
  have drafted : b.tokens.take usage.promptTokens = prompt := laid.drafted
  have count : usage.promptTokens = prompt.length := laid.count
  have planned : Plan.limit ⟨⟨usage.promptTokens, usage.prefixTokens, false⟩, start,
      s.cachedLen ≠ 0⟩ = min generationReserve (contextLimit - prompt.length) := by
    rw [Plan.limit, ← count]
  have evaluated : ∃ step left, Controller.evaluate { s with working := b.tokens } talk
      ⟨⟨usage.promptTokens, usage.prefixTokens, false⟩, start, s.cachedLen ≠ 0⟩ .new =
        (.ok step, left) ∧ left.engine.dispatcher = none := by
    have blank : Promptboot.Ready ⟨s.engine, zeroLogits, []⟩ :=
      ⟨cached.grounded.inv.scratch, rfl, standing.serial⟩
    have reserve : generationReserve = 1024 := rfl
    have known : ∀ token ∈ prompt, token.toNat < vocabCount := drafted ▸ inside
    have first : Generation.new.generated = 0 := rfl
    rw [Controller.evaluate, evaluation, if_pos first, planned]
    dsimp only
    rw [drafted]
    rcases standing.start with later | ⟨state, zero, empty⟩
    -- the engine carries the conversation but for its last token
    · obtain ⟨-, before, carries⟩ := warm later
      have position : s.engine.position = start := by
        rw [carries.position, List.length_take_of_le (by omega)]
      have rest : (prompt.drop start).length = prompt.length - start := List.length_drop
      have checks : s.engine.prefillRejection (prompt.drop start)
          (min generationReserve (contextLimit - prompt.length)) logitWords true = none := by
        refine prefillRejection_eq_none.mpr ⟨by omega, ?_, by omega, rfl, ?_⟩
        · exact List.ne_nil_of_length_pos (by omega)
        · exact fun token mem => known token (List.mem_of_mem_drop mem)
      obtain ⟨step, left, run, done⟩ := appendPrefill_zero blank carries.state checks
      have serial : left.engine.dispatcher = none := by
        rw [done.engine]
        exact standing.serial
      rw [if_pos (decide_eq_true later)]
      exact ⟨step, left, run, serial⟩
    -- nothing has been evaluated yet
    · have cold : s.cachedLen = 0 := by
        by_contra later
        obtain ⟨-, -, carries⟩ := warm later
        rcases carries.state with other | other <;> cases other.symm.trans state
      have checks : s.engine.freshRejection prompt
          (min generationReserve (contextLimit - prompt.length)) logitWords = none := by
        refine freshRejection_eq_none.mpr ⟨state, prefillRejection_eq_none.mpr
          ⟨by omega, ?_, by omega, rfl, known⟩⟩
        exact List.ne_nil_of_length_pos (Nat.lt_of_le_of_lt (Nat.zero_le _) laid.begins.2)
      have valid : ¬(usage.prefixTokens = 0 ∨ prompt.length ≤ usage.prefixTokens ∨
          maxTokens < usage.prefixTokens) := by
        have before : usage.prefixTokens = lineIndex.tokensBefore.length := laid.prefixTokens
        have positive := lineIndex.length_tokensBefore_pos
        have longer : lineIndex.tokensBefore.length < prompt.length := laid.begins.2
        have bound := length_tokensBefore_le
        have most : maxTokens = 599 := rfl
        omega
      obtain ⟨step, left, run, done⟩ := prefillWithPrefix_zero blank empty valid checks
      have serial : left.engine.dispatcher = none := by
        rw [done.engine]
        exact standing.serial
      rw [if_neg (by simp [cold])]
      exact ⟨step, _, run, serial⟩
  obtain ⟨step, left, run, serial⟩ := evaluated
  have generating := cached.generating laid found s.world.clock
  have carries := generating.evaluate laid.drafted run
  have nonempty : usage.promptTokens ≠ 0 := by
    have longer : lineIndex.tokensBefore.length < prompt.length := laid.begins.2
    omega
  refine ⟨usage, b, start, left.engine, rendered, fits, nonempty, length, inside, found,
    ⟨step, left, run, rfl⟩, ?_, serial⟩
  rw [carries.position, count]
  exact congrArg List.length (List.append_nil prompt)

/-- A line of the session that is no command is committed, and the session stands again, with the
conversation in the cache. -/
lemma Standing.turn (standing : Standing s) (reachable : s.Reachable talk) (enabled : Bool)
    (ordinary : carryOut talk enabled line = takeTurn talk line) (short : line.length ≤ 400)
    (printable : ∀ byte ∈ line, 0x20 ≤ byte ∧ byte ≤ 0x7e)
    (room : s.history.live.length + 700 ≤ promptLimit) :
    let t := s.handle talk (.accepted enabled line)
    Standing t ∧ t.cachedLen ≠ 0 ∧ t.historyTurns = s.historyTurns + 1 ∧
      t.history.live.length ≤ s.history.live.length + 101 + line.length := by
  obtain ⟨usage, b, start, engine, course⟩ := standing.course reachable short printable room
  obtain ⟨step, left, evaluated, rfl⟩ := course.evaluated
  obtain ⟨n, run⟩ := takeTurn_quiet standing.quiet talk_ends course.rendered course.short rfl
    course.found evaluated course.position
  have handled : s.handle talk (.accepted enabled line) =
      ({ s with working := b.tokens }.turned left.engine usage.promptTokens).atClock n := by
    have going : ¬s.terminal.isSome = true := by
      rw [standing.started]
      exact Bool.false_ne_true
    have done : Call.run talk (.accepted enabled line) s = _ := ordinary ▸ run
    rw [Controller.handle, if_neg going, done]
  have fits := course.short
  have limit : promptLimit + 1 = contextLimit := rfl
  obtain ⟨-, -, full⟩ := rendering_tokens course.rendered
  have prompt : (b.tokens.take usage.promptTokens).length = usage.promptTokens :=
    List.length_take_of_le (by omega)
  -- what is stored is the prompt and the end marker that the sampler answers with
  have live : (({ s with working := b.tokens }.turned left.engine
      usage.promptTokens).atClock n).history.live = b.tokens.take usage.promptTokens ++ [imEnd] := by
    show (b.tokens.take usage.promptTokens ++ [imEnd] ++ _).take (usage.promptTokens + 1) = _
    rw [List.take_left']
    rw [List.length_append, prompt, List.length_singleton]
  -- each turn has tokens, so the context bounds their number
  have turns : s.historyTurns < 2 ^ 32 - 1 := by
    obtain ⟨turns, tokens, committed, fits, history⟩ := reachable.conversing
    have count : s.historyTurns = turns.length := congrArg SessionHistory.historyTurns history
    have fewer := committed.length_le
    have small : contextLimit < 2 ^ 32 - 1 := by decide
    omega
  intro t
  rw [show t = _ from handled]
  refine ⟨⟨standing.quiet.congr rfl, standing.started, course.serial, ?_, .inl course.nonempty⟩,
    course.nonempty, ?_, ?_⟩
  · rw [live]
    intro token mem
    rcases List.mem_append.mp mem with old | new
    · exact course.inside token old
    · rw [List.mem_singleton.mp new]
      decide
  · exact Nat.min_eq_left turns
  · rw [live, List.length_append, prompt, List.length_singleton]
    have length := course.length
    omega

/-- A world in which nothing fails. -/
def quietWorld : World where
  clock := 0
  interrupt _ := .ok false
  sample _ := .ok imEnd
  console _ := .ok ()
  record _ := .ok ()
  status _ := .ok ()
  timer _ := .ok ()
  runtimeStatus _ := .ok ()
  sampled := []

/-- The session before its first line. -/
def talkStart : Controller := .new talkEngine quietWorld

/-- An empty history has no token. -/
lemma SessionHistory.live_empty : SessionHistory.empty.live = [] := List.take_zero

/-- An empty history has no turn. -/
lemma SessionHistory.historyTurns_empty {h : SessionHistory} (empty : h = .empty) :
    h.historyTurns = 0 := by
  rw [empty, SessionHistory.empty]

/-- The example starts with an empty history. -/
lemma talkStart_history : talkStart.history = .empty := rfl

/-- The example starts in a reachable state. -/
lemma talkStart_reachable : talkStart.Reachable talk := .new quietWorld build_talk

/-- The example starts ready for a line. -/
lemma talkStart_standing : Standing talkStart where
  quiet := ⟨fun _ => rfl, fun _ => rfl, fun _ => rfl, fun _ => rfl, fun _ => rfl, fun _ => rfl⟩
  started := rfl
  serial := rfl
  inside token mem := by
    rw [talkStart_history, SessionHistory.live_empty] at mem
    exact nomatch mem
  start := .inr ⟨rfl, rfl, rfl⟩

/-- The first line of the session is committed. -/
lemma talkStart_turn {t : Controller}
    (second : talkStart.handle talk (.accepted true (byteString "Hi")) = t) :
    Standing t ∧ t.cachedLen ≠ 0 ∧ t.historyTurns = 1 ∧ t.history.live.length ≤ 103 := by
  have none : talkStart.historyTurns = 0 := rfl
  have empty : talkStart.history.live.length = 0 := by
    rw [talkStart_history, SessionHistory.live_empty, List.length_nil]
  have command : carryOut talk true (byteString "Hi") = takeTurn talk (byteString "Hi") := rfl
  have turn := talkStart_standing.turn talkStart_reachable true command (by decide +kernel)
    (by decide +kernel) (by rw [empty]; decide)
  rw [second, none, empty] at turn
  exact turn

/-- The first line of a session is committed: its prompt and the answer to it are stored. -/
theorem turn_atomic_firstLine :
    ∃ t, talkStart.handle talk (.accepted true (byteString "Hi")) = t ∧
      ∃ prompt answer, IsPrompt talk [] (byteString "Hi") prompt ∧ answer ≠ [] ∧
        t.world.sampled = answer ∧
        t.committed.take t.committedLen = prompt ++ answer.dropLast ++ [imEnd] ∧
        t.historyTurns = 1 := by
  have atomic := turn_atomic talkStart_reachable true (byteString "Hi")
  obtain ⟨t, second⟩ : ∃ t, talkStart.handle talk (.accepted true (byteString "Hi")) = t := ⟨_, rfl⟩
  rw [second] at atomic
  obtain ⟨-, -, turns, -⟩ := talkStart_turn second
  obtain ⟨base, reset, settled⟩ := atomic.2 (fun new => absurd new.1 (by decide))
  have fresh : base = .empty := by
    rcases reset with same | ⟨-, same⟩
    · exact same.trans talkStart_history
    · exact same
  rcases settled with kept | ⟨prompt, answer, rendered, nonempty, sampled, stored, -⟩
  · have none : t.historyTurns = 0 := SessionHistory.historyTurns_empty (kept.trans fresh)
    rw [turns] at none
    cases none
  · rw [fresh, SessionHistory.live_empty] at rendered
    exact ⟨t, second, prompt, answer, rendered, nonempty, sampled, stored, turns⟩

/-- The second line of a session is evaluated behind what the cache holds, and committed. -/
theorem history_cache_coherent_secondLine :
    ∃ s, talkStart.handle talk (.accepted true (byteString "Hi")) = s ∧ Coherent talk s ∧
      s.cachedLen ≠ 0 ∧
      ∃ u turn t v start plan g w, setState s = (.ok (), u) ∧
        prepareTurn talk (byteString "Bye") u = (.ok (some turn), t) ∧ t.cachedLen ≠ 0 ∧
        appendStart t turn = some start ∧ plan = Plan.mk turn start (t.cachedLen ≠ 0) ∧
        emitGenerationStarted t = (.ok (), v) ∧
        generationLoop talk plan plan.limit .new v = (.ok g, w) ∧ g.committed ∧
        w.engine.position = w.committedLen - 1 := by
  have reachable : (talkStart.handle talk (.accepted true (byteString "Hi"))).Reachable talk :=
    talkStart_reachable.handle _
  obtain ⟨s, second⟩ : ∃ s, talkStart.handle talk (.accepted true (byteString "Hi")) = s := ⟨_, rfl⟩
  rw [second] at reachable
  obtain ⟨standing, warm, -, length⟩ := talkStart_turn second
  have room : s.history.live.length + 700 ≤ promptLimit :=
    le_trans (Nat.add_le_add_right length 700) (by decide)
  have bye : (byteString "Bye").length ≤ 400 := by decide +kernel
  obtain ⟨usage, b, start, engine, course⟩ := standing.course reachable bye (by decide +kernel) room
  obtain ⟨step, left, evaluated, rfl⟩ := course.evaluated
  obtain ⟨n, waiting⟩ := standing.quiet.setState
  obtain ⟨m, prepared⟩ := prepareTurn_quiet (standing.quiet.atClock n) course.rendered course.short
  have drafted : Quiet ({ s with working := b.tokens }.atClock m) := standing.quiet.congr rfl
  obtain ⟨coherent, turns⟩ := history_cache_coherent reachable
  obtain ⟨start', plan, found, planned, -, commits⟩ := turns _ _ _ _ waiting prepared
  have same : start' = start := Option.some.inj (found.symm.trans course.found)
  subst same
  obtain ⟨k, emitted⟩ := drafted.emitRecord
  have started : emitGenerationStarted ({ s with working := b.tokens }.atClock m) =
      (.ok (), { s with working := b.tokens }.atClock k) := by
    rw [emitGenerationStarted, onError, emitted]
    rfl
  have ready : Quiet ({ s with working := b.tokens }.atClock k) := standing.quiet.congr rfl
  obtain ⟨flag, j, loop⟩ : ∃ flag j, generationLoop talk plan plan.limit .new
      ({ s with working := b.tokens }.atClock k) = (.ok (endedAtOnce flag),
        ({ s with working := b.tokens }.ended left.engine usage.promptTokens).atClock j) := by
    subst planned
    exact generationLoop_quiet ready talk_ends evaluated (rendering_tokens course.rendered).2.2
      course.short
  exact ⟨s, second, coherent, warm, _, _, _, _, start', plan, _, _, waiting, prepared, warm, found,
    planned, started, loop, rfl, commits _ _ _ started loop rfl⟩

end Talk

end Repl
end Promptboot
