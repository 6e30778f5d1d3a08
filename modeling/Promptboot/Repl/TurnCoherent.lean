import Promptboot.Engine.Extend
import Promptboot.Repl.TurnAtomic

/-!
# The history and the cache

Between turns the cache is empty, or at the end of the prefix it retains, or it holds the stored
conversation up to its last end marker. A turn starts from the one or the other, so it never finds
an engine it cannot go on with.

`Cached` is the invariant between turns and `Generating` the one within the loop; `Grounded` is what
both leave open. The helpers `generationLoop_left` and `settleEngine_cached` are the loop and the
way out of it, and `call_cached` is the step of the session. The headline `history_cache_coherent`
is for every reachable controller.
-/

namespace Promptboot
namespace Repl
open Fallible

/-- What holds of the engine at all times. -/
structure Grounded (L : Loaded) (engine : InferenceEngine) : Prop where
  inv : engine.Invariant
  retains : engine.Retains L.kernels
  only : engine.RetainsOnly L.index.tokensBefore

/-- The cache between turns: to be filled from the start or from the retained prefix, or holding all
of the history but its last token. -/
inductive Cached (L : Loaded) (s : Controller) : Prop
  | cold : Grounded L s.engine → s.cachedLen = 0 →
    s.engine.position = 0 ∨ s.engine.position = s.engine.retainedPrefix.len → Cached L s
  | warm {tokens : List Token} {turns : Nat} : Grounded L s.engine → tokens ≠ [] →
    s.history = .of (tokens ++ [imEnd]) turns → s.cachedLen = tokens.length →
    s.engine.Carries L.kernels tokens → Cached L s

section Engine

variable {L : Loaded} {s t : Controller} {plan : Plan} {g g' : Generation} {prompt : List Token}
  {engine : InferenceEngine}

/-- A reset engine is grounded. -/
lemma Grounded.reset (engine : InferenceEngine) : Grounded L engine.reset :=
  ⟨engine.resetState_invariant, InferenceEngine.retains_of_empty rfl, .inl rfl⟩

/-- A reset to the prefix keeps an engine grounded. -/
lemma Grounded.resetToPrefix (grounded : Grounded L engine) : Grounded L engine.resetToPrefix.2 :=
  ⟨InferenceEngine.resetToPrefix_invariant grounded.inv,
    InferenceEngine.resetToPrefix_retains grounded.retains,
    grounded.only.congr engine.resetToPrefix_start.2.2⟩

/-- The engine behind a cache is grounded. -/
lemma Cached.grounded (cached : Cached L s) : Grounded L s.engine := by
  cases cached with
  | cold grounded => exact grounded
  | warm grounded => exact grounded

/-- A steady change keeps the cache. -/
lemma Cached.steady (cached : Cached L s) (steady : Steady s t) : Cached L t := by
  obtain ⟨history, engine, cachedLen, -⟩ := steady
  cases cached with
  | cold grounded empty start =>
    exact .cold (engine ▸ grounded) (cachedLen.trans empty) (by rw [engine]; exact start)
  | warm grounded nonempty stored length carries =>
    exact .warm (engine ▸ grounded) nonempty (history.trans stored) (cachedLen.trans length)
      (engine ▸ carries)

/-- The cache after a reset of the engine. -/
lemma Grounded.cached_reset (grounded : Grounded L engine) (empty : s.cachedLen = 0)
    (left : s.engine = engine.resetToPrefix.2 ∨ s.engine = engine.reset) : Cached L s := by
  rcases left with left | left
  · exact .cold (left ▸ grounded.resetToPrefix) empty
      (by rw [left]; exact engine.resetToPrefix_start.2.1)
  · exact .cold (left ▸ .reset engine) empty (.inl (by rw [left]; rfl))

/-- The prompt of a turn begins with the prefix that engines retain. -/
structure Prompted (L : Loaded) (plan : Plan) (prompt : List Token) : Prop where
  count : plan.promptCount = prompt.length
  before : prompt.take plan.prefixTokens = L.index.tokensBefore

/-- An evaluation grounds the engine again, whatever it returns. -/
lemma Grounded.evaluate (grounded : Grounded L s.engine) (prompted : Prompted L plan prompt)
    (drafted : s.working.take plan.promptCount = prompt) :
    Grounded L (s.evaluate L plan g).2.engine := by
  obtain ⟨inv, retains, only⟩ := grounded
  rw [Controller.evaluate, drafted]
  generalize run : evaluation L plan g prompt ⟨s.engine, List.replicate logitWords 0, []⟩ = left
  obtain ⟨r, left⟩ := left
  rw [evaluation] at run
  split at run
  · split at run
    · have settled := appendPrefill_settles (s := ⟨s.engine, _, []⟩) inv.scratch run
      have call := appendPrefill_call (s := ⟨s.engine, _, []⟩) inv run
      exact ⟨call.invariant, settled.retains inv retains, only.congr settled.retainedPrefix⟩
    · rw [← prompted.before] at only
      have call := prefillWithPrefix_call (s := ⟨s.engine, _, []⟩) inv run
      have only' := prefillWithPrefix_retainsOnly (s := ⟨s.engine, _, []⟩) inv only run
      rw [prompted.before] at only'
      exact ⟨call.invariant, prefillWithPrefix_retains (s := ⟨s.engine, _, []⟩) inv retains run, only'⟩
  · have settled := decodeInner_settles (s := ⟨s.engine, _, []⟩) run
    have call := decodeInner_call (s := ⟨s.engine, _, []⟩) inv run
    exact ⟨call.invariant, settled.retains inv retains, only.congr settled.retainedPrefix⟩

/-- The engine in the course of a generation: ready for the prompt, or behind all tokens but the
last. -/
structure Generating (L : Loaded) (plan : Plan) (prompt : List Token) (g : Generation)
    (s : Controller) : Prop where
  grounded : Grounded L s.engine
  ready : g.generated = 0 → plan.append → s.engine.Carries L.kernels (prompt.take plan.start)
  carried : g.generated ≠ 0 →
    s.engine.Carries L.kernels (prompt ++ (g.traces.map (·.id)).dropLast) ∧
      (g.traces.map (·.id)).getLast? = some g.previous
  uncommitted : g.committed = false

/-- A successful evaluation reaches behind the prompt and all tokens so far. -/
lemma Generating.evaluate {step : InferenceStep} {left : Evaluation}
    (generating : Generating L plan prompt g s)
    (drafted : s.working.take plan.promptCount = prompt)
    (run : s.evaluate L plan g = (.ok step, left)) :
    left.engine.Carries L.kernels (prompt ++ g.traces.map (·.id)) := by
  obtain ⟨inv, retains, -⟩ := generating.grounded
  rw [Controller.evaluate, drafted, evaluation] at run
  split at run
  · rename_i first
    have none : g.traces = [] := List.length_eq_zero_iff.mp first
    rw [none, List.map_nil, List.append_nil]
    split at run
    · rename_i append
      have carries := appendPrefill_carries (s := ⟨s.engine, _, []⟩) inv
        (generating.ready first append) run
      rwa [List.take_append_drop] at carries
    · exact prefillWithPrefix_carries (s := ⟨s.engine, _, []⟩) inv retains run
  · rename_i later
    obtain ⟨carries, last⟩ := generating.carried later
    have grown := decodeSelected_carries (s := ⟨s.engine, _, []⟩) inv carries run
    rwa [List.append_assoc, List.dropLast_append_getLast?] at grown
    exact last

/-- What a step does to the engine keeps it grounded. -/
lemma Touched.grounded {engine : InferenceEngine} (touched : Touched L plan g s engine)
    (grounded : Grounded L s.engine) (prompted : Prompted L plan prompt)
    (drafted : s.working.take plan.promptCount = prompt) : Grounded L engine := by
  rcases touched with rfl | rfl
  · exact grounded
  · exact grounded.evaluate prompted drafted

/-- A kept token is the next to be evaluated. -/
lemma Generating.kept {token : Token} {kind : PieceKind} (generating : Generating L plan prompt g s)
    (prompted : Prompted L plan prompt) (drafted : s.working.take plan.promptCount = prompt)
    (kept : Kept L plan g s token kind g' t) :
    Generating L plan prompt g' t ∧ t.engine.Carries L.kernels (prompt ++ g.traces.map (·.id)) := by
  obtain ⟨step, left, run, engine⟩ := kept.engine
  obtain ⟨entry, id, traces⟩ := kept.traces
  have carries := generating.evaluate drafted run
  rw [← engine] at carries
  have ids : g'.traces.map (·.id) = g.traces.map (·.id) ++ [token] := by
    rw [traces, List.map_append, List.map_singleton, id]
  have later : g'.generated ≠ 0 := by
    rw [Generation.generated, traces, List.length_append]
    exact Nat.succ_ne_zero _
  refine ⟨⟨kept.touched.grounded generating.grounded prompted drafted, ?_, ?_, ?_⟩, carries⟩
  · exact fun first => absurd first later
  · intro _
    rw [ids, List.dropLast_concat, List.getLast?_concat, kept.previous]
    exact ⟨carries, rfl⟩
  · rw [kept.committed, generating.uncommitted]

/-- What the loop leaves: an engine to be reset, or one that stands behind the stored turn. -/
inductive LoopLeft (L : Loaded) : Except TurnError Generation → Controller → Prop
  | stopped {g : Generation} {t : Controller} : Grounded L t.engine → g.committed = false → LoopLeft L (.ok g) t
  | timedOut {e : TurnError} {t : Controller} : Cached L t → LoopLeft L (.error e) t
  | committed {g : Generation} {t : Controller} {tokens : List Token} {turns : Nat} :
    Grounded L t.engine → tokens ≠ [] → t.history = .of (tokens ++ [imEnd]) turns → t.engine.Carries L.kernels tokens →
    LoopLeft L (.ok g) t

/-- The loop leaves an engine that settles. -/
lemma generationLoop_left {base : SessionHistory} {sampled : List Token} (nonempty : prompt ≠ [])
    (prompted : Prompted L plan prompt) (turns : Nat) (drafting : Drafting prompt base sampled g s)
    (generating : Generating L plan prompt g s)
    (room : prompt.length + g.generated + turns ≤ contextLimit) :
    Ensures (generationLoop L plan turns g) s (LoopLeft L) := by
  induction turns generalizing g s with
  | zero => exact .pure (.stopped generating.grounded generating.uncommitted)
  | succ turns ih =>
    have drafted : s.working.take plan.promptCount = prompt := by
      have front := congrArg (List.take prompt.length) drafting.drafted
      rw [List.take_take, Nat.min_eq_left (Nat.le_add_right _ _), List.take_left] at front
      rw [prompted.count, front]
    rw [generationLoop]
    refine Ensures.bind_of generateToken_outcome ?_ ?_
    · rintro step t outcome
      cases outcome with
      | stopped _ _ touched uncommitted =>
        exact .pure (.stopped (touched.grounded generating.grounded prompted drafted)
          (uncommitted.trans generating.uncommitted))
      | kept kept other =>
        have next := drafting.next prompted.count (by omega) kept other
        have generated := (drafting.working_kept prompted.count (by omega) kept).1
        exact ih next (generating.kept prompted drafted kept).1 (by omega)
      | committed kept commit =>
        obtain ⟨later, carries⟩ := generating.kept prompted drafted kept
        have stored := drafting.stored prompted.count (by omega) kept commit
        exact .pure (.committed later.grounded (by simp [nonempty]) stored carries)
    · rintro e t outcome
      cases outcome with
      | timedOut _ empty left =>
        obtain ⟨engine, touched, left⟩ := left
        have grounded := touched.grounded generating.grounded prompted drafted
        exact .timedOut (grounded.cached_reset empty (.inl left))

/-- A committed turn leaves the engine where the next one expects it. -/
lemma LoopLeft.position {g : Generation} (left : LoopLeft L (.ok g) t) (committed : g.committed) :
    t.engine.position = t.committedLen - 1 := by
  cases left with
  | stopped _ uncommitted => rw [uncommitted] at committed; cases committed
  | @committed _ _ tokens turns _ _ stored carries =>
    have length : t.committedLen = (tokens ++ [imEnd]).length :=
      congrArg SessionHistory.committedLen stored
    rw [carries.position, length, List.length_append]
    rfl

/-- Settling the engine leaves the cache right. -/
lemma settleEngine_cached {g : Generation} (left : LoopLeft L (.ok g) t) :
    Ensures (settleEngine g.endText) t fun _ u => Cached L u := by
  have same : g.endText.committed = g.committed := by
    rw [Generation.endText]
    split <;> rfl
  rw [settleEngine]
  apply Ensures.get_bind
  split
  · rename_i done
    rw [same] at done
    have position := left.position done.1
    rw [if_pos position]
    cases left with
    | stopped _ uncommitted => rw [uncommitted] at done; cases done.1
    | @committed _ _ tokens turns grounded nonempty stored carries =>
      apply Ensures.modify_bind
      exact .pure (.warm grounded nonempty stored (position.symm.trans carries.position) carries)
  · have grounded : Grounded L t.engine := by
      cases left with
      | stopped grounded => exact grounded
      | committed grounded => exact grounded
    apply Ensures.modify_bind
    exact .pure (grounded.cached_reset rfl (.inl rfl))

end Engine

section Turns

variable {L : Loaded} {line : List UInt8} {s t : Controller} {turn : Prepared}

/-- The prompt of a turn that is prepared, behind the history. -/
structure Laid (L : Loaded) (turn : Prepared) (t : Controller) (prompt : List Token) : Prop where
  drafted : t.working.take turn.promptCount = prompt
  count : turn.promptCount = prompt.length
  room : t.working.length = contextLimit
  limit : turn.promptCount ≤ promptLimit
  behind : t.history.live <+: prompt
  begins : L.index.Begins prompt
  prefixTokens : turn.prefixTokens = L.index.tokensBefore.length

/-- A prepared turn has its prompt laid out. -/
lemma Ready.laid (ready : Ready L t.history.live line turn t) (conversing : Conversing L t) :
    ∃ prompt, Laid L turn t prompt := by
  obtain ⟨⟨usage, b, rendered, count, before, drafted⟩, room, limit⟩ := ready
  obtain ⟨turns, tokens, committed, -, history⟩ := conversing
  rw [history, SessionHistory.live_of] at rendered
  obtain ⟨_, start, -, -, prompt, total⟩ := MergeIndex.renderConversation_tokens rendered
  refine ⟨_, drafted, ?_, room, limit, ?_, ?_, ?_⟩
  · rw [count, prompt, total]
  · rw [history, SessionHistory.live_of, prompt]
    exact List.prefix_append _ _
  · exact MergeIndex.renderConversation_begins rendered committed.begins
  · rw [before, MergeIndex.renderConversation_prefix rendered]

/-- The evaluation of a prepared prompt has a place to start. -/
lemma Cached.appendStart (cached : Cached L t) {prompt : List Token} (laid : Laid L turn t prompt) :
    ∃ start, appendStart t turn = some start ∧ (t.cachedLen ≠ 0 →
      start = t.cachedLen ∧ start < prompt.length ∧
        t.engine.Carries L.kernels (prompt.take start)) := by
  cases cached with
  | @warm tokens turns grounded nonempty stored cachedLen carries =>
    -- the engine carries the history but for its last token, and the prompt begins with it
    have live : t.history.live = tokens ++ [imEnd] := by rw [stored, SessionHistory.live_of]
    have behind := laid.behind
    rw [live] at behind
    have longer := behind.length_le
    rw [List.length_append, List.length_singleton] at longer
    have front : prompt.take tokens.length = tokens :=
      (List.prefix_iff_eq_take.mp ((List.prefix_append _ _).trans behind)).symm
    have first : 0 < tokens.length := List.length_pos_iff.mpr nonempty
    have committedLen : t.committedLen = tokens.length + 1 := by
      rw [show t.committedLen = t.history.committedLen from rfl, stored]
      exact List.length_append
    have committed : t.committed.take t.cachedLen = tokens := by
      rw [show t.committed = t.history.committed from rfl, stored, cachedLen]
      show ((tokens ++ [imEnd]) ++ _).take tokens.length = tokens
      rw [List.append_assoc, List.take_left]
    have working : t.working.take t.cachedLen = tokens := by
      rw [← front, ← laid.drafted, List.take_take, cachedLen, laid.count, Nat.min_eq_left (by omega)]
    refine ⟨t.cachedLen, ?_, fun _ => ⟨rfl, by omega, by rw [cachedLen, front]; exact carries⟩⟩
    rw [Repl.appendStart, if_pos]
    refine ⟨by omega, by omega, by rw [laid.count]; omega, by rw [carries.position, cachedLen], ?_⟩
    rw [working, committed]
  | cold grounded empty start =>
    -- nothing is cached, so the prompt starts at the retained prefix or at zero
    have warm : ¬(t.cachedLen ≠ 0 ∧ t.cachedLen + 1 = t.committedLen ∧
        t.cachedLen < turn.promptCount ∧ t.engine.position = t.cachedLen ∧
        t.working.take t.cachedLen = t.committed.take t.cachedLen) :=
      fun warm => warm.1 empty
    have positive := L.index.length_tokensBefore_pos
    have prefixed : turn.prefixTokens < turn.promptCount := by
      rw [laid.prefixTokens, laid.count]
      exact laid.begins.2
    rw [Repl.appendStart, if_neg warm]
    split
    · exact ⟨_, rfl, fun later => absurd empty later⟩
    · rename_i other
      have zero : t.engine.position = 0 := by
        rcases start with zero | retained
        · exact zero
        · rcases grounded.only with none | ⟨length, -⟩
          · rw [retained, none]
          · exact absurd ⟨empty, by rw [retained, length, laid.prefixTokens], prefixed⟩ other
      rw [if_pos ⟨empty, zero⟩]
      exact ⟨_, rfl, fun later => absurd empty later⟩

/-- The loop of a turn starts with an engine that can go on. -/
lemma Cached.generating (cached : Cached L t) {prompt : List Token} (laid : Laid L turn t prompt)
    {start : Nat} (found : Repl.appendStart t turn = some start) (n : Nat) :
    Generating L ⟨turn, start, t.cachedLen ≠ 0⟩ prompt .new (t.atClock n) := by
  refine ⟨cached.grounded, ?_, fun later => absurd rfl later, rfl⟩
  intro _ append
  obtain ⟨start', found', carries⟩ := cached.appendStart laid
  rw [found] at found'
  cases found'
  exact (carries (by simpa using append)).2.2

/-- A prompt that is laid out is drafted. -/
lemma Laid.drafting {prompt : List Token} (laid : Laid L turn t prompt) (n : Nat) :
    Drafting prompt t.history t.world.sampled .new (t.atClock n) := by
  refine ⟨rfl, ?_, laid.room, (List.append_nil _).symm⟩
  show t.working.take (prompt.length + 0) = prompt ++ []
  rw [Nat.add_zero, List.append_nil, ← laid.count, laid.drafted]

/-- What the loop of a prepared turn leaves. -/
lemma Cached.loop (cached : Cached L t) {prompt : List Token} (laid : Laid L turn t prompt)
    {start : Nat} (found : Repl.appendStart t turn = some start) (n : Nat) {plan : Plan}
    (planned : plan = ⟨turn, start, t.cachedLen ≠ 0⟩) :
    Ensures (generationLoop L plan plan.limit .new) (t.atClock n) (LoopLeft L) := by
  have prompted : Prompted L plan prompt := by
    subst planned
    refine ⟨laid.count, ?_⟩
    show prompt.take turn.prefixTokens = _
    rw [laid.prefixTokens, laid.begins.take]
  have nonempty : prompt ≠ [] := by
    rintro rfl
    exact absurd laid.begins.2 (Nat.not_lt_zero _)
  have room : prompt.length + Generation.new.generated + plan.limit ≤ contextLimit := by
    have limit := laid.limit
    have count := laid.count
    have bound : promptLimit ≤ contextLimit := Nat.sub_le _ _
    rw [Plan.limit, prompted.count]
    show prompt.length + 0 + _ ≤ _
    omega
  have generating := cached.generating laid found n
  rw [← planned] at generating
  exact generationLoop_left nonempty prompted _ (laid.drafting n) generating room

/-- Generating leaves the cache right. -/
lemma generate_cached (cached : Cached L t) {prompt : List Token} (laid : Laid L turn t prompt) :
    Ensures (generate L turn) t fun _ u => Cached L u := by
  obtain ⟨start, found, -⟩ := cached.appendStart laid
  rw [generate]
  apply Ensures.get_bind
  rw [found]
  rcases emitGenerationStarted_cases t with ⟨n, started⟩ | ⟨e, n, failed⟩
  · apply Ensures.bind_run started
    refine Ensures.bind_of (cached.loop laid found n rfl) (fun g u left => ?_) (fun e u left => ?_)
    · refine Ensures.bind_of (settleEngine_cached left) (fun g u cached => ?_) fun _ _ cached => cached
      exact cached.steady ((Still.bind .closeLine fun _ => .reportTurn) u)
    · cases left with
      | timedOut cached => exact cached
  · exact Ensures.bind_stop failed (cached.grounded.cached_reset rfl (.inl rfl))

/-- What a turn is based on has the cache right. -/
lemma Based.coherent {base : SessionHistory} (based : Based L line s base t) (cached : Cached L s)
    (conversing : Conversing L s) : Cached L t ∧ Conversing L t := by
  cases based with
  | kept steady =>
    obtain ⟨turns, tokens, committed, fits, history⟩ := conversing
    exact ⟨cached.steady steady, turns, tokens, committed, fits, steady.history.trans history⟩
  | dropped _ history empty left =>
    refine ⟨?_, conversing_empty history⟩
    rcases left with left | left
    · exact cached.grounded.cached_reset empty (.inl left)
    · exact cached.grounded.resetToPrefix.cached_reset empty (.inr left)

/-- A prepared turn finds cache and history in order, and its prompt behind them. -/
lemma PrepareOutcome.coherent {r : Except TurnError (Option Prepared)}
    (outcome : PrepareOutcome L line s r t) (cached : Cached L s) (conversing : Conversing L s) :
    Cached L t ∧ Conversing L t ∧ ∀ turn, r = .ok (some turn) → ∃ prompt, Laid L turn t prompt := by
  obtain ⟨base, based, ready⟩ := outcome
  obtain ⟨cached', conversing'⟩ := based.coherent cached conversing
  refine ⟨cached', conversing', fun turn same => ?_⟩
  have stands := ready turn same
  rw [← based.base_cases.1] at stands
  exact stands.laid conversing'

/-- A turn leaves the cache right. -/
lemma acceptedTurn_cached (cached : Cached L s) (conversing : Conversing L s) :
    Ensures (acceptedTurn L line) s fun _ t => Cached L t := by
  rw [acceptedTurn]
  refine Ensures.bind_of prepareTurn_outcome (fun prepared t outcome => ?_) (fun e t outcome => ?_)
  · obtain ⟨cached, -, laid⟩ := outcome.coherent cached conversing
    cases prepared with
    | none => exact .pure cached
    | some turn =>
      obtain ⟨prompt, laid⟩ := laid turn rfl
      exact generate_cached cached laid
  · exact (outcome.coherent cached conversing).1

/-- A line that is taken leaves the cache right. -/
lemma takeTurn_cached (cached : Cached L s) (conversing : Conversing L s) :
    Ensures (takeTurn L line) s fun _ t => Cached L t := by
  have later (n : Nat) : Cached L (s.atClock n) := cached.steady ((Steady.refl s).atClock n)
  rw [takeTurn]
  refine (Outward.demand .outside).bind_ensures (fun _ n => ?_) (fun e n => later n)
  have turn : Ensures (attempt (acceptedTurn L line) : SessionM _) (s.atClock n) fun _ t =>
      Cached L t :=
    .attempt (acceptedTurn_cached (later n) conversing)
  refine Ensures.bind_of turn (fun turn t cached => ?_) fun e t cached => cached
  exact cached.steady (Still.showAndFinish t)

/-- A new session leaves the cache right. -/
lemma newSession_cached (cached : Cached L s) :
    Ensures newSession s fun _ t => Cached L t := by
  have shown : Outward (do
      demand (outside World.console) (.ofEfi "CONOUT_CLEAR" "output")
      say "new session\r\n"
      setState : SessionM Unit) :=
    .bind (.demand .outside) fun _ => .bind .say fun _ => .demand .outside
  apply Ensures.modify_bind
  apply Ensures.modify_bind
  exact shown.ensures fun r n => cached.grounded.cached_reset rfl (.inr rfl)

/-- Every call of the editor keeps the cache in order. -/
lemma call_cached {call : Call} (cached : Cached L s) (conversing : Conversing L s) :
    Ensures (call.run L) s fun _ t => Cached L t := by
  have outward {c : SessionM Unit} (h : Outward c) : Ensures c s fun _ t => Cached L t :=
    cached.steady (h.still s)
  cases call with
  | liveAscii byte => exact outward (.demand .writeAscii)
  | eraseLast => exact outward (.demand .writeAscii)
  | accepted enabled line =>
    rw [Call.run, carryOut]
    split
    · exact outward toggleEvents_outward
    split
    · exact outward showHelp_outward
    split
    · exact outward (.demand .outside)
    split
    · exact newSession_cached cached
    · exact takeTurn_cached cached conversing
  | rejected => exact outward (.bind .say fun _ => .demand .outside)
  | prompt => exact outward (.bind (.demand .outside) fun _ => .say)

/-- The cache is in order in every state that a session can come to. -/
lemma Controller.Reachable.cached (reachable : s.Reachable L) : Cached L s := by
  induction reachable with
  | @new cpu kv scratch dispatcher engine world built =>
    have length : (List.replicate logitWords (0 : Word)).length = logitWords :=
      List.length_replicate
    obtain ⟨restarted, -, empty⟩ := build_restarted built (.refl engine) length
    exact .cold ⟨build_invariant built, build_retains built, .inl empty⟩ rfl
      (.inl restarted.position)
  | @handle s call reachable ih =>
    rcases ended : s.terminal with _ | failure
    · refine handle_of_ensures ended (Q := Cached L) (call_cached ih reachable.conversing) ?_
      exact fun t failure cached => cached.steady ⟨rfl, rfl, rfl, rfl⟩
    · rw [Controller.handle, ended]
      exact ih

/-- The history and the cache between turns. -/
structure Coherent (L : Loaded) (s : Controller) : Prop where
  bound : s.committedLen ≤ contextLimit
  ended : s.committedLen = 0 ∨ (s.committed.take s.committedLen).getLast? = some imEnd
  zeros : s.committed.drop s.committedLen = List.replicate (contextLimit - s.committedLen) 0
  cache : s.cachedLen = 0 ∨
    s.cachedLen + 1 = s.committedLen ∧ s.engine.position = s.cachedLen ∧
      s.engine.Holds L.kernels (s.committed.take s.cachedLen)
  start : s.cachedLen = 0 → s.engine.position = 0 ∨
    s.engine.position = s.engine.retainedPrefix.len ∧
      s.engine.retainedTokens = L.index.tokensBefore

/-- A right cache and a conversation are coherent. -/
lemma Cached.coherent (cached : Cached L s) (conversing : Conversing L s) : Coherent L s := by
  obtain ⟨turns, tokens, committed, fits, history⟩ := conversing
  have length : s.committedLen = tokens.length := congrArg SessionHistory.committedLen history
  have stored : s.committed = tokens ++ List.replicate (contextLimit - tokens.length) 0 :=
    congrArg SessionHistory.committed history
  refine ⟨length ▸ fits, ?_, ?_, ?_, ?_⟩
  · rw [length, stored, List.take_left, List.length_eq_zero_iff]
    exact committed.ends
  · rw [length, stored, List.drop_left]
  · cases cached with
    | cold _ empty => exact .inl empty
    | @warm tokens' turns' _ _ history' cachedLen carries =>
      have length' : s.committedLen = (tokens' ++ [imEnd]).length :=
        congrArg SessionHistory.committedLen history'
      have stored' : s.committed = (tokens' ++ [imEnd]) ++ _ :=
        congrArg SessionHistory.committed history'
      refine .inr ⟨?_, carries.position.trans cachedLen.symm, ?_⟩
      · rw [length', cachedLen, List.length_append]
        rfl
      · rw [cachedLen, stored', List.append_assoc, List.take_left]
        exact carries.holds
  · intro empty
    cases cached with
    | cold grounded _ start =>
      rcases start with zero | retained
      · exact .inl zero
      · rcases grounded.only with none | ⟨_, system⟩
        · exact .inl (retained.trans none)
        · exact .inr ⟨retained, system⟩
    | warm _ nonempty _ cachedLen =>
      exact absurd (List.length_eq_zero_iff.mp (cachedLen.symm.trans empty)) nonempty

/-- An append that is rejected has a token outside the vocabulary. -/
lemma appendRejection_status {engine : InferenceEngine} {rest : List Token} {reserve : Nat}
    {error : InferenceError} (state : engine.state = .ready ∨ engine.state = .eos)
    (positive : 1 ≤ reserve) (nonempty : rest ≠ [])
    (fits : engine.position + rest.length + reserve ≤ contextLimit)
    (rejected : engine.appendRejection rest reserve logitWords = some error) :
    error.status = .tokenId := by
  have checks : engine.prefillRejection rest reserve logitWords true = some error := by
    unfold InferenceEngine.appendRejection at rejected
    rcases state with state | state <;> rwa [state] at rejected
  unfold InferenceEngine.prefillRejection at checks
  dsimp only at checks
  rw [if_neg (by omega), if_neg nonempty, if_neg (by simp), if_neg (by omega),
    logitsError_eq_none.mpr rfl, Option.none_or, tokenRejection, Option.map_eq_some_iff] at checks
  obtain ⟨⟨token, index⟩, -, rfl⟩ := checks
  rfl

/-- The history and the cache stay coherent: between turns the cache is empty, or it holds the
stored conversation but for its last token. So a turn always finds where its evaluation starts, an
append is never rejected for the state of the engine or for its budget, and a turn that is committed
leaves the engine at the position that is expected. -/
theorem history_cache_coherent (reachable : s.Reachable L) :
    Coherent L s ∧
    ∀ line u turn t, setState s = (.ok (), u) → prepareTurn L line u = (.ok (some turn), t) →
      ∃ start plan, appendStart t turn = some start ∧
        plan = Plan.mk turn start (t.cachedLen ≠ 0) ∧
        (t.cachedLen ≠ 0 → ∀ error,
          t.engine.appendRejection ((t.working.take plan.promptCount).drop plan.start) plan.limit
            logitWords = some error → error.status = .tokenId) ∧
        ∀ v g w, emitGenerationStarted t = (.ok (), v) →
          generationLoop L plan plan.limit .new v = (.ok g, w) → g.committed →
          w.engine.position = w.committedLen - 1 := by
  refine ⟨reachable.cached.coherent reachable.conversing, ?_⟩
  intro line u turn t waiting prepared
  have shown : Outward setState := .demand .outside
  obtain ⟨n, left⟩ := shown s
  rw [waiting] at left
  subst left
  have steady := (Steady.refl s).atClock n
  have outcome : PrepareOutcome L line (s.atClock n) (.ok (some turn)) t := by
    have ensured : Ensures (prepareTurn L line) (s.atClock n) (PrepareOutcome L line (s.atClock n)) :=
      prepareTurn_outcome
    rwa [Ensures, prepared] at ensured
  obtain ⟨cached, conversing, laid⟩ :=
    outcome.coherent (reachable.cached.steady steady) reachable.conversing
  -- the preparation leaves a prompt behind what the engine carries
  obtain ⟨prompt, laid⟩ := laid turn rfl
  obtain ⟨start, found, warm⟩ := cached.appendStart laid
  refine ⟨start, _, found, rfl, ?_, ?_⟩
  -- a turn on a warm engine appends what the engine does not carry yet
  · intro later error
    obtain ⟨-, inside, carries⟩ := warm later
    have limit := laid.limit
    have count := laid.count
    have bound : promptLimit + 1 = contextLimit := rfl
    have drafted : t.working.take turn.promptCount = prompt := laid.drafted
    have total : Plan.limit ⟨turn, start, t.cachedLen ≠ 0⟩ =
        min generationReserve (contextLimit - prompt.length) := by
      rw [Plan.limit, ← count]
    have reserve : generationReserve = 1024 := rfl
    have position := carries.position
    rw [List.length_take_of_le (by omega)] at position
    have length : (prompt.drop start).length = prompt.length - start := List.length_drop
    rw [drafted, total]
    refine appendRejection_status carries.state ?_ ?_ ?_
    · omega
    · apply List.ne_nil_of_length_pos
      show 0 < (prompt.drop start).length
      omega
    · show t.engine.position + (prompt.drop start).length + _ ≤ _
      omega
  -- the loop goes on from there, and a committed turn ends at its marker
  · intro v g w started loop committed
    rcases emitGenerationStarted_cases t with ⟨n, started'⟩ | ⟨e, n, failed⟩
    · rw [started] at started'
      cases started'
      have left := cached.loop laid found n rfl
      rw [Ensures, loop] at left
      exact left.position committed
    · rw [started] at failed
      cases failed

end Turns

end Repl
end Promptboot
