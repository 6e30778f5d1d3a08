import Promptboot.Engine.ZeroKernels
import Promptboot.Repl.TurnPrepare
import Promptboot.Tokenizer.SystemPrefix

/-!
# Turns are atomic

Whatever a turn meets on its way, the stored conversation is what it was, or it has grown by the
whole turn; only a reset of the history and `/new` make it shorter, and they empty it.

`Drafting` is the invariant of the loop: the stored conversation is untouched and the working buffer
extends it. `generationLoop_settled` is its induction and `takeTurn_outcome` the turn, failures
included; `call_outcome` covers the commands. The headline `turn_atomic` also says when a turn
commits.
-/

namespace Promptboot
namespace Repl
open Fallible

section Loop

variable {L : Loaded} {plan : Plan} {g g' : Generation} {s t : Controller}
  {prompt sampled : List Token} {base : SessionHistory}

/-- The turn is stored: its prompt, and all that was sampled for it, up to an end marker. -/
def Completed (prompt : List Token) (base : SessionHistory) (sampled : List Token)
    (t : Controller) : Prop :=
  ∃ answer, answer ≠ [] ∧ t.world.sampled = sampled ++ answer ∧
    prompt.length + answer.length ≤ contextLimit ∧
    t.history = .of (prompt ++ answer.dropLast ++ [imEnd]) (min (base.historyTurns + 1) (2 ^ 32 - 1))

/-- A turn that is over: nothing is stored of it, or all. -/
def Settled (prompt : List Token) (base : SessionHistory) (sampled : List Token)
    (t : Controller) : Prop :=
  t.history = base ∨ Completed prompt base sampled t

/-- The working buffer holds the prompt and the tokens so far; the history waits. -/
structure Drafting (prompt : List Token) (base : SessionHistory) (sampled : List Token)
    (g : Generation) (s : Controller) : Prop where
  history : s.history = base
  drafted : s.working.take (prompt.length + g.generated) = prompt ++ g.traces.map (·.id)
  room : s.working.length = contextLimit
  sampled : s.world.sampled = sampled ++ g.traces.map (·.id)

/-- The front of a list with its next element set. -/
lemma take_set_succ {α : Type} {l : List α} {n : Nat} (inside : n < l.length) (x : α) :
    (l.set n x).take (n + 1) = l.take n ++ [x] := by
  rw [List.take_add_one, List.take_set_of_le (Nat.le_refl n), List.getElem?_set_self inside]
  rfl

/-- A kept token is the next one behind the draft. -/
lemma Drafting.working_kept {token : Token} {kind : PieceKind}
    (drafting : Drafting prompt base sampled g s) (count : plan.promptCount = prompt.length)
    (inside : prompt.length + g.generated < contextLimit) (kept : Kept L plan g s token kind g' t) :
    g'.generated = g.generated + 1 ∧ t.working.length = contextLimit ∧
      t.working.take (prompt.length + g'.generated) =
        prompt ++ g.traces.map (·.id) ++ [storedToken token kind] := by
  obtain ⟨entry, -, traces⟩ := kept.traces
  have generated : g'.generated = g.generated + 1 := by
    rw [Generation.generated, traces, List.length_append]
    rfl
  refine ⟨generated, ?_, ?_⟩
  · rw [kept.working, List.length_set, drafting.room]
  · rw [kept.working, count, generated, ← Nat.add_assoc,
      take_set_succ (by rw [drafting.room]; exact inside), drafting.drafted]

/-- A token that is kept is drafted behind the others. -/
lemma Drafting.next {token : Token} {kind : PieceKind}
    (drafting : Drafting prompt base sampled g s) (count : plan.promptCount = prompt.length)
    (inside : prompt.length + g.generated < contextLimit) (kept : Kept L plan g s token kind g' t)
    (other : kind ≠ .eos) : Drafting prompt base sampled g' t := by
  obtain ⟨-, room, working⟩ := drafting.working_kept count inside kept
  obtain ⟨entry, id, traces⟩ := kept.traces
  have ids : g'.traces.map (·.id) = g.traces.map (·.id) ++ [token] := by
    rw [traces, List.map_append, List.map_singleton, id]
  refine ⟨kept.history.trans drafting.history, ?_, room, ?_⟩
  · rw [working, ids, storedToken, if_neg other, List.append_assoc]
  · rw [kept.sampled, drafting.sampled, ids, List.append_assoc]

/-- What is committed is the front of the working tokens. -/
lemma commitEos_some {working committed : List Token} {n : Nat}
    (h : commitEos working n = some committed) :
    n ≤ contextLimit ∧ committed = working.take n ++ List.replicate (contextLimit - n) 0 := by
  rw [commitEos] at h
  split at h
  · cases h
  · rename_i fits
    push Not at fits
    exact ⟨fits.2.1, (Option.some.inj h).symm⟩

/-- What an end marker behind the draft stores. -/
lemma Drafting.stored {token : Token} {committed : List Token}
    (drafting : Drafting prompt base sampled g s) (count : plan.promptCount = prompt.length)
    (inside : prompt.length + g.generated < contextLimit) (kept : Kept L plan g s token .eos g' t)
    (commit : commitEos t.working (plan.promptCount + g'.generated) = some committed) :
    SessionHistory.mk committed (plan.promptCount + g'.generated)
        (min (s.historyTurns + 1) (2 ^ 32 - 1)) =
      .of (prompt ++ g.traces.map (·.id) ++ [imEnd]) (min (base.historyTurns + 1) (2 ^ 32 - 1)) := by
  obtain ⟨generated, room, working⟩ := drafting.working_kept count inside kept
  obtain ⟨-, stored⟩ := commitEos_some commit
  have turns : s.historyTurns = base.historyTurns :=
    congrArg SessionHistory.historyTurns drafting.history
  have length :
      (prompt ++ g.traces.map (·.id) ++ [imEnd]).length = prompt.length + g'.generated := by
    simp only [List.length_append, List.length_map, List.length_singleton, generated]
    rfl
  rw [count, working, storedToken, if_pos rfl] at stored
  rw [SessionHistory.of, length, ← turns, stored, count]

/-- An end marker behind the draft completes the turn. -/
lemma Drafting.complete {token : Token} {committed : List Token}
    (drafting : Drafting prompt base sampled g s) (count : plan.promptCount = prompt.length)
    (inside : prompt.length + g.generated < contextLimit) (kept : Kept L plan g s token .eos g' t)
    (commit : commitEos t.working (plan.promptCount + g'.generated) = some committed) :
    Completed prompt base sampled { t with
      committed
      committedLen := plan.promptCount + g'.generated
      historyTurns := min (s.historyTurns + 1) (2 ^ 32 - 1) } := by
  have stored := drafting.stored count inside kept commit
  refine ⟨g.traces.map (·.id) ++ [token], by simp, ?_, ?_, ?_⟩
  · show t.world.sampled = _
    rw [kept.sampled, drafting.sampled, List.append_assoc]
  · simp only [List.length_append, List.length_map, List.length_singleton]
    exact inside
  · rw [List.dropLast_concat]
    exact stored

/-- The loop leaves the history alone until it completes the turn. -/
lemma generationLoop_settled (count : plan.promptCount = prompt.length) (turns : Nat)
    (drafting : Drafting prompt base sampled g s)
    (room : prompt.length + g.generated + turns ≤ contextLimit) :
    Ensures (generationLoop L plan turns g) s fun _ t => Settled prompt base sampled t := by
  induction turns generalizing g s with
  | zero => exact .pure (.inl drafting.history)
  | succ turns ih =>
    rw [generationLoop]
    refine Ensures.bind_of generateToken_outcome ?_ ?_
    · rintro step t outcome
      cases outcome with
      | stopped history => exact .pure (.inl (history.trans drafting.history))
      | kept kept other =>
        have next := drafting.next count (by omega) kept other
        have generated := (drafting.working_kept count (by omega) kept).1
        exact ih next (by omega)
      | committed kept commit =>
        exact .pure (.inr (drafting.complete count (by omega) kept commit))
    · rintro e t outcome
      cases outcome with
      | timedOut history => exact .inl (history.trans drafting.history)

end Loop

section Calm

variable {ε α β : Type}

/-- The computation leaves the history and the record of what was sampled alone. -/
def Calm (c : Fallible Controller ε α) : Prop :=
  ∀ s, (c s).2.history = s.history ∧ (c s).2.world.sampled = s.world.sampled

namespace Calm

/-- Calm parts are calm in succession. -/
lemma bind {c : Fallible Controller ε α} {f : α → Fallible Controller ε β} (hc : Calm c)
    (hf : ∀ a, Calm (f a)) : Calm (c >>= f) := by
  intro s
  obtain ⟨history, sampled⟩ := hc s
  rcases run : c s with ⟨e | a, t⟩ <;> rw [run] at history sampled
  · rw [bind_error run]
    exact ⟨history, sampled⟩
  · obtain ⟨history', sampled'⟩ := hf a t
    rw [bind_ok run]
    exact ⟨history'.trans history, sampled'.trans sampled⟩

/-- A failure is calm. -/
lemma fail {e : ε} : Calm (Fallible.fail e : Fallible Controller ε α) := fun _ => ⟨rfl, rfl⟩

/-- A reset of the engine is calm. -/
lemma resetEngineFresh : Calm (resetEngineFresh : Fallible Controller ε Unit) :=
  fun _ => ⟨rfl, rfl⟩

end Calm

/-- What is still is calm. -/
lemma Still.calm {c : Fallible Controller ε α} (h : Still c) : Calm c :=
  fun s => ⟨(h s).history, (h s).sampled⟩

/-- A calm computation keeps a turn settled. -/
lemma Settled.calm {prompt sampled : List Token} {base : SessionHistory} {t : Controller}
    (settled : Settled prompt base sampled t) {c : Fallible Controller ε α} (h : Calm c) :
    Ensures c t fun _ u => Settled prompt base sampled u := by
  obtain ⟨history, sampled⟩ := h t
  rw [Ensures, Settled, Completed, history, sampled]
  exact settled

/-- Settling the engine is calm. -/
lemma settleEngine_calm {g : Generation} : Calm (settleEngine g) := by
  intro s
  rw [settleEngine, bind_ok (get_apply s)]
  split
  · split <;> exact ⟨rfl, rfl⟩
  · exact ⟨rfl, rfl⟩

end Calm

section Generate

variable {L : Loaded} {turn : Prepared} {s : Controller} {prompt : List Token}

/-- A generation over a prompt in the working buffer stores nothing of the turn, or all. -/
lemma generate_settled (prepared : s.working.take turn.promptCount = prompt)
    (count : turn.promptCount = prompt.length) (room : s.working.length = contextLimit) :
    Ensures (generate L turn) s fun _ t => Settled prompt s.history s.world.sampled t := by
  have inside : turn.promptCount ≤ contextLimit := by
    rw [count, ← prepared, List.length_take, room]
    omega
  rw [generate]
  apply Ensures.get_bind
  split
  · exact Settled.calm (.inl rfl) (.bind .resetEngineFresh fun _ => .fail)
  rename_i start _
  dsimp only
  generalize plan_eq : Plan.mk turn start _ = plan
  have planned : plan.promptCount = prompt.length := by
    rw [← plan_eq]
    exact count
  have limit : prompt.length + Generation.new.generated + plan.limit ≤ contextLimit := by
    rw [Plan.limit, planned, ← count]
    simp only [Generation.new, Generation.generated, List.length_nil]
    omega
  rcases emitGenerationStarted_cases s with ⟨n, started⟩ | ⟨e, n, failed⟩
  · apply Ensures.bind_run started
    have drafting : Drafting prompt s.history s.world.sampled .new (s.atClock n) := by
      refine ⟨rfl, ?_, room, (List.append_nil _).symm⟩
      exact (congrArg (s.working.take ·) count.symm).trans (prepared.trans (List.append_nil _).symm)
    have loop := generationLoop_settled (L := L) planned plan.limit drafting limit
    refine Ensures.bind_of loop (fun g t settled => ?_) fun _ _ settled => settled
    exact settled.calm (.bind settleEngine_calm fun _ => (Still.bind .closeLine fun _ => .reportTurn).calm)
  · exact Ensures.bind_stop failed (.inl rfl)

end Generate

section Lines

variable {L : Loaded} {line : List UInt8} {s t : Controller}

/-- The tokens of the prompt of a line behind a history. -/
def IsPrompt (L : Loaded) (history : List Token) (line : List UInt8) (prompt : List Token) : Prop :=
  ∃ usage b, rendering L history line = (.ok usage, b) ∧ prompt = b.tokens.take usage.promptTokens

/-- What a line leaves: nothing of its turn is stored, or all, behind the history from before or,
if that had to go, behind none. -/
def LineOutcome (L : Loaded) (line : List UInt8) (s t : Controller) : Prop :=
  ∃ base, (base = s.history ∨ DropsHistory L s.history line ∧ base = .empty) ∧
    (t.history = base ∨
      ∃ prompt, IsPrompt L base.live line prompt ∧ Completed prompt base s.world.sampled t)

/-- An unchanged history is an outcome of the line. -/
lemma LineOutcome.unchanged (h : t.history = s.history) : LineOutcome L line s t :=
  ⟨s.history, .inl rfl, .inl h⟩

/-- A calm computation keeps the outcome. -/
lemma LineOutcome.calm {ε α : Type} (outcome : LineOutcome L line s t)
    {c : Fallible Controller ε α} (h : Calm c) :
    Ensures c t fun _ u => LineOutcome L line s u := by
  obtain ⟨base, reset, settled⟩ := outcome
  obtain ⟨history, sampled⟩ := h t
  refine ⟨base, reset, settled.imp history.trans ?_⟩
  rintro ⟨prompt, rendered, answer, nonempty, grown, fits, stored⟩
  exact ⟨prompt, rendered, answer, nonempty, sampled.trans grown, fits, history.trans stored⟩

/-- A turn is based on the history, or on an empty one that replaced it. -/
lemma Based.base_cases {base : SessionHistory} (based : Based L line s base t) :
    t.history = base ∧ t.world.sampled = s.world.sampled ∧
      (base = s.history ∨ DropsHistory L s.history line ∧ base = .empty) := by
  cases based with
  | kept steady => exact ⟨steady.history, steady.sampled, .inl rfl⟩
  | dropped drops history _ _ sampled => exact ⟨history, sampled, .inr ⟨drops, rfl⟩⟩

/-- A turn leaves the outcome of its line. -/
lemma acceptedTurn_outcome :
    Ensures (acceptedTurn L line) s fun _ t => LineOutcome L line s t := by
  rw [acceptedTurn]
  refine Ensures.bind_of prepareTurn_outcome ?_ ?_
  · rintro prepared t ⟨base, based, ready⟩
    obtain ⟨history, sampled, reset⟩ := based.base_cases
    cases prepared with
    | none => exact .pure ⟨base, reset, .inl history⟩
    | some turn =>
      obtain ⟨⟨usage, b, rendered, count, -, prompt⟩, room, limit⟩ := ready turn rfl
      obtain ⟨-, fits, length⟩ := rendering_tokens rendered
      have total : turn.promptCount = (b.tokens.take usage.promptTokens).length := by
        rw [List.length_take, length, count, Nat.min_eq_left fits]
      refine (generate_settled prompt total room).mono fun r u settled => ?_
      rw [history, sampled] at settled
      refine ⟨base, reset, settled.imp_right fun completed => ?_⟩
      exact ⟨_, ⟨usage, b, rendered, rfl⟩, completed⟩
  · rintro e t ⟨base, based, -⟩
    obtain ⟨history, -, reset⟩ := based.base_cases
    exact ⟨base, reset, .inl history⟩

/-- A line that is taken leaves its outcome. -/
lemma takeTurn_outcome : Ensures (takeTurn L line) s fun _ t => LineOutcome L line s t := by
  rw [takeTurn]
  refine (Outward.demand .outside).bind_ensures (fun _ n => ?_) (fun e n => .unchanged rfl)
  have turn : Ensures (attempt (acceptedTurn L line) : SessionM _) (s.atClock n) fun _ t =>
      LineOutcome L line s t :=
    .attempt acceptedTurn_outcome
  refine Ensures.bind_of turn (fun turn t outcome => ?_) fun e t outcome => outcome
  exact outcome.calm Still.showAndFinish.calm

/-- Switching the events acts on the outside only. -/
lemma toggleEvents_outward {enabled : Bool} : Outward (toggleEvents enabled) :=
  .bind .say fun _ => .bind .say fun _ => .demand .outside

/-- The help acts on the outside only. -/
lemma showHelp_outward : Outward showHelp :=
  .bind .say fun _ => Outward.forM (fun _ => .say) helpLines

/-- A new session empties the history. -/
lemma newSession_outcome : Ensures newSession s fun _ t => t.history = .empty := by
  have shown : Outward (do
      demand (outside World.console) (.ofEfi "CONOUT_CLEAR" "output")
      say "new session\r\n"
      setState : SessionM Unit) :=
    .bind (.demand .outside) fun _ => .bind .say fun _ => .demand .outside
  apply Ensures.modify_bind
  apply Ensures.modify_bind
  exact shown.ensures fun r n => rfl

/-- A line other than `/new` leaves its outcome. -/
lemma carryOut_outcome {enabled : Bool} (other : isNewCommand line = false) :
    Ensures (carryOut L enabled line) s fun _ t => LineOutcome L line s t := by
  have outward {c : SessionM Unit} (h : Outward c) :
      Ensures c s fun _ t => LineOutcome L line s t :=
    h.ensures fun r n => .unchanged rfl
  rw [carryOut]
  split
  · exact outward toggleEvents_outward
  split
  · exact outward showHelp_outward
  split
  · exact outward (.demand .outside)
  rw [if_neg (by rw [other]; decide)]
  exact takeTurn_outcome

/-- What a call leaves of the history is what its computation does. -/
lemma handle_of_ensures {call : Call} {Q : Controller → Prop} (started : s.terminal = none)
    (h : Ensures (call.run L) s fun _ t => Q t)
    (terminal : ∀ t failure, Q t → Q { t with terminal := some failure }) :
    Q (s.handle L call) := by
  rw [Controller.handle, started]
  rw [Ensures] at h
  rcases run : call.run L s with ⟨failure | ⟨⟩, t⟩ <;> rw [run] at h
  · exact terminal t failure h
  · exact h

end Lines

section Sessions

variable {L : Loaded} {s t : Controller}

/-- The history is a conversation: what its turns left, and how many they are. -/
def Conversing (L : Loaded) (s : Controller) : Prop :=
  ∃ turns tokens, Committed L.index turns tokens ∧ tokens.length ≤ contextLimit ∧
    s.history = .of tokens turns.length

/-- An empty history is a conversation. -/
lemma conversing_empty (h : s.history = .empty) : Conversing L s :=
  ⟨[], [], .start, Nat.zero_le _, h⟩

/-- A completed turn is one more turn of the conversation, and is counted. -/
lemma Completed.conversing {line : List UInt8} {turns : List Turn} {tokens prompt sampled : List Token}
    (committed : Committed L.index turns tokens) (fits : tokens.length ≤ contextLimit)
    (rendered : IsPrompt L tokens line prompt)
    (completed : Completed prompt (.of tokens turns.length) sampled t) :
    Conversing L t ∧ t.historyTurns = turns.length + 1 := by
  obtain ⟨answer, nonempty, -, short, history⟩ := completed
  obtain ⟨usage, b, rendered, rfl⟩ := rendered
  have count : min (turns.length + 1) (2 ^ 32 - 1) = turns.length + 1 := by
    have := committed.length_le
    have : contextLimit = 32768 := rfl
    omega
  rw [show (SessionHistory.of tokens turns.length).historyTurns = turns.length from rfl, count]
    at history
  refine ⟨⟨turns ++ [⟨line, answer.dropLast ++ [imEnd]⟩],
    b.tokens.take usage.promptTokens ++ (answer.dropLast ++ [imEnd]), ?_, ?_, ?_⟩,
    congrArg SessionHistory.historyTurns history⟩
  · exact .turn committed rendered (by simp)
  · have last : answer.dropLast.length = answer.length - 1 := List.length_dropLast
    have positive := List.length_pos_iff.mpr nonempty
    rw [List.length_append, List.length_append, List.length_singleton]
    omega
  · rw [history, List.append_assoc, List.length_append]
    rfl

/-- The outcome of a line is a conversation again. -/
lemma LineOutcome.conversing {line : List UInt8} (conversing : Conversing L s)
    (outcome : LineOutcome L line s t) : Conversing L t := by
  obtain ⟨turns, tokens, committed, fits, history⟩ := conversing
  obtain ⟨base, rfl | ⟨-, rfl⟩, kept | ⟨prompt, rendered, completed⟩⟩ := outcome
  · exact ⟨turns, tokens, committed, fits, kept.trans history⟩
  · rw [history] at rendered completed
    rw [SessionHistory.live_of] at rendered
    exact (completed.conversing committed fits rendered).1
  · exact conversing_empty kept
  · exact (completed.conversing .start (Nat.zero_le _) rendered).1

/-- Every call of the editor but `/new` leaves what a line can leave. -/
lemma call_outcome {call : Call} (other : ∀ enabled line, call = .accepted enabled line →
    isNewCommand line = false) :
    Ensures (call.run L) s fun _ t => ∃ line, LineOutcome L line s t := by
  have outward {c : SessionM Unit} (h : Outward c) :
      Ensures c s fun _ t => ∃ line, LineOutcome L line s t :=
    h.ensures fun r n => ⟨[], .unchanged rfl⟩
  cases call with
  | liveAscii byte => exact outward (.demand .writeAscii)
  | eraseLast => exact outward (.demand .writeAscii)
  | accepted enabled line =>
    exact (carryOut_outcome (other enabled line rfl)).mono fun r t outcome => ⟨line, outcome⟩
  | rejected => exact outward (.bind .say fun _ => .demand .outside)
  | prompt => exact outward (.bind (.demand .outside) fun _ => .say)

/-- A line that is `/new` is no other command. -/
lemma carryOut_new {line : List UInt8} {enabled : Bool} (new : isNewCommand line = true) :
    carryOut L enabled line = newSession := by
  obtain rfl : line = byteString "/new" := by simpa [isNewCommand] using new
  rfl

/-- `/new` empties the history. -/
lemma newSession_handle {line : List UInt8} {enabled : Bool} (new : isNewCommand line = true)
    (started : s.terminal = none) : (s.handle L (.accepted enabled line)).history = .empty := by
  refine handle_of_ensures started (Q := fun t => t.history = .empty) ?_ fun t failure h => h
  rw [Call.run, carryOut_new new]
  exact newSession_outcome

/-- The history is a conversation in every state that a session can come to. -/
lemma Controller.Reachable.conversing (reachable : s.Reachable L) : Conversing L s := by
  induction reachable with
  | new => exact conversing_empty rfl
  | @handle s call _ ih =>
    rcases ended : s.terminal with _ | failure
    · by_cases other : ∀ enabled line, call = .accepted enabled line → isNewCommand line = false
      · refine handle_of_ensures ended (Q := Conversing L) ?_ fun t failure h => h
        exact (call_outcome other).mono fun r t ⟨line, outcome⟩ => outcome.conversing ih
      · push Not at other
        obtain ⟨enabled, line, rfl, new⟩ := other
        exact conversing_empty (newSession_handle (by simpa using new) ended)
    · rw [Controller.handle, ended]
      exact ih

/-- A turn is atomic. An accepted line leaves the history as it was, or the prompt of the line and
all that was generated for it, up to an end marker, with one turn more; the history that it starts
from is empty if the one from before had to go. `/new` empties it. -/
theorem turn_atomic (reachable : s.Reachable L) (enabled : Bool) (line : List UInt8) :
    let t := s.handle L (.accepted enabled line)
    (isNewCommand line ∧ s.terminal = none → t.history = .empty) ∧
    (¬(isNewCommand line ∧ s.terminal = none) →
      ∃ base, (base = s.history ∨ DropsHistory L s.history line ∧ base = .empty) ∧
        (t.history = base ∨
          ∃ prompt answer, IsPrompt L base.live line prompt ∧ answer ≠ [] ∧
            t.world.sampled = s.world.sampled ++ answer ∧
            t.committed.take t.committedLen = prompt ++ answer.dropLast ++ [imEnd] ∧
            t.historyTurns = base.historyTurns + 1)) := by
  refine ⟨fun ⟨new, started⟩ => newSession_handle new started, fun other => ?_⟩
  have outcome : LineOutcome L line s (s.handle L (.accepted enabled line)) := by
    rcases ended : s.terminal with _ | failure
    · have other : isNewCommand line = false := by simpa [ended] using other
      exact handle_of_ensures ended (Q := LineOutcome L line s) (carryOut_outcome other)
        fun t failure h => h
    · rw [Controller.handle, ended]
      exact .unchanged rfl
  obtain ⟨turns, tokens, committed, fits, history⟩ := reachable.conversing
  obtain ⟨base, reset, settled⟩ := outcome
  refine ⟨base, reset, settled.imp_right ?_⟩
  rintro ⟨prompt, rendered, completed⟩
  have counted : (s.handle L (.accepted enabled line)).historyTurns = base.historyTurns + 1 := by
    rcases reset with rfl | ⟨-, rfl⟩
    · rw [history] at rendered completed ⊢
      rw [SessionHistory.live_of] at rendered
      exact (completed.conversing committed fits rendered).2
    · exact (completed.conversing .start (Nat.zero_le _) rendered).2
  obtain ⟨answer, nonempty, sampled, -, stored⟩ := completed
  refine ⟨prompt, answer, rendered, nonempty, sampled, ?_, counted⟩
  have live := congrArg SessionHistory.live stored
  rw [SessionHistory.live_of] at live
  exact live

end Sessions

end Repl
end Promptboot
