import Promptboot.Repl.TurnStep

/-!
# The preparation of a turn

What `accepted_turn` leaves for `generate`: the controller as it was with the prompt behind the
history in the working buffer, or an emptied one with a fresh prompt.

`Based` is the prepared turn and `Ready` adds that its prompt fits. The helpers follow the source's
decisions (`decideHistory_use`, `decideHistory_reset`, `retryFresh_outcome`), and the headline
`prepareTurn_outcome` lists the ways in which a preparation ends.
-/

namespace Promptboot
namespace Repl
open Fallible

/-- Behind a history the prompt of a line is too long, without it not. -/
def DropsHistory (L : Loaded) (h : SessionHistory) (line : List UInt8) : Prop :=
  ∃ prospective fresh, prospectiveTokens (rendering L h.live line).1 = .ok prospective ∧
    decideHistory (h.committedLen ≠ 0) prospective none = .retryFresh ∧
    prospectiveTokens (rendering L [] line).1 = .ok fresh ∧
    decideHistory true prospective (some fresh) = .reset fresh

/-- The history that a turn is for: the one from before, or none. -/
inductive Based (L : Loaded) (line : List UInt8) (s : Controller) :
    SessionHistory → Controller → Prop
  | kept {t} : Steady s t → Based L line s s.history t
  | dropped {t} : DropsHistory L s.history line → t.history = .empty → t.cachedLen = 0 →
    t.engine = s.engine.resetToPrefix.2 ∨ t.engine = s.engine.resetToPrefix.2.reset →
    t.world.sampled = s.world.sampled → Based L line s .empty t

/-- The prompt of a line behind a history stands in the working buffer. -/
structure Ready (L : Loaded) (history : List Token) (line : List UInt8) (turn : Prepared)
    (t : Controller) : Prop where
  rendered : ∃ usage b, rendering L history line = (.ok usage, b) ∧
    turn.promptCount = usage.promptTokens ∧ turn.prefixTokens = usage.prefixTokens ∧
    t.working.take turn.promptCount = b.tokens.take usage.promptTokens
  room : t.working.length = contextLimit
  limit : turn.promptCount ≤ promptLimit

/-- What the preparation of a turn can come to. -/
def PrepareOutcome (L : Loaded) (line : List UInt8) (s : Controller)
    (r : Except TurnError (Option Prepared)) (t : Controller) : Prop :=
  ∃ base, Based L line s base t ∧ ∀ turn, r = .ok (some turn) → Ready L base.live line turn t

section Prepare

variable {L : Loaded} {line : List UInt8} {s t : Controller}

/-- A turn that is not prepared leaves the history. -/
lemma Steady.failed (steady : Steady s t) (error : TurnError) :
    PrepareOutcome L line s (.error error) t :=
  ⟨_, .kept steady, nofun⟩

/-- A failed preparation clears the working tokens. -/
lemma clear_fail_outcome (steady : Steady s t) (error : TurnError) :
    Ensures (do clearWorking; fail error : TurnM (Option Prepared)) t
      (PrepareOutcome L line s) := by
  apply Ensures.modify_bind
  exact .fail ((steady.working _).failed error)

/-- A rejected context leaves the history. -/
lemma rejectContext_outcome (steady : Steady s t) :
    Ensures rejectContext t (PrepareOutcome L line s) := by
  refine Outward.emitRecord.bind_ensures (fun _ n => ?_) (fun e n => ?_)
  · apply Ensures.modify_bind
    exact .pure ⟨_, .kept ((steady.atClock n).working _), nofun⟩
  · exact (steady.atClock n).failed e

/-- The tokens of an accepted rendering begin with the history; zeros fill the buffer. -/
lemma rendering_tokens {history : List Token} {usage : ConversationUsage} {b : PromptBuffers}
    (rendered : rendering L history line = (.ok usage, b)) :
    history.length ≤ usage.promptTokens ∧ usage.promptTokens ≤ contextLimit ∧
      b.tokens.length = contextLimit := by
  have outcome := L.index.renderConversation_outcome history line (lentBuffers zeroTokens)
  rw [rendering] at rendered
  rw [rendered] at outcome
  obtain ⟨-, -, -, -, start, total, fits, tokens⟩ := outcome
  have zeros : (lentBuffers zeroTokens).tokens.length = contextLimit := List.length_replicate
  rw [zeros] at fits
  refine ⟨?_, by rw [total]; exact fits, ?_⟩
  · rw [total, List.length_append]
    omega
  · rw [tokens, List.length_append, List.length_drop, zeros]
    omega

/-- A reset empties the history and the cache. -/
lemma resetConversation_outcome {promptTokens : Nat} (fits : promptTokens ≤ t.working.length) :
    Ensures (resetConversation promptTokens) t fun r u => r = .ok () ∧ u.history = .empty ∧
      u.cachedLen = 0 ∧
      (u.engine = t.engine.resetToPrefix.2 ∨ u.engine = t.engine.resetToPrefix.2.reset) ∧
      u.world.sampled = t.world.sampled ∧ u.working.length = t.working.length ∧
      u.working.take promptTokens = t.working.take promptTokens := by
  have length : (t.working.take promptTokens).length = promptTokens := List.length_take_of_le fits
  have working : (t.working.take promptTokens ++
      List.replicate (t.working.length - promptTokens) 0).length = t.working.length := by
    rw [List.length_append, length, List.length_replicate]
    omega
  have front : (t.working.take promptTokens ++
      List.replicate (t.working.length - promptTokens) 0).take promptTokens =
        t.working.take promptTokens := by
    rw [List.take_append_of_le_length (Nat.le_of_eq length.symm), List.take_take, Nat.min_self]
  rw [Ensures, resetConversation]
  dsimp only
  rw [if_neg (Nat.not_lt.mpr fits)]
  split
  · exact ⟨rfl, rfl, rfl, .inr rfl, rfl, working, front⟩
  · exact ⟨rfl, rfl, rfl, .inl rfl, rfl, working, front⟩

/-- The history is used when the prompt fits. -/
lemma decideHistory_use {hadHistory : Bool} {prospective : Nat} {fresh : Option Nat}
    {promptTokens : Nat} (h : decideHistory hadHistory prospective fresh = .use promptTokens) :
    promptTokens = prospective ∧ prospective ≤ promptLimit := by
  unfold decideHistory at h
  split at h
  · rename_i fits
    cases h
    exact ⟨rfl, fits⟩
  · split at h
    · split at h
      · cases h
      · split at h <;> cases h
    · cases h

/-- The history is dropped when the prompt fits without it. -/
lemma decideHistory_reset {prospective fresh promptTokens : Nat}
    (h : decideHistory true prospective (some fresh) = .reset promptTokens) :
    promptTokens = fresh ∧ fresh ≤ promptLimit := by
  unfold decideHistory at h
  split at h
  · cases h
  · split at h
    · split at h
      · cases h
      · rename_i short
        split at h
        · rename_i fits
          cases h
          cases short
          exact ⟨rfl, fits⟩
        · cases h
    · cases h

/-- The prompt is rendered afresh when it does not fit the history. -/
lemma decideHistory_retryFresh {hadHistory : Bool} {prospective : Nat} {fresh : Option Nat}
    (h : decideHistory hadHistory prospective fresh = .retryFresh) :
    hadHistory = true ∧ fresh = none := by
  unfold decideHistory at h
  split at h
  · cases h
  · split at h
    · rename_i had
      split at h
      · exact ⟨had, rfl⟩
      · split at h <;> cases h
    · cases h

/-- A prompt rendered afresh leaves an outcome of the preparation. -/
lemma retryFresh_outcome {prospective : Nat} (steady : Steady s t)
    (long : prospectiveTokens (rendering L s.history.live line).1 = .ok prospective)
    (retry : decideHistory (s.committedLen ≠ 0) prospective none = .retryFresh) :
    Ensures (retryFresh L line prospective) t (PrepareOutcome L line s) := by
  rcases rendered : rendering L [] line with ⟨fresh, b⟩
  have run (u : Controller) :
      renderWorking L [] line u = (.ok fresh, { u with working := b.tokens }) := by
    rw [renderWorking, rendered]
  rw [retryFresh]
  apply Ensures.modify_bind
  apply Ensures.bind_run (run _)
  have steady := (steady.working zeroTokens).working b.tokens
  split
  · exact clear_fail_outcome steady _
  rename_i freshTokens count
  split
  · rename_i promptTokens reset
    split
    · rename_i usage
      cases count
      obtain ⟨rfl, limit⟩ := decideHistory_reset reset
      obtain ⟨-, fits, room⟩ := rendering_tokens rendered
      refine Outward.emitRecord.bind_ensures (fun _ n => ?_) (fun e n => ?_)
      · refine Ensures.bind_of (resetConversation_outcome (fits.trans_eq room.symm)) ?_ ?_
        · rintro _ u ⟨-, history, cachedLen, engine, sampled, length, prompt⟩
          refine .pure ⟨.empty, .dropped ?_ history cachedLen ?_ ?_, ?_⟩
          · exact ⟨prospective, usage.promptTokens, long, retry, by rw [rendered]; rfl, reset⟩
          · rw [← steady.engine]
            exact engine
          · exact sampled.trans steady.sampled
          · rintro turn ⟨⟩
            exact ⟨⟨usage, b, rendered, rfl, rfl, prompt⟩, length.trans room, limit⟩
        · rintro e u ⟨same, -⟩
          cases same
      · exact (steady.atClock n).failed e
    · exact clear_fail_outcome steady _
  · exact rejectContext_outcome steady
  · exact clear_fail_outcome steady _
  · exact clear_fail_outcome steady _

/-- The decision leaves an outcome of the preparation. -/
lemma decideTurn_outcome {prospective : Nat} {first : Except ModelError ConversationUsage}
    {b : PromptBuffers} (steady : Steady s t)
    (rendered : rendering L s.history.live line = (first, b)) (working : t.working = b.tokens)
    (count : prospectiveTokens first = .ok prospective) :
    Ensures (decideTurn L line (s.committedLen ≠ 0) first prospective) t
      (PrepareOutcome L line s) := by
  rw [decideTurn]
  split
  · rename_i promptTokens use
    obtain ⟨rfl, limit⟩ := decideHistory_use use
    split
    · rename_i usage
      cases count
      obtain ⟨-, fits, room⟩ := rendering_tokens rendered
      refine .pure ⟨_, .kept steady, ?_⟩
      rintro turn ⟨⟩
      exact ⟨⟨usage, b, rendered, rfl, rfl, by rw [working]⟩, by rw [working, room], limit⟩
    · exact clear_fail_outcome steady _
  · rename_i retry
    have had := (decideHistory_retryFresh retry).1
    rw [if_pos had] at retry
    exact retryFresh_outcome steady (by rw [rendered]; exact count) retry
  · exact rejectContext_outcome steady
  · exact clear_fail_outcome steady _

/-- The preparation of a turn has no other outcomes. -/
lemma prepareTurn_outcome : Ensures (prepareTurn L line) s (PrepareOutcome L line s) := by
  have start := Steady.refl s
  rcases rendered : rendering L s.history.live line with ⟨first, b⟩
  have run (u : Controller) :
      renderWorking L s.history.live line u = (.ok first, { u with working := b.tokens }) := by
    rw [renderWorking, rendered]
  rw [prepareTurn]
  refine Outward.writeText.bind_ensures (fun _ n => ?_) (fun e n => (start.atClock n).failed e)
  refine Outward.emitRecord.bind_ensures (fun _ m => ?_)
    (fun e m => ((start.atClock n).atClock m).failed e)
  apply Ensures.modify_bind
  apply Ensures.get_bind
  have steady := (((start.atClock n).atClock m).working zeroTokens).working b.tokens
  apply Ensures.bind_run (run _)
  split
  · exact .fail (steady.failed _)
  rename_i prospective count
  have decided := decideTurn_outcome steady rendered rfl count
  refine Ensures.bind_of decided (fun prepared u outcome => ?_) (fun e u outcome => outcome)
  cases prepared with
  | none => exact .pure outcome
  | some turn =>
    obtain ⟨base, based, ready⟩ := outcome
    have later (n : Nat) : Based L line s base (u.atClock n) := by
      cases based with
      | kept steady => exact .kept (steady.atClock n)
      | dropped drops history cachedLen engine sampled =>
        exact .dropped drops history cachedLen engine sampled
    refine Outward.emitRecord.bind_ensures (fun _ n => ?_) (fun e n => ⟨base, later n, nofun⟩)
    refine .pure ⟨base, later n, ?_⟩
    rintro _ ⟨⟩
    obtain ⟨rendered, room, limit⟩ := ready turn rfl
    exact ⟨rendered, room, limit⟩

end Prepare

end Repl
end Promptboot
