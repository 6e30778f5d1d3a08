import Promptboot.Engine.Types
import Promptboot.Tokenizer.Prompt

/-!
# Rendering a prompt

The two entry points that render a prompt and tokenize it. The scratch memory is their staging area:
the caller's buffers are written behind the last check that can fail, and every way out behind the
first write to the scratch memory clears it.

The helpers `renderAndTokenize_outcome` and `renderConversation_outcome` go through the exits of the
two entry points, with `clearScratch_zero` behind each late one; `Untouched` is what a failed call
leaves of the caller's buffers. The headline `rendering_atomic` has both, and
`renderAndTokenize_runs` is the success for `Roomy` buffers.
-/

namespace Promptboot
open Memory

structure ConversationUsage where
  renderedBytes : Nat
  userTokens : Nat
  freshPromptTokens : Nat
  historyTokens : Nat
  promptTokens : Nat
  prefixTokens : Nat

structure PromptUsage where
  renderedBytes : Nat
  tokenCount : Nat
  prefixTokens : Nat
  imStartCount : Nat
  imEndCount : Nat

/-- The slices a caller hands over, and the record it hands over with them; of the scratch slice
also its address and its length. -/
structure PromptBuffers where
  rendered : List UInt8
  stagingTokens : List UInt32
  tokens : List UInt32
  scratch : Nat → UInt8
  scratchAddress : Nat
  scratchLength : Nat
  outcome : ConversationUsage

/-- `target[start..start + source.len()].copy_from_slice(source)`. -/
def copyFromSlice {α : Type} (target : List α) (start : Nat) (source : List α) : List α :=
  target.take start ++ source ++ target.drop (start + source.length)

/-- `scratch[..SCRATCH_BYTES].fill(0)`. -/
def clearScratch (b : PromptBuffers) : PromptBuffers :=
  { b with scratch := fun a => if a < Tokenizer.scratchBytes then 0 else b.scratch a }

/-- The first byte of the user's text that is not printable. -/
def checkUserBytes (user : List UInt8) : Except ModelError Unit :=
  match user.zipIdx.find? fun (byte, _) => !(0x20 ≤ byte && byte ≤ 0x7e) with
  | some (byte, position) =>
    .error ⟨.input, .user, position, position, 0x20007e, byte.toNat, .userByte, 0⟩
  | none => .ok ()

/-- A buffer that is too short. -/
def capacityError (status : ModelStatus) (domain : ErrorDomain) (needed available : Nat) :
    ModelError :=
  ⟨status, domain, 0, 0, needed, available, .capacity, 0⟩

def validatePromptRequest (user : List UInt8) (renderedLength tokenLength scratchAddress
    scratchLength : Nat) : Except ModelError Unit := do
  if user.length > 512 then
    .error (capacityError .length .user 512 user.length)
  checkUserBytes user
  let renderedNeeded := 148 + user.length
  if renderedLength < renderedNeeded then
    .error (capacityError .outputCapacity .renderedOutput renderedNeeded renderedLength)
  if tokenLength < Tokenizer.maxTokens then
    .error (capacityError .outputCapacity .tokenOutput Tokenizer.maxTokens tokenLength)
  if scratchLength < Tokenizer.scratchBytes then
    .error (capacityError .scratchCapacity .scratch Tokenizer.scratchBytes scratchLength)
  let scratchAlignment := scratchAddress % 64
  if scratchAlignment ≠ 0 then
    .error ⟨.alignment, .scratch, 0, 0, 64, scratchAlignment, .baseAlignment, 0⟩

def validateConversationHistory (history : List UInt32) : Except ModelError Unit :=
  if history.isEmpty ∨ history.length > contextLimit ∨ history.getLast? ≠ some imEnd then
    .error ⟨.state, .tokenOutput, history.length - 1, 0, imEnd.toNat,
      (history.getLast?.getD 0).toNat, .stateField, 11⟩
  else
    .ok ()

namespace MergeIndex

variable (index : MergeIndex)

/-- `compute_prompt` on the scratch slice of the caller. -/
def computeIn (user : List UInt8) (b : PromptBuffers) :
    Except ModelError PromptComputation × Staging :=
  index.computePrompt user ⟨b.scratch, 0, Nat.zero_le _⟩

/-- `render_and_tokenize`; its checks are those of `validate_prompt_request`, written out. -/
def renderAndTokenize (user : List UInt8) :
    Fallible PromptBuffers ModelError PromptUsage := fun b =>
  match validatePromptRequest user b.rendered.length b.tokens.length b.scratchAddress
      b.scratchLength with
  | .error e => (.error e, b)
  | .ok () =>
    match index.computeIn user b with
    | (.ok computation, staging) =>
      let b := { b with scratch := staging.scratch }
      let b := { b with
        rendered := copyFromSlice b.rendered 0
          (bytes b.scratch stagedRendered computation.renderedBytes) }
      let b := { b with
        tokens := copyFromSlice b.tokens 0 (words b.scratch stagedTokens computation.tokenCount) }
      (.ok ⟨computation.renderedBytes, computation.tokenCount, computation.prefixTokens, 3, 2⟩,
        clearScratch b)
    | (.error e, staging) => (.error e, clearScratch { b with scratch := staging.scratch })

/-- The loop that looks for the second start marker among the staged tokens. -/
def secondStart (scratch : Nat → UInt8) : Nat → List Nat → Option Nat
  | _, [] => none
  | seen, position :: rest =>
    if u32At scratch (stagedTokens + position * 4) = imStart then
      if seen + 1 = 2 then some position else secondStart scratch (seen + 1) rest
    else
      secondStart scratch seen rest

/-- Where the tokens of a later turn start: at the line end in front of the second start marker. -/
def suffixStart (history : List UInt32) (scratch : Nat → UInt8) (freshCount : Nat) : Option Nat :=
  if history.isEmpty then some 0
  else
    match secondStart scratch 0 (List.range freshCount) with
    | some (position + 1) =>
      if u32At scratch (stagedTokens + position * 4) = 198 then some position else none
    | _ => none

def historyError (status : ModelStatus) (needed available : Nat) (kind : FieldKind) (sub : Nat) :
    ModelError :=
  ⟨status, .tokenOutput, 0, 0, needed, available, kind, sub⟩

/-- Behind the computation: the last checks, and only then the caller's buffers. -/
def publish (history : List UInt32) (computation : PromptComputation) :
    Fallible PromptBuffers ModelError ConversationUsage := fun b =>
  let renderedCount := computation.renderedBytes
  let freshCount := computation.tokenCount
  let b := { b with outcome :=
    ⟨renderedCount, computation.userTokens, freshCount, history.length, 0,
      computation.prefixTokens⟩ }
  match suffixStart history b.scratch freshCount with
  | none => (.error (historyError .state 1 0 .stateField 14), clearScratch b)
  | some suffixStart =>
    let suffixCount := freshCount - suffixStart
    if 2 ^ 64 ≤ history.length + suffixCount then
      (.error (historyError .length contextLimit (2 ^ 64 - 1) .opAdd 15), clearScratch b)
    else
      let prospective := history.length + suffixCount
      let b := { b with outcome := { b.outcome with promptTokens := min prospective (2 ^ 32 - 1) } }
      if prospective > contextLimit then
        (.error (historyError .outputCapacity contextLimit prospective .capacity 16),
          clearScratch b)
      else
        let b := { b with
          rendered := copyFromSlice b.rendered 0 (bytes b.scratch stagedRendered renderedCount) }
        let b := { b with
          stagingTokens := copyFromSlice b.stagingTokens 0
            (words b.scratch stagedTokens freshCount) }
        let b := { b with tokens := copyFromSlice b.tokens 0 history }
        let b := { b with
          tokens := copyFromSlice b.tokens history.length
            ((b.stagingTokens.take freshCount).drop suffixStart) }
        let b := { b with
          stagingTokens := copyFromSlice b.stagingTokens 0 (List.replicate Tokenizer.maxTokens 0) }
        (.ok b.outcome, clearScratch b)

/-- The checks in front of the computation. -/
def checkConversation (history : List UInt32) (user : List UInt8) (b : PromptBuffers) :
    Except ModelError Unit := do
  if history.length > contextLimit then
    .error (historyError .length contextLimit history.length .capacity 10)
  if !history.isEmpty then
    validateConversationHistory history
  if b.stagingTokens.length < Tokenizer.maxTokens then
    .error (historyError .outputCapacity Tokenizer.maxTokens b.stagingTokens.length .capacity 12)
  if b.tokens.length < contextLimit then
    .error (historyError .outputCapacity contextLimit b.tokens.length .capacity 13)
  validatePromptRequest user b.rendered.length b.stagingTokens.length b.scratchAddress
    b.scratchLength

/-- The computation, with the scratch memory cleared if it stops. -/
def computeOrClear (user : List UInt8) : Fallible PromptBuffers ModelError PromptComputation :=
  fun b =>
    match index.computeIn user b with
    | (.ok computation, staging) => (.ok computation, { b with scratch := staging.scratch })
    | (.error e, staging) => (.error e, clearScratch { b with scratch := staging.scratch })

/-- `render_conversation_and_tokenize`. -/
def renderConversationAndTokenize (history : List UInt32) (user : List UInt8) :
    Fallible PromptBuffers ModelError ConversationUsage := do
  Fallible.lift (checkConversation history user)
  let computation ← index.computeOrClear user
  publish history computation

end MergeIndex

/-- A passed check says that the text is short and that every buffer is large enough. -/
lemma validatePromptRequest_ok {user : List UInt8} {renderedLength tokenLength scratchAddress
    scratchLength : Nat}
    (h : validatePromptRequest user renderedLength tokenLength scratchAddress scratchLength =
      .ok ()) :
    user.length ≤ maxSegment ∧ 148 + user.length ≤ renderedLength ∧
      Tokenizer.maxTokens ≤ tokenLength := by
  rw [validatePromptRequest] at h
  by_cases long : user.length > 512
  · rw [if_pos long] at h
    cases h
  rw [if_neg long] at h
  rcases hbytes : checkUserBytes user with e | _
  · rw [hbytes] at h
    cases h
  rw [hbytes] at h
  by_cases rendered : renderedLength < 148 + user.length
  · simp only [rendered, if_true] at h
    cases h
  by_cases token : tokenLength < Tokenizer.maxTokens
  · simp only [rendered, token, if_true, if_false] at h
    cases h
  exact ⟨Nat.not_lt.mp long, Nat.not_lt.mp rendered, Nat.not_lt.mp token⟩

/-- What a call that stops leaves of the caller's buffers: all of it, and the scratch memory as it was
or cleared. -/
structure Untouched (b b' : PromptBuffers) : Prop where
  rendered : b'.rendered = b.rendered
  stagingTokens : b'.stagingTokens = b.stagingTokens
  tokens : b'.tokens = b.tokens
  scratch : (∀ a < Tokenizer.scratchBytes, b'.scratch a = b.scratch a) ∨
    ∀ a < Tokenizer.scratchBytes, b'.scratch a = 0

/-- A buffer that holds the content at its start, and behind it what it held before. -/
def Holds {α : Type} (old new content : List α) : Prop :=
  content.length ≤ old.length ∧ new = content ++ old.drop content.length

/-- A copy to the start holds its content. -/
lemma holds_copyFromSlice {α : Type} {old content : List α} (h : content.length ≤ old.length) :
    Holds old (copyFromSlice old 0 content) content := by
  refine ⟨h, ?_⟩
  rw [copyFromSlice, List.take_zero, List.nil_append, Nat.zero_add]

/-- A second copy behind the first. -/
lemma Holds.append {α : Type} {old new first second : List α} (h : Holds old new first)
    (room : first.length + second.length ≤ old.length) :
    Holds old (copyFromSlice new first.length second) (first ++ second) := by
  obtain ⟨-, rfl⟩ := h
  refine ⟨by rwa [List.length_append], ?_⟩
  rw [copyFromSlice, List.take_left, ← List.drop_drop, List.drop_left, List.drop_drop,
    List.length_append]

/-- A second copy at the start, at least as long as the first. -/
lemma Holds.overwrite {α : Type} {old new first second : List α} (h : Holds old new first)
    (longer : first.length ≤ second.length) (room : second.length ≤ old.length) :
    Holds old (copyFromSlice new 0 second) second := by
  obtain ⟨-, rfl⟩ := h
  obtain ⟨n, hn⟩ := Nat.exists_eq_add_of_le longer
  refine ⟨room, ?_⟩
  rw [copyFromSlice, List.take_zero, List.nil_append, Nat.zero_add, hn, ← List.drop_drop,
    List.drop_left, List.drop_drop]

/-- A buffer is untouched by nothing. -/
lemma Untouched.refl (b : PromptBuffers) : Untouched b b :=
  ⟨rfl, rfl, rfl, .inl fun _ _ => rfl⟩

/-- A cleared scratch buffer is zero. -/
lemma clearScratch_zero (b : PromptBuffers) :
    ∀ a < Tokenizer.scratchBytes, (clearScratch b).scratch a = 0 :=
  fun _ h => if_pos h

namespace MergeIndex

variable {index : MergeIndex} {user : List UInt8}

/-- A template fits 148 bytes more than the user's text. -/
lemma chatTemplate_fits {length : Nat} (h : 148 + user.length ≤ length) :
    (chatTemplate user).length ≤ length := by
  have front := length_before
  have back := length_after
  rw [length_chatTemplate, renderedCount]
  omega

/-- The outcome of the computation on the caller's scratch slice. -/
lemma computeIn_cases (index : MergeIndex) (short : user.length ≤ maxSegment) (b : PromptBuffers) :
    (∃ c t, index.computeIn user b = (.ok c, t) ∧ c.renderedBytes = (chatTemplate user).length ∧
      c.tokenCount = (index.promptTokens user).length ∧ c.tokenCount ≤ Tokenizer.maxTokens ∧
      words t.scratch stagedTokens c.tokenCount = index.promptTokens user ∧
      bytes t.scratch stagedRendered c.renderedBytes = chatTemplate user) ∨
      ∃ e t, index.computeIn user b = (.error e, t) := by
  by_cases fits : (index.promptTokens user).length ≤ Tokenizer.maxTokens
  · obtain ⟨c, t, run, length, count, tokens, rendered, -⟩ :=
      computePrompt_of_fits short fits ⟨b.scratch, 0, Nat.zero_le _⟩
    refine .inl ⟨c, t, run, length, ?_, count ▸ t.count_le, ?_, rendered⟩
    · rw [count, ← tokens, Staging.tokens, length_words]
    · rw [count]
      exact tokens
  · obtain ⟨e, t, run, -⟩ :=
      computePrompt_of_full short (Nat.not_le.mp fits) ⟨b.scratch, 0, Nat.zero_le _⟩
    exact .inr ⟨e, t, run⟩

/-- What one prompt leaves. -/
def RenderOutcome (index : MergeIndex) (user : List UInt8) (b : PromptBuffers) :
    Except ModelError PromptUsage × PromptBuffers → Prop
  | (.error _, b') => Untouched b b'
  | (.ok usage, b') =>
    (∀ a < Tokenizer.scratchBytes, b'.scratch a = 0) ∧ b'.stagingTokens = b.stagingTokens ∧
      usage.renderedBytes = (chatTemplate user).length ∧
      Holds b.rendered b'.rendered (chatTemplate user) ∧
      usage.tokenCount = (index.promptTokens user).length ∧
      Holds b.tokens b'.tokens (index.promptTokens user)

/-- The first prompt is rendered, or the buffers are left. -/
lemma renderAndTokenize_outcome (index : MergeIndex) (user : List UInt8) (b : PromptBuffers) :
    RenderOutcome index user b (index.renderAndTokenize user b) := by
  rw [renderAndTokenize]
  rcases valid : validatePromptRequest user b.rendered.length b.tokens.length b.scratchAddress
      b.scratchLength with e | _
  · exact .refl b
  obtain ⟨short, renderedRoom, tokenRoom⟩ := validatePromptRequest_ok valid
  rcases computeIn_cases index short b with
    ⟨c, t, run, length, count, le, tokens, rendered⟩ | ⟨e, t, run⟩
  · rw [run]
    have templateRoom := chatTemplate_fits renderedRoom
    refine ⟨clearScratch_zero _, rfl, length, ?_, count, ?_⟩
    · show Holds b.rendered (copyFromSlice b.rendered 0 (bytes t.scratch stagedRendered
        c.renderedBytes)) _
      rw [rendered]
      exact holds_copyFromSlice templateRoom
    · show Holds b.tokens (copyFromSlice b.tokens 0 (words t.scratch stagedTokens c.tokenCount)) _
      rw [tokens]
      exact holds_copyFromSlice (by omega)
  · rw [run]
    exact ⟨rfl, rfl, rfl, .inr (clearScratch_zero _)⟩

/-- Buffers that take the prompt of a text. -/
structure Roomy (user : List UInt8) (b : PromptBuffers) : Prop where
  rendered : 148 + user.length ≤ b.rendered.length
  tokens : Tokenizer.maxTokens ≤ b.tokens.length
  scratch : Tokenizer.scratchBytes ≤ b.scratchLength
  aligned : b.scratchAddress % 64 = 0

/-- Printable bytes pass the check of the user's text. -/
lemma checkUserBytes_printable (printable : ∀ byte ∈ user, 0x20 ≤ byte ∧ byte ≤ 0x7e) :
    checkUserBytes user = .ok () := by
  have none : (user.zipIdx.find? fun (byte, _) => !(0x20 ≤ byte && byte ≤ 0x7e)) = none := by
    rw [List.find?_eq_none]
    rintro ⟨byte, position⟩ mem
    obtain ⟨lower, upper⟩ := printable byte (List.fst_mem_of_mem_zipIdx mem)
    simp [lower, upper]
  rw [checkUserBytes, none]

/-- The check of a request whose text is accepted and whose buffers are large enough. -/
lemma validatePromptRequest_room {renderedLength tokenLength scratchAddress scratchLength : Nat}
    (short : user.length ≤ maxSegment) (printable : checkUserBytes user = .ok ())
    (rendered : 148 + user.length ≤ renderedLength) (tokens : Tokenizer.maxTokens ≤ tokenLength)
    (scratch : Tokenizer.scratchBytes ≤ scratchLength) (aligned : scratchAddress % 64 = 0) :
    validatePromptRequest user renderedLength tokenLength scratchAddress scratchLength =
      .ok () := by
  have small : ¬user.length > 512 := Nat.not_lt.mpr short
  rw [validatePromptRequest, if_neg small, printable]
  simp only [Nat.not_lt.mpr rendered, Nat.not_lt.mpr tokens, Nat.not_lt.mpr scratch, aligned,
    if_false]
  rfl

/-- A prompt whose tokens fit is rendered. -/
lemma renderAndTokenize_runs {b : PromptBuffers}
    (printable : ∀ byte ∈ user, 0x20 ≤ byte ∧ byte ≤ 0x7e) (short : user.length ≤ maxSegment)
    (fits : (index.promptTokens user).length ≤ Tokenizer.maxTokens) (roomy : Roomy user b) :
    ∃ usage b', index.renderAndTokenize user b = (.ok usage, b') := by
  have valid := validatePromptRequest_room short (checkUserBytes_printable printable)
    roomy.rendered roomy.tokens roomy.scratch roomy.aligned
  obtain ⟨c, t, run, -⟩ := computePrompt_of_fits short fits ⟨b.scratch, 0, Nat.zero_le _⟩
  rw [renderAndTokenize, valid, computeIn, run]
  exact ⟨_, _, rfl⟩

/-- Buffers that take every prompt. -/
def roomyBuffers : PromptBuffers where
  rendered := List.replicate 660 0
  stagingTokens := List.replicate 599 0
  tokens := List.replicate 32768 0
  scratch _ := 0
  scratchAddress := 0
  scratchLength := 5120
  outcome := ⟨0, 0, 0, 0, 0, 0⟩

/-- The buffers of the example are roomy. -/
lemma roomyBuffers_roomy (short : user.length ≤ maxSegment) : Roomy user roomyBuffers where
  rendered := by
    rw [roomyBuffers, List.length_replicate]
    exact Nat.add_le_add_left short 148
  tokens := by
    rw [roomyBuffers, List.length_replicate]
    decide
  scratch := Nat.le_refl 5120
  aligned := rfl

/-- What a turn of a conversation leaves: the history and the new tokens behind it. -/
def ConversationOutcome (index : MergeIndex) (history : List UInt32) (user : List UInt8)
    (b : PromptBuffers) : Except ModelError ConversationUsage × PromptBuffers → Prop
  | (.error _, b') => Untouched b b'
  | (.ok usage, b') =>
    (∀ a < Tokenizer.scratchBytes, b'.scratch a = 0) ∧
      Holds b.stagingTokens b'.stagingTokens (List.replicate Tokenizer.maxTokens 0) ∧
      usage.renderedBytes = (chatTemplate user).length ∧
      Holds b.rendered b'.rendered (chatTemplate user) ∧
      ∃ start, usage.promptTokens = (history ++ (index.promptTokens user).drop start).length ∧
        Holds b.tokens b'.tokens (history ++ (index.promptTokens user).drop start)

/-- The checks behind the computation fail before the caller's buffers are written, and clear the
scratch memory. -/
lemma publish_outcome (index : MergeIndex) {history : List UInt32} {user : List UInt8}
    {b : PromptBuffers} {scratch : Nat → UInt8} {c : PromptComputation}
    (renderedRoom : (chatTemplate user).length ≤ b.rendered.length)
    (stagingRoom : Tokenizer.maxTokens ≤ b.stagingTokens.length)
    (tokenRoom : contextLimit ≤ b.tokens.length)
    (length : c.renderedBytes = (chatTemplate user).length)
    (count : c.tokenCount = (index.promptTokens user).length)
    (le : c.tokenCount ≤ Tokenizer.maxTokens)
    (tokens : words scratch stagedTokens c.tokenCount = index.promptTokens user)
    (rendered : bytes scratch stagedRendered c.renderedBytes = chatTemplate user) :
    ConversationOutcome index history user b (publish history c { b with scratch }) := by
  rw [publish]
  dsimp only
  rcases suffixStart history scratch c.tokenCount with _ | start
  · exact ⟨rfl, rfl, rfl, .inr (clearScratch_zero _)⟩
  dsimp only
  by_cases overflow : 2 ^ 64 ≤ history.length + (c.tokenCount - start)
  · rw [if_pos overflow]
    exact ⟨rfl, rfl, rfl, .inr (clearScratch_zero _)⟩
  rw [if_neg overflow]
  by_cases long : history.length + (c.tokenCount - start) > contextLimit
  · rw [if_pos long]
    exact ⟨rfl, rfl, rfl, .inr (clearScratch_zero _)⟩
  rw [if_neg long, rendered, tokens]
  have total : (history ++ (index.promptTokens user).drop start).length =
      history.length + (c.tokenCount - start) := by
    rw [List.length_append, List.length_drop, count]
  have staged : Holds b.stagingTokens (copyFromSlice b.stagingTokens 0 (index.promptTokens user))
      (index.promptTokens user) := holds_copyFromSlice (by omega)
  -- the staged tokens are the prompt, whatever the staging held behind it
  have fresh : ((copyFromSlice b.stagingTokens 0 (index.promptTokens user)).take c.tokenCount) =
      index.promptTokens user := by
    rw [staged.2, count, List.take_left]
  have small : contextLimit ≤ 2 ^ 32 - 1 := by decide
  refine ⟨clearScratch_zero _, ?_, length, holds_copyFromSlice renderedRoom, start, ?_, ?_⟩
  · exact staged.overwrite (by rw [List.length_replicate]; omega)
      (by rw [List.length_replicate]; omega)
  · rw [total]
    exact Nat.min_eq_left (by omega)
  · show Holds b.tokens (copyFromSlice (copyFromSlice b.tokens 0 history) history.length
      (((copyFromSlice b.stagingTokens 0 (index.promptTokens user)).take c.tokenCount).drop
        start)) _
    rw [fresh]
    rw [List.length_append] at total
    exact (holds_copyFromSlice (by omega)).append (by omega)

/-- Behind the checks the buffers have their lengths. -/
lemma checkConversation_ok {history : List UInt32} {user : List UInt8} {b : PromptBuffers}
    (h : checkConversation history user b = .ok ()) :
    Tokenizer.maxTokens ≤ b.stagingTokens.length ∧ contextLimit ≤ b.tokens.length ∧
      validatePromptRequest user b.rendered.length b.stagingTokens.length b.scratchAddress
        b.scratchLength = .ok () := by
  rw [checkConversation] at h
  by_cases long : history.length > contextLimit
  · rw [if_pos long] at h
    cases h
  rw [if_neg long] at h
  -- the check of a history, where there is one, comes in front of those of the buffers
  rcases last : validateConversationHistory history with e | _ <;> simp only [last] at h
  all_goals
    by_cases staging : b.stagingTokens.length < Tokenizer.maxTokens
    · simp only [staging, if_true] at h
      split at h <;> cases h
    by_cases token : b.tokens.length < contextLimit
    · simp only [staging, token, if_true, if_false] at h
      split at h <;> cases h
    simp only [staging, token, if_false] at h
    refine ⟨Nat.not_lt.mp staging, Nat.not_lt.mp token, ?_⟩
    split at h <;> first | exact h | cases h

/-- A later prompt is rendered, or the buffers are left. -/
lemma renderConversation_outcome (index : MergeIndex) (history : List UInt32) (user : List UInt8)
    (b : PromptBuffers) :
    ConversationOutcome index history user b
      (index.renderConversationAndTokenize history user b) := by
  rw [renderConversationAndTokenize, Fallible.bind_apply, Fallible.lift_apply]
  rcases valid : checkConversation history user b with e | _
  · exact .refl b
  obtain ⟨stagingRoom, tokenRoom, valid⟩ := checkConversation_ok valid
  obtain ⟨short, renderedRoom, -⟩ := validatePromptRequest_ok valid
  show ConversationOutcome index history user b
    ((index.computeOrClear user >>= publish history) b)
  rw [Fallible.bind_apply, computeOrClear]
  rcases computeIn_cases index short b with
    ⟨c, t, run, length, count, le, tokens, rendered⟩ | ⟨e, t, run⟩
  · rw [run]
    have templateRoom := chatTemplate_fits renderedRoom
    exact publish_outcome index templateRoom stagingRoom tokenRoom length count le tokens rendered
  · rw [run]
    exact ⟨rfl, rfl, rfl, .inr (clearScratch_zero _)⟩

/-- Both entry points are all or nothing: an error leaves the caller's buffers as they were and the
scratch memory untouched or cleared; without one the buffers hold what is reported, nothing behind
it has changed, and nothing of the prompt is left in the staging areas. -/
theorem rendering_atomic (index : MergeIndex) (history : List UInt32) (user : List UInt8)
    (b : PromptBuffers) :
    RenderOutcome index user b (index.renderAndTokenize user b) ∧
      ConversationOutcome index history user b
        (index.renderConversationAndTokenize history user b) :=
  ⟨renderAndTokenize_outcome index user b, renderConversation_outcome index history user b⟩

end MergeIndex

end Promptboot
