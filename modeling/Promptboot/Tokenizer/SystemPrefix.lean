import Promptboot.Tokenizer.Conversation

/-!
# The prefix of every prompt

The tokens in front of the first user text are the same in every prompt of a conversation, and what
a rendering reports as its prefix is how many they are.

`renderConversation_prefix` is one rendering, and `Committed.begins` the induction on the turns that
were committed: the history begins with the prefix that the engine retains.
-/

namespace Promptboot
namespace MergeIndex
open Fallible

variable {index : MergeIndex} {history : List UInt32} {user : List UInt8}

/-- The count that `compute_prompt` takes in front of the user's text. -/
lemma computePrompt_prefix {s t : Staging} {c : PromptComputation}
    (run : index.computePrompt user s = (.ok c, t)) :
    c.prefixTokens = index.tokensBefore.length := by
  have front : Appends (callsBefore.forM (PromptCall.run index)) index.tokensBefore :=
    .forM fun call mem => .call fun text eq =>
      length_of_template (List.mem_append_left _ (eq ▸ mem))
  unfold computePrompt at run
  rw [bind_ok (modify_apply _ s)] at run
  obtain ⟨_, t1, before, run⟩ := bind_eq_ok run
  rw [bind_ok (get_apply t1)] at run
  obtain ⟨_, t2, middle, run⟩ := bind_eq_ok run
  rw [bind_ok (get_apply t2)] at run
  obtain ⟨_, t3, after, run⟩ := bind_eq_ok run
  rw [bind_ok (get_apply t3)] at run
  cases run
  rcases Nat.lt_or_ge Tokenizer.maxTokens (0 + index.tokensBefore.length) with full | fits
  · obtain ⟨e, u, stopped, -⟩ := front.full (staged user s) full
    have same := before.symm.trans stopped
    cases same
  · obtain ⟨u, finished, -, count, -⟩ := front.fits (staged user s) fits
    have same := before.symm.trans finished
    cases same
    rw [count, staged_count, Nat.zero_add]

/-- The prefix is published as it was computed. -/
lemma published_tokens_eq {c : PromptComputation} {b b' : PromptBuffers} {usage : ConversationUsage}
    (h : publish history c b = (.ok usage, b')) : usage.prefixTokens = c.prefixTokens := by
  unfold publish at h
  dsimp only at h
  split at h
  · cases h
  split at h
  · cases h
  split at h
  · cases h
  · cases h
    rfl

/-- The prefix of a conversation is what stands before the user's text. -/
lemma renderConversation_prefix {b b' : PromptBuffers} {usage : ConversationUsage}
    (run : index.renderConversationAndTokenize history user b = (.ok usage, b')) :
    usage.prefixTokens = index.tokensBefore.length := by
  unfold renderConversationAndTokenize at run
  obtain ⟨_, b1, _, run⟩ := bind_eq_ok run
  obtain ⟨c, b2, computed, published⟩ := bind_eq_ok run
  rw [published_tokens_eq published]
  unfold computeOrClear at computed
  split at computed
  · rename_i computation staging inner
    cases computed
    exact computePrompt_prefix inner
  · cases computed

/-- The tokens begin with the prefix of every prompt, and go on behind it. -/
def Begins (index : MergeIndex) (tokens : List UInt32) : Prop :=
  index.tokensBefore <+: tokens ∧ index.tokensBefore.length < tokens.length

/-- What begins with the prefix does so with more behind it. -/
lemma Begins.append {tokens : List UInt32} (begins : index.Begins tokens) (more : List UInt32) :
    index.Begins (tokens ++ more) := by
  refine ⟨begins.1.trans (List.prefix_append _ _), ?_⟩
  have longer := begins.2
  rw [List.length_append]
  omega

/-- The front of what begins with the prefix is the prefix. -/
lemma Begins.take {tokens : List UInt32} (begins : index.Begins tokens) :
    tokens.take index.tokensBefore.length = index.tokensBefore :=
  (List.prefix_iff_eq_take.mp begins.1).symm

/-- A marker is a token, so the calls from one on leave some. -/
lemma length_control_pos (index : MergeIndex) (token : UInt32) (calls : List PromptCall) :
    0 < ((.control token :: calls : List PromptCall).flatMap (PromptCall.tokens index)).length := by
  have one : PromptCall.tokens index (.control token) = [token] := rfl
  rw [List.flatMap_cons, one, List.singleton_append, List.length_cons]
  exact Nat.succ_pos _

/-- The prefix is not empty. -/
lemma length_tokensBefore_pos (index : MergeIndex) : 0 < index.tokensBefore.length :=
  length_control_pos index imStart _

/-- A prompt begins with the prefix if the history behind which it is rendered does. -/
lemma renderConversation_begins {b b' : PromptBuffers} {usage : ConversationUsage}
    (run : index.renderConversationAndTokenize history user b = (.ok usage, b'))
    (begins : history = [] ∨ index.Begins history) :
    index.Begins (b'.tokens.take usage.promptTokens) := by
  obtain ⟨_, start, -, found, tokens, -⟩ := renderConversation_tokens run
  rw [tokens]
  rcases begins with rfl | begins
  · rw [suffixStart, List.isEmpty_nil, if_pos rfl] at found
    cases found
    have after : 0 < index.tokensAfter.length := length_control_pos index imEnd _
    rw [List.nil_append, List.drop_zero, promptTokens_eq, List.append_assoc]
    refine ⟨List.prefix_append _ _, ?_⟩
    simp only [List.length_append]
    omega
  · exact begins.append _

end MergeIndex

/-- A conversation is empty or begins with the prefix. -/
lemma Committed.begins {index : MergeIndex} {turns : List Turn} {history : List UInt32}
    (committed : Committed index turns history) : history = [] ∨ index.Begins history := by
  induction committed with
  | start => exact .inl rfl
  | turn _ run _ ih => exact .inr ((MergeIndex.renderConversation_begins run ih).append _)

/-- A conversation is empty or ends in an end marker. -/
lemma Committed.ends {index : MergeIndex} {turns : List Turn} {history : List UInt32}
    (committed : Committed index turns history) :
    history = [] ∨ history.getLast? = some imEnd := by
  cases committed with
  | start => exact .inl rfl
  | turn _ _ ended =>
    right
    rw [List.getLast?_append, ended]
    rfl

/-- Every turn of a conversation leaves tokens. -/
lemma Committed.length_le {index : MergeIndex} {turns : List Turn} {history : List UInt32}
    (committed : Committed index turns history) : turns.length ≤ history.length := by
  induction committed with
  | start => exact Nat.le_refl 0
  | @turn turns history user b usage b' answer _ run ended ih =>
    obtain ⟨_, _, -, -, tokens, -⟩ := MergeIndex.renderConversation_tokens run
    have nonempty : answer ≠ [] := by
      rintro rfl
      cases ended
    have answered := List.length_pos_iff.mpr nonempty
    rw [tokens]
    simp only [List.length_append, List.length_singleton]
    omega

end Promptboot
