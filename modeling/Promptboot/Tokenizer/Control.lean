import Promptboot.Tokenizer.Render

/-!
# Control tokens in a prompt

A model whose byte tokens and merge results are ordinary gives every fragment ordinary tokens. So
the user's text brings no token of the special range into a prompt but the two user-defined ones,
where it spells them, and the prompt has the control tokens of the template.

The helper `Ordinary.encode` says that no merge makes a special token, `Ordinary.filter_textTokens`
which special tokens a text brings, and `Ordinary.count_prompt` counts them in a prompt. The
headline `user_forges_nothing` also says that the call succeeds when the buffers have the room.
-/

namespace Promptboot
open Memory BytePair

/-- The first token that is not ordinary text. -/
def specialTokens : UInt32 := 151643

/-- What `validate_tokenizer` checks of a model's tokenizer: byte tokens and merge results are
ordinary. -/
structure MergeIndex.Ordinary (index : MergeIndex) : Prop where
  byteToken : ∀ byte, index.byteToken byte < specialTokens
  result : ∀ {left right result rank}, index.lookup left right = some (result, rank) →
    result < specialTokens

/-- The user-defined tokens that a text spells, from left to right and without overlap. -/
def userDefined : List UInt8 → List UInt32
  | [] => []
  | byte :: text =>
    if toolCall.isPrefixOf (byte :: text) then
      151657 :: userDefined (text.drop (toolCall.length - 1))
    else if toolEnd.isPrefixOf (byte :: text) then
      151658 :: userDefined (text.drop (toolEnd.length - 1))
    else userDefined text
termination_by text => text.length
decreasing_by
  all_goals simp only [List.length_drop, List.length_cons]
  all_goals omega

/-- The tokens of a text. -/
def textTokens (index : MergeIndex) (text : List UInt8) : List UInt32 :=
  (pieces text).flatMap (Piece.tokens index)

/-- The user-defined tokens are the one that is found first and those behind it. -/
lemma userDefined_eq (text : List UInt8) :
    userDefined text =
      if (nextUserDefined text).token ≠ 0 then
        (nextUserDefined text).token ::
          userDefined (text.drop ((nextUserDefined text).position + (nextUserDefined text).length))
      else [] := by
  induction text with
  | nil => rw [userDefined, nextUserDefined, if_neg (by decide)]
  | cons byte text ih =>
    rw [userDefined, nextUserDefined]
    by_cases call : toolCall.isPrefixOf (byte :: text)
    · rw [if_pos call, if_pos call]
      rfl
    rw [if_neg call, if_neg call]
    by_cases close : toolEnd.isPrefixOf (byte :: text)
    · rw [if_pos close, if_pos close]
      rfl
    rw [if_neg close, if_neg close, ih]
    split_ifs with token
    · rw [Nat.succ_add, List.drop_succ_cons]
    · rfl

/-- A user-defined token is one of two, or none. -/
lemma nextUserDefined_token (text : List UInt8) :
    (nextUserDefined text).token = 0 ∨ (nextUserDefined text).token = 151657 ∨
      (nextUserDefined text).token = 151658 := by
  induction text with
  | nil => exact .inl rfl
  | cons byte text ih =>
    rw [nextUserDefined]
    split_ifs
    · exact .inr (.inl rfl)
    · exact .inr (.inr rfl)
    · exact ih

namespace MergeIndex

variable {index : MergeIndex} {scratch : Nat → UInt8} {count : Nat}

/-- A best pair that was found has a rule. -/
lemma lookup_bestPair (h : (index.bestPair scratch count).rank ≠ 0xffffffff) :
    index.lookup (tokenAt scratch (index.bestPair scratch count).position)
        (tokenAt scratch ((index.bestPair scratch count).position + 1)) =
      some ((index.bestPair scratch count).result, (index.bestPair scratch count).rank) := by
  have fold (n : Nat) (best : Best)
      (eq : (List.range n).foldl (index.considerPair scratch) Best.none = best) :
      best.rank ≠ 0xffffffff →
        index.lookup (tokenAt scratch best.position) (tokenAt scratch (best.position + 1)) =
          some (best.result, best.rank) := by
    induction n generalizing best with
    | zero =>
      subst eq
      exact fun found => absurd rfl found
    | succ n ih =>
      rw [List.range_succ, List.foldl_append, List.foldl_cons, List.foldl_nil, considerPair] at eq
      subst eq
      split
      case h_1 result rank rule =>
        split
        · exact fun _ => rule
        · exact ih _ rfl
      case h_2 => exact ih _ rfl
  have two := two_le_of_bestPair h
  rw [bestPair, if_pos two] at h ⊢
  exact fold _ _ rfl h

/-- A merge brings in its result only. -/
lemma mem_mergeAt {tokens : List UInt32} {i : Nat} {a t : UInt32} (h : t ∈ mergeAt tokens i a) :
    t ∈ tokens ∨ t = a :=
  List.mem_or_eq_of_mem_set (List.mem_of_mem_eraseIdx h)

/-- Merging leaves byte tokens and merge results. -/
lemma Ordinary.mergeLoop (ordinary : index.Ordinary) (scratch : Nat → UInt8) (count : Nat)
    (h : ∀ t ∈ words scratch currentSegment count, t < specialTokens) :
    ∀ t ∈ words (index.mergeLoop scratch count).1 currentSegment (index.mergeLoop scratch count).2,
      t < specialTokens := by
  induction scratch, count using mergeLoop.induct index with
  | case1 scratch count done =>
    rw [mergeLoop_done done]
    exact h
  | case2 scratch count more ih =>
    rw [mergeLoop_more more]
    refine ih fun t mem => ?_
    rw [words_mergeBest (bestPair_position_lt (two_le_of_bestPair more))] at mem
    rcases mem_mergeAt mem with old | rfl
    · exact h t old
    · exact ordinary.result (lookup_bestPair more)

/-- A fragment is encoded to ordinary tokens. -/
lemma Ordinary.encode (ordinary : index.Ordinary) (text : List UInt8) :
    ∀ t ∈ index.encode text, t < specialTokens := by
  rw [MergeIndex.encode]
  refine ordinary.mergeLoop _ _ fun t mem => ?_
  rw [words_loadSegment] at mem
  obtain ⟨byte, -, rfl⟩ := List.mem_map.mp mem
  exact ordinary.byteToken byte

/-- Fragments are encoded to ordinary tokens. -/
lemma Ordinary.fragments (ordinary : index.Ordinary) (fragments : List (List UInt8)) :
    ∀ t ∈ (fragments.map Piece.fragment).flatMap (Piece.tokens index), t < specialTokens := by
  intro t mem
  obtain ⟨piece, known, mem⟩ := List.mem_flatMap.mp mem
  obtain ⟨fragment, -, rfl⟩ := List.mem_map.mp known
  exact ordinary.encode fragment t mem

/-- Ordinary tokens have no control token among them. -/
lemma filter_ordinary {tokens : List UInt32} (h : ∀ t ∈ tokens, t < specialTokens) :
    tokens.filter (specialTokens ≤ ·) = [] :=
  List.filter_eq_nil_iff.mpr fun t mem => by
    simpa using UInt32.not_le.mpr (h t mem)

/-- The tokens of a text from the special range on are the user-defined ones it spells. -/
lemma Ordinary.filter_textTokens (ordinary : index.Ordinary) (text : List UInt8) :
    (textTokens index text).filter (specialTokens ≤ ·) = userDefined text := by
  induction h : text.length using Nat.strong_induction_on generalizing text with
  | _ left ih =>
  have bounds := (nextUserDefined_bounds text).2
  have kinds := nextUserDefined_token text
  rw [textTokens, pieces, userDefined_eq]
  generalize nextUserDefined text = next at *
  rw [List.flatMap_append, List.filter_append, filter_ordinary (ordinary.fragments _),
    List.nil_append]
  by_cases special : next.token ≠ 0
  · obtain ⟨positive, inside⟩ := bounds special
    have rest := ih _ (by rw [List.length_drop]; omega)
      (text.drop (next.position + next.length)) rfl
    rw [textTokens] at rest
    have high : specialTokens ≤ next.token := by
      rcases kinds with zero | call | close
      · exact absurd zero special
      · rw [call]
        decide
      · rw [close]
        decide
    rw [dif_pos special, if_pos special, List.flatMap_cons, List.filter_append, rest, Piece.tokens,
      List.filter_singleton, decide_eq_true high]
    rfl
  · rw [dif_neg special, if_neg special]
    rfl

/-- There are two user-defined tokens. -/
lemma mem_userDefined {text : List UInt8} {t : UInt32} (mem : t ∈ userDefined text) :
    t = 151657 ∨ t = 151658 := by
  induction h : text.length using Nat.strong_induction_on generalizing text with
  | _ left ih =>
  have bounds := (nextUserDefined_bounds text).2
  have kinds := nextUserDefined_token text
  rw [userDefined_eq] at mem
  generalize nextUserDefined text = next at *
  split_ifs at mem with special
  · obtain ⟨positive, inside⟩ := bounds special
    rcases List.mem_cons.mp mem with rfl | mem
    · exact kinds.resolve_left special
    · exact ih _ (by rw [List.length_drop]; omega) mem rfl
  · exact nomatch mem

/-- The tokens of a text are ordinary or user-defined. -/
lemma Ordinary.mem_textTokens (ordinary : index.Ordinary) {text : List UInt8} {t : UInt32}
    (mem : t ∈ textTokens index text) : t < specialTokens ∨ t = 151657 ∨ t = 151658 := by
  rcases UInt32.lt_or_le t specialTokens with low | special
  · exact .inl low
  · have kept : t ∈ userDefined text := by
      rw [← ordinary.filter_textTokens]
      exact List.mem_filter.mpr ⟨mem, decide_eq_true special⟩
    exact .inr (mem_userDefined kept)

/-- A text has no control token. -/
lemma Ordinary.not_mem (ordinary : index.Ordinary) {text : List UInt8} {control : UInt32}
    (special : specialTokens ≤ control) (call : control ≠ 151657) (close : control ≠ 151658) :
    control ∉ textTokens index text := by
  intro mem
  rcases ordinary.mem_textTokens mem with low | eq | eq
  · exact absurd special (UInt32.not_le.mpr low)
  · exact call eq
  · exact close eq

/-- The tokens in front of the user's, and those behind. -/
def tokensBefore (index : MergeIndex) : List UInt32 :=
  callsBefore.flatMap (PromptCall.tokens index)

def tokensAfter (index : MergeIndex) : List UInt32 :=
  callsAfter.flatMap (PromptCall.tokens index)

/-- The tokens of a prompt are those before, of and behind the user's text. -/
lemma promptTokens_eq (index : MergeIndex) (user : List UInt8) :
    index.promptTokens user = index.tokensBefore ++ textTokens index user ++ index.tokensAfter := by
  rw [promptTokens, promptCalls, List.flatMap_append, List.flatMap_cons, ← List.append_assoc]
  rfl

/-- The tokens of a prompt are in the vocabulary. -/
lemma Ordinary.promptTokens_lt (ordinary : index.Ordinary) {user : List UInt8} :
    ∀ t ∈ index.promptTokens user, t.toNat < 151936 := by
  have text {text : List UInt8} : ∀ t ∈ textTokens index text, t.toNat < 151936 := by
    intro t mem
    rcases ordinary.mem_textTokens mem with low | rfl | rfl
    · have below : t.toNat < 151643 := UInt32.lt_iff_toNat_lt.mp low
      omega
    · decide
    · decide
  intro t mem
  rw [promptTokens, List.mem_flatMap] at mem
  obtain ⟨call, known, mem⟩ := mem
  cases call with
  | ordinary part => exact text t mem
  | control token =>
    rw [PromptCall.tokens, PromptCall.pieces, List.flatMap_singleton, Piece.tokens,
      List.mem_singleton] at mem
    simp only [promptCalls, callsBefore, callsAfter, List.cons_append, List.nil_append,
      List.mem_cons, PromptCall.control.injEq, reduceCtorEq, List.not_mem_nil, or_false,
      false_or] at known
    rw [mem]
    rcases known with rfl | rfl | rfl | rfl | rfl <;> decide

/-- The tokens of a prompt that was rendered. -/
lemma renderAndTokenize_tokens {user : List UInt8} {b b' : PromptBuffers} {usage : PromptUsage}
    (run : index.renderAndTokenize user b = (.ok usage, b')) :
    b'.tokens.take usage.tokenCount =
      index.tokensBefore ++ textTokens index user ++ index.tokensAfter := by
  have outcome := renderAndTokenize_outcome index user b
  rw [run] at outcome
  obtain ⟨-, -, -, -, count, -, tokens⟩ := outcome
  rw [tokens, count, List.take_left, promptTokens_eq]

/-- How often the template has a control token. -/
lemma Ordinary.count_template (ordinary : index.Ordinary) {control : UInt32}
    (special : specialTokens ≤ control) (call : control ≠ 151657) (close : control ≠ 151658)
    (calls : List PromptCall) :
    (calls.flatMap (PromptCall.tokens index)).count control =
      calls.countP fun
        | .control token => token == control
        | .ordinary _ => false := by
  induction calls with
  | nil => rfl
  | cons head calls ih =>
    rw [List.flatMap_cons, List.count_append, ih, List.countP_cons, Nat.add_comm]
    congr 1
    cases head with
    | control token =>
      rw [PromptCall.tokens, PromptCall.pieces, List.flatMap_singleton, Piece.tokens,
        List.count_singleton]
    | ordinary text =>
      exact List.count_eq_zero.mpr (ordinary.not_mem special call close)

/-- A control token occurs as often as the template has it. -/
lemma Ordinary.count_prompt (ordinary : index.Ordinary) {control : UInt32}
    (special : specialTokens ≤ control) (call : control ≠ 151657) (close : control ≠ 151658)
    (user : List UInt8) :
    (index.promptTokens user).count control =
      (callsBefore ++ callsAfter).countP fun
        | .control token => token == control
        | .ordinary _ => false := by
  have none : (textTokens index user).count control = 0 :=
    List.count_eq_zero.mpr (ordinary.not_mem special call close)
  rw [promptTokens_eq, List.count_append, List.count_append, none, Nat.add_zero, tokensBefore,
    tokensAfter, ordinary.count_template special call close,
    ordinary.count_template special call close, List.countP_append]

end MergeIndex

open MergeIndex

/-- A user's text forges no control token: what it brings in from the special range are the
user-defined tokens it spells. A prompt is the same in front of and behind the user's tokens
whatever the text, and has three start and two end markers, as is reported; every text of at most
512 printable bytes has one in buffers that take it. -/
theorem user_forges_nothing (index : MergeIndex) (ordinary : index.Ordinary) (user : List UInt8) :
    (textTokens index user).filter (specialTokens ≤ ·) = userDefined user ∧
      (∀ b usage b', index.renderAndTokenize user b = (.ok usage, b') →
        b'.tokens.take usage.tokenCount =
            index.tokensBefore ++ textTokens index user ++ index.tokensAfter ∧
          (b'.tokens.take usage.tokenCount).count imStart = 3 ∧ usage.imStartCount = 3 ∧
          (b'.tokens.take usage.tokenCount).count imEnd = 2 ∧ usage.imEndCount = 2) ∧
      ((∀ byte ∈ user, 0x20 ≤ byte ∧ byte ≤ 0x7e) → user.length ≤ maxSegment →
        index.templateTokens.length ≤ 87 → ∀ b, Roomy user b →
          ∃ usage b', index.renderAndTokenize user b = (.ok usage, b')) := by
  refine ⟨ordinary.filter_textTokens user, fun b usage b' run => ?_,
    fun printable short template b roomy => ?_⟩
  · have taken := renderAndTokenize_tokens run
    have reported : usage.imStartCount = 3 ∧ usage.imEndCount = 2 := by
      rw [renderAndTokenize] at run
      split at run
      · cases run
      · split at run
        · cases run
          exact ⟨rfl, rfl⟩
        · cases run
    refine ⟨taken, ?_, reported.1, ?_, reported.2⟩ <;> rw [taken, ← promptTokens_eq]
    · rw [ordinary.count_prompt (by decide) (by decide) (by decide)]
      decide
    · rw [ordinary.count_prompt (by decide) (by decide) (by decide)]
      decide
  · have total := length_promptTokens_le index user
    refine renderAndTokenize_runs printable short ?_ roomy
    simp only [maxSegment, Tokenizer.maxTokens] at *
    omega

/-- The example's merges are ordinary. -/
lemma mergeAll_ordinary : mergeAll.Ordinary where
  byteToken _ := show (0 : UInt32) < specialTokens by decide
  result rule := by
    cases rule
    decide

/-- A text that spells a marker is rendered: the marker is in the prompt, and no other control token
than those of the template. -/
theorem user_forges_nothing_mergeAll :
    (textTokens mergeAll (byteString "<tool_call>")).filter (specialTokens ≤ ·) = [151657] ∧
      ∃ usage b', mergeAll.renderAndTokenize (byteString "<tool_call>") roomyBuffers =
          (.ok usage, b') ∧
        b'.tokens.take usage.tokenCount = mergeAll.tokensBefore ++
          textTokens mergeAll (byteString "<tool_call>") ++ mergeAll.tokensAfter ∧
        (b'.tokens.take usage.tokenCount).count imStart = 3 ∧
        (b'.tokens.take usage.tokenCount).count imEnd = 2 := by
  have spelled : userDefined (byteString "<tool_call>") = [151657] := by
    have found : nextUserDefined (byteString "<tool_call>") = ⟨0, 151657, 11⟩ := by decide
    rw [userDefined_eq, found, if_pos (by decide)]
    exact congrArg (151657 :: ·) userDefined.eq_1
  obtain ⟨special, prompts, runs⟩ :=
    user_forges_nothing mergeAll mergeAll_ordinary (byteString "<tool_call>")
  have short : (byteString "<tool_call>").length ≤ maxSegment := by decide +kernel
  obtain ⟨usage, b', run⟩ :=
    runs (by decide +kernel) short mergeAll_template roomyBuffers (roomyBuffers_roomy short)
  obtain ⟨taken, starts, -, ends, -⟩ := prompts _ _ _ run
  exact ⟨special.trans spelled, usage, b', run, taken, starts, ends⟩

end Promptboot
