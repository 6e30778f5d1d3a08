import Promptboot.Tokenizer.Control

/-!
# A conversation in the chat template

A later turn takes its tokens from a fresh prompt, from the line end in front of the second start
marker on, and puts them behind the history. So the tokens of a whole conversation are those of the
template, turn after turn.

`secondStart_eq` finds the second start marker by the library's search, and `suffixStart_eq` what
the later turn takes. `renderConversation_nextPrompt` is the step, and the headline
`conversation_is_template` the induction on the committed turns. `renderConversation_runs` shows
that a turn with room succeeds.
-/

namespace Promptboot
open Memory

section Search
variable {scratch : Nat → UInt8} {seen : Nat} {tokens : List UInt32}

/-- Tokens other than the start marker are passed over. -/
lemma secondStart_skip {positions rest : List Nat}
    (other : ∀ i ∈ positions, u32At scratch (stagedTokens + i * 4) ≠ imStart) :
    MergeIndex.secondStart scratch seen (positions ++ rest) =
      MergeIndex.secondStart scratch seen rest := by
  induction positions with
  | nil => rfl
  | cons i positions ih =>
    rw [List.cons_append, MergeIndex.secondStart, if_neg (other i (List.mem_cons_self ..))]
    exact ih fun j mem => other j (List.mem_cons_of_mem _ mem)

/-- A staged token is the word at its place. -/
lemma u32At_staged (staged : words scratch stagedTokens tokens.length = tokens) {i : Nat}
    {token : UInt32} (at_i : tokens[i]? = some token) :
    u32At scratch (stagedTokens + i * 4) = token := by
  have bound := (List.getElem?_eq_some_iff.mp at_i).1
  rw [← staged, getElem?_words, if_pos bound] at at_i
  exact Option.some.inj at_i

/-- Behind a start marker, tokens without one and a second one, the search stops at that. -/
lemma secondStart_eq {between rest : List UInt32} (free : imStart ∉ between)
    (eq : tokens = imStart :: between ++ imStart :: rest)
    (staged : words scratch stagedTokens tokens.length = tokens) :
    MergeIndex.secondStart scratch 0 (List.range tokens.length) = some (between.length + 1) := by
  have first : u32At scratch (stagedTokens + 0 * 4) = imStart :=
    u32At_staged staged (by rw [eq]; rfl)
  have second : u32At scratch (stagedTokens + (between.length + 1) * 4) = imStart := by
    refine u32At_staged staged ?_
    rw [eq, List.cons_append, List.getElem?_cons_succ, List.getElem?_append_right (Nat.le_refl _),
      Nat.sub_self]
    rfl
  have other : ∀ i ∈ List.range' 1 between.length,
      u32At scratch (stagedTokens + i * 4) ≠ imStart := by
    intro i mem
    obtain ⟨k, bound, rfl⟩ := List.mem_range'.mp mem
    have value : u32At scratch (stagedTokens + (1 + 1 * k) * 4) = between[k] := by
      refine u32At_staged staged ?_
      rw [eq, Nat.one_mul, Nat.add_comm, List.cons_append, List.getElem?_cons_succ,
        List.getElem?_append_left bound, List.getElem?_eq_getElem bound]
    rw [value]
    exact fun same => free (same ▸ List.getElem_mem bound)
  have split : List.range tokens.length = 0 :: (List.range' 1 between.length ++
      (between.length + 1) :: List.range' (between.length + 2) rest.length) := by
    have total : tokens.length = 1 + (between.length + (1 + rest.length)) := by
      rw [eq]
      simp only [List.length_append, List.length_cons]
      omega
    rw [List.range_eq_range', total, List.range'_append_1.symm, List.range'_append_1.symm,
      List.range'_append_1.symm]
    simp only [Nat.zero_add, List.range'_one, List.cons_append, List.nil_append,
      Nat.add_comm 1 between.length]
  rw [split, MergeIndex.secondStart, if_pos first, if_neg (by decide), secondStart_skip other,
    MergeIndex.secondStart, if_pos second, if_pos rfl]

end Search

namespace MergeIndex

variable {index : MergeIndex} {history : List UInt32} {user : List UInt8}

/-- The tokens of one more turn, up to where the answer begins. -/
def turnTokens (index : MergeIndex) (user : List UInt8) : List UInt32 :=
  [198, imStart] ++ textTokens index (byteString "user") ++ [198] ++ textTokens index user ++
    [imEnd, 198, imStart] ++ textTokens index (byteString "assistant") ++ [198]

/-- The tokens of the system message. -/
def systemTokens (index : MergeIndex) : List UInt32 :=
  [imStart] ++ textTokens index (byteString "system") ++ [198] ++
    textTokens index
      (byteString "You are Qwen, created by Alibaba Cloud. You are a helpful assistant.") ++
    [imEnd]

/-- The model has a token of its own for a line end. -/
def Newline (index : MergeIndex) : Prop := textTokens index (byteString "\n") = [198]

/-- A fresh prompt is the system message and a turn. -/
lemma promptTokens_turn (newline : index.Newline) (user : List UInt8) :
    index.promptTokens user = index.systemTokens ++ index.turnTokens user := by
  have line : (pieces (byteString "\n")).flatMap (Piece.tokens index) = [198] := newline
  rw [promptTokens_eq, tokensBefore, tokensAfter, systemTokens, turnTokens]
  simp only [callsBefore, callsAfter, PromptCall.tokens, PromptCall.pieces, List.flatMap_cons,
    List.flatMap_nil, line, Piece.tokens, textTokens, List.append_assoc, List.cons_append,
    List.nil_append, List.append_nil]

/-- Behind the system message the search for a later turn's tokens stops. -/
lemma suffixStart_eq (ordinary : index.Ordinary) (newline : index.Newline)
    (history_ne : history ≠ []) {scratch : Nat → UInt8}
    (staged : words scratch stagedTokens (index.promptTokens user).length =
      index.promptTokens user) :
    suffixStart history scratch (index.promptTokens user).length =
      some index.systemTokens.length := by
  have none (text : List UInt8) : imStart ∉ textTokens index text :=
    ordinary.not_mem (by decide) (by decide) (by decide)
  obtain ⟨between, system_eq⟩ : ∃ between, index.systemTokens = imStart :: between := ⟨_, rfl⟩
  obtain ⟨rest, turn_eq⟩ : ∃ rest, index.turnTokens user = 198 :: imStart :: rest := ⟨_, rfl⟩
  have free : imStart ∉ between ++ [198] := by
    have whole : imStart :: between = [imStart] ++ (textTokens index (byteString "system") ++
        ([198] ++ (textTokens index
          (byteString "You are Qwen, created by Alibaba Cloud. You are a helpful assistant.") ++
          [imEnd]))) := by
      rw [← system_eq, systemTokens]
      simp only [List.append_assoc]
    rw [List.singleton_append] at whole
    rw [(List.cons.inj whole).2]
    simp only [List.mem_append, List.mem_singleton, none, false_or]
    decide
  have eq : index.promptTokens user = imStart :: (between ++ [198]) ++ imStart :: rest := by
    rw [promptTokens_turn newline, system_eq, turn_eq]
    simp
  have found := secondStart_eq free eq staged
  have line : u32At scratch (stagedTokens + index.systemTokens.length * 4) = 198 := by
    refine u32At_staged staged ?_
    rw [promptTokens_turn newline, turn_eq, List.getElem?_append_right (Nat.le_refl _),
      Nat.sub_self]
    rfl
  have position : (between ++ [198]).length + 1 = index.systemTokens.length + 1 := by
    rw [system_eq, List.length_append, List.length_cons]
    rfl
  rw [suffixStart, if_neg (by simpa using history_ne), found, position]
  exact if_pos line

/-- What is published begins at the second start marker. -/
lemma publish_start {c : PromptComputation} {b b' : PromptBuffers} {usage : ConversationUsage}
    (h : publish history c b = (.ok usage, b')) :
    ∃ start, suffixStart history b.scratch c.tokenCount = some start ∧
      usage.promptTokens = history.length + (c.tokenCount - start) := by
  rw [publish] at h
  dsimp only at h
  rcases found : suffixStart history b.scratch c.tokenCount with _ | start <;> rw [found] at h
  · cases h
  dsimp only at h
  by_cases overflow : 2 ^ 64 ≤ history.length + (c.tokenCount - start)
  · rw [if_pos overflow] at h
    cases h
  rw [if_neg overflow] at h
  by_cases long : history.length + (c.tokenCount - start) > contextLimit
  · rw [if_pos long] at h
    cases h
  rw [if_neg long] at h
  cases h
  have small : contextLimit ≤ 2 ^ 32 - 1 := by decide
  exact ⟨start, rfl, Nat.min_eq_left (by omega)⟩

/-- A turn that is accepted stages a fresh prompt and finds where its tokens start there. -/
lemma renderConversation_start {b b' : PromptBuffers} {usage : ConversationUsage}
    (run : index.renderConversationAndTokenize history user b = (.ok usage, b')) :
    ∃ scratch start,
      words scratch stagedTokens (index.promptTokens user).length = index.promptTokens user ∧
      suffixStart history scratch (index.promptTokens user).length = some start ∧
      usage.promptTokens = history.length + ((index.promptTokens user).length - start) := by
  rw [renderConversationAndTokenize, Fallible.bind_apply, Fallible.lift_apply] at run
  rcases valid : checkConversation history user b with e | _
  · rw [valid] at run
    cases run
  obtain ⟨-, -, request⟩ := checkConversation_ok valid
  obtain ⟨short, -, -⟩ := validatePromptRequest_ok request
  rw [valid] at run
  change (index.computeOrClear user >>= publish history) b = _ at run
  rw [Fallible.bind_apply, computeOrClear] at run
  rcases computeIn_cases index short b with
    ⟨c, t, computed, -, count, -, tokens, -⟩ | ⟨e, t, computed⟩
  · rw [computed] at run
    obtain ⟨start, found, total⟩ := publish_start run
    rw [count] at tokens found total
    exact ⟨t.scratch, start, tokens, found, total⟩
  · rw [computed] at run
    cases run

/-- Two ends of one length are the same. -/
lemma drop_eq_of_length_eq {α : Type} {l : List α} {m n : Nat} (h : l.length - m = l.length - n) :
    l.drop m = l.drop n := by
  rcases Nat.lt_or_ge m l.length with inside | past
  · rw [show m = n by omega]
  · rw [List.drop_eq_nil_of_le past, List.drop_eq_nil_of_le (by omega)]

/-- The tokens of an accepted turn: the history, and the fresh prompt from the start on. -/
lemma renderConversation_tokens {b b' : PromptBuffers} {usage : ConversationUsage}
    (run : index.renderConversationAndTokenize history user b = (.ok usage, b')) :
    ∃ scratch start,
      words scratch stagedTokens (index.promptTokens user).length = index.promptTokens user ∧
      suffixStart history scratch (index.promptTokens user).length = some start ∧
      b'.tokens.take usage.promptTokens = history ++ (index.promptTokens user).drop start ∧
      usage.promptTokens = (history ++ (index.promptTokens user).drop start).length := by
  obtain ⟨scratch, start, staged, found, total⟩ := renderConversation_start run
  have outcome := renderConversation_outcome index history user b
  rw [run] at outcome
  obtain ⟨-, -, -, -, start', total', -, tokens⟩ := outcome
  have same : (index.promptTokens user).drop start' = (index.promptTokens user).drop start := by
    apply drop_eq_of_length_eq
    rw [total, List.length_append, List.length_drop] at total'
    omega
  rw [same] at total' tokens
  exact ⟨scratch, start, staged, found, by rw [tokens, total', List.take_left], total'⟩

/-- The tokens of the prompt of a turn behind a history. -/
def nextPrompt (index : MergeIndex) (history : List UInt32) (user : List UInt8) : List UInt32 :=
  if history = [] then index.promptTokens user else history ++ index.turnTokens user

/-- A rendered conversation is the history and the next turn. -/
lemma renderConversation_nextPrompt (ordinary : index.Ordinary) (newline : index.Newline)
    {b b' : PromptBuffers} {usage : ConversationUsage}
    (run : index.renderConversationAndTokenize history user b = (.ok usage, b')) :
    b'.tokens.take usage.promptTokens = index.nextPrompt history user ∧
      usage.promptTokens = (index.nextPrompt history user).length := by
  obtain ⟨scratch, start, staged, found, tokens, total⟩ := renderConversation_tokens run
  have eq : history ++ (index.promptTokens user).drop start = index.nextPrompt history user := by
    rw [nextPrompt]
    split_ifs with empty
    · subst empty
      rw [suffixStart, List.isEmpty_nil, if_pos rfl] at found
      rw [← Option.some.inj found, List.drop_zero, List.nil_append]
    · rw [suffixStart_eq ordinary newline empty staged] at found
      cases found
      rw [promptTokens_turn newline, List.drop_left]
  rw [← eq]
  exact ⟨tokens, total⟩

end MergeIndex

open MergeIndex

/-- A turn: what the user wrote, and the tokens generated for it. -/
structure Turn where
  user : List UInt8
  answer : List UInt32

/-- The histories that turns leave: the prompt of each, as it was rendered, and its answer, which
an end marker ends. -/
inductive Committed (index : MergeIndex) : List Turn → List UInt32 → Prop where
  | start : Committed index [] []
  | turn {turns history user b usage b' answer} :
    Committed index turns history →
    index.renderConversationAndTokenize history user b = (.ok usage, b') →
    answer.getLast? = some imEnd →
    Committed index (turns ++ [⟨user, answer⟩]) (b'.tokens.take usage.promptTokens ++ answer)

/-- The chat template of a conversation whose last turn is to be answered. -/
def conversationTokens (index : MergeIndex) (turns : List Turn) (user : List UInt8) :
    List UInt32 :=
  index.systemTokens ++ turns.flatMap (fun turn => index.turnTokens turn.user ++ turn.answer) ++
    index.turnTokens user

/-- The next prompt is the template of all turns. -/
lemma nextPrompt_eq_conversation {index : MergeIndex} (ordinary : index.Ordinary)
    (newline : index.Newline) {turns : List Turn} {history : List UInt32}
    (committed : Committed index turns history) (user : List UInt8) :
    index.nextPrompt history user = conversationTokens index turns user := by
  induction committed generalizing user with
  | start =>
    rw [nextPrompt, if_pos rfl, promptTokens_turn newline, conversationTokens, List.flatMap_nil,
      List.append_nil]
  | @turn turns history line b usage b' answer _ run ended ih =>
    have tokens := (renderConversation_nextPrompt ordinary newline run).1
    have nonempty : answer ≠ [] := by
      rintro rfl
      cases ended
    rw [nextPrompt, if_neg (by simp [nonempty]), tokens, ih line, conversationTokens,
      conversationTokens, List.flatMap_append, List.flatMap_singleton]
    simp only [List.append_assoc]

/-- The prompt of a turn is the history and the tokens of the turn behind it, or a fresh prompt; and
the whole of it is the chat template of the conversation. -/
theorem conversation_is_template (index : MergeIndex) (ordinary : index.Ordinary)
    (newline : index.Newline) {turns : List Turn} {history : List UInt32} {user : List UInt8}
    {b b' : PromptBuffers} {usage : ConversationUsage} (committed : Committed index turns history)
    (run : index.renderConversationAndTokenize history user b = (.ok usage, b')) :
    b'.tokens.take usage.promptTokens =
        (if history = [] then index.promptTokens user
        else history ++ [198, imStart] ++ textTokens index (byteString "user") ++ [198] ++
          textTokens index user ++ [imEnd, 198, imStart] ++
          textTokens index (byteString "assistant") ++ [198]) ∧
      usage.promptTokens = (b'.tokens.take usage.promptTokens).length ∧
      b'.tokens.take usage.promptTokens = conversationTokens index turns user := by
  obtain ⟨tokens, total⟩ := renderConversation_nextPrompt ordinary newline run
  refine ⟨?_, by rw [tokens, total], ?_⟩
  · rw [tokens, nextPrompt, turnTokens]
    simp only [List.append_assoc]
  · rw [tokens, nextPrompt_eq_conversation ordinary newline committed]

section TwoTurns

/-- Every byte is a token of its own, the line end the one of the template. -/
def lineIndex : MergeIndex := ⟨fun byte => if byte = 10 then 198 else 0, fun _ _ => none⟩

/-- The merges of the example are ordinary. -/
lemma lineIndex_ordinary : lineIndex.Ordinary where
  byteToken byte := by
    show (if byte = 10 then (198 : UInt32) else 0) < specialTokens
    split <;> decide
  result rule := nomatch rule

/-- A single byte is its token. -/
lemma encode_singleton (index : MergeIndex) (byte : UInt8) :
    index.encode [byte] = [index.byteToken byte] := by
  have none : (index.bestPair (index.loadSegment (fun _ => 0) [byte]) 1).rank = 0xffffffff := by
    rw [bestPair, if_neg (by decide)]
    rfl
  have loaded := words_loadSegment index (fun _ => 0) [byte]
  rw [encode, List.length_singleton, mergeLoop_done none]
  exact loaded

/-- The merges of the example leave a line end as it is. -/
lemma lineIndex_newline : lineIndex.Newline := by
  have cut : Regex.scan qwen2 (byteString "\n") = [[10]] := by decide +kernel
  rw [Newline, textTokens, pieces_of_plain (by decide +kernel), cut, List.map_singleton,
    List.flatMap_singleton, Piece.tokens, encode_singleton]
  rfl

/-- A template has at most as many tokens as bytes. -/
lemma length_templateTokens_le (index : MergeIndex) : index.templateTokens.length ≤ 100 := by
  have bound (text : List UInt8) : ((pieces text).flatMap (Piece.tokens index)).length ≤
      text.length := (pieces_bounds index text).1
  have system := bound (byteString "system")
  have message :=
    bound (byteString "You are Qwen, created by Alibaba Cloud. You are a helpful assistant.")
  have user := bound (byteString "user")
  have assistant := bound (byteString "assistant")
  have line := bound (byteString "\n")
  rw [show (byteString "system").length = 6 by decide] at system
  rw [show (byteString
    "You are Qwen, created by Alibaba Cloud. You are a helpful assistant.").length = 68
    by decide +kernel] at message
  rw [show (byteString "user").length = 4 by decide] at user
  rw [show (byteString "assistant").length = 9 by decide] at assistant
  rw [show (byteString "\n").length = 1 by decide] at line
  simp only [templateTokens, callsBefore, callsAfter, List.cons_append, List.nil_append,
    List.flatMap_cons, List.flatMap_nil, PromptCall.tokens, PromptCall.pieces, List.length_append,
    List.length_cons, List.length_nil, Piece.tokens]
  omega

/-- A turn whose checks pass is accepted when its tokens fit. -/
lemma renderConversation_runs {index : MergeIndex} {history : List UInt32} {user : List UInt8}
    {b : PromptBuffers} (ordinary : index.Ordinary) (newline : index.Newline)
    (valid : checkConversation history user b = .ok ())
    (fits : (index.promptTokens user).length ≤ Tokenizer.maxTokens)
    (room : history.length + (index.promptTokens user).length ≤ contextLimit) :
    ∃ usage b', index.renderConversationAndTokenize history user b = (.ok usage, b') := by
  obtain ⟨-, -, request⟩ := checkConversation_ok valid
  obtain ⟨short, -, -⟩ := validatePromptRequest_ok request
  rw [renderConversationAndTokenize, Fallible.bind_apply, Fallible.lift_apply, valid]
  change ∃ usage b', (index.computeOrClear user >>= publish history) b = (.ok usage, b')
  rw [Fallible.bind_apply, computeOrClear]
  obtain ⟨c, t, computed, -, count, tokens, -, -⟩ :=
    computePrompt_of_fits short fits ⟨b.scratch, 0, Nat.zero_le _⟩
  have length : t.count = (index.promptTokens user).length := by
    rw [← tokens, Staging.tokens, length_words]
  have staged : words t.scratch stagedTokens (index.promptTokens user).length =
      index.promptTokens user := length ▸ tokens
  have found : ∃ start, suffixStart history t.scratch (index.promptTokens user).length =
      some start := by
    by_cases empty : history = []
    · rw [suffixStart, empty, List.isEmpty_nil, if_pos rfl]
      exact ⟨0, rfl⟩
    · exact ⟨_, suffixStart_eq ordinary newline empty staged⟩
  obtain ⟨start, found⟩ := found
  have small : contextLimit < 2 ^ 64 := by decide
  rw [computeIn, computed]
  dsimp only
  rw [publish, count, length]
  dsimp only
  rw [found]
  dsimp only
  rw [if_neg (by omega), if_neg (by omega)]
  exact ⟨_, _, rfl⟩

/-- The checks of a turn whose text is accepted and whose buffers are large enough. -/
lemma checkConversation_room {history : List UInt32} {user : List UInt8} {b : PromptBuffers}
    (short : user.length ≤ maxSegment) (printable : checkUserBytes user = .ok ())
    (small : history.length ≤ contextLimit) (ended : history = [] ∨ history.getLast? = some imEnd)
    (roomy : Roomy user { b with tokens := b.stagingTokens })
    (tokens : contextLimit ≤ b.tokens.length) :
    checkConversation history user b = .ok () := by
  have staging : Tokenizer.maxTokens ≤ b.stagingTokens.length := roomy.tokens
  have request : validatePromptRequest user b.rendered.length b.stagingTokens.length
      b.scratchAddress b.scratchLength = .ok () :=
    validatePromptRequest_room short printable roomy.rendered staging roomy.scratch roomy.aligned
  have last : history.isEmpty = false → validateConversationHistory history = .ok () := by
    intro nonempty
    have marked : history.getLast? = some imEnd := ended.resolve_left (by
      rintro rfl
      cases nonempty)
    rw [validateConversationHistory, if_neg]
    rintro (empty | long | other)
    · rw [nonempty] at empty
      cases empty
    · exact Nat.not_lt.mpr small long
    · exact other marked
  rw [checkConversation, if_neg (Nat.not_lt.mpr small)]
  simp only [Nat.not_lt.mpr staging, Nat.not_lt.mpr tokens, if_false]
  cases nonempty : history.isEmpty with
  | true => exact request
  | false =>
    rw [last nonempty]
    exact request

/-- With room and a history that ended, the checks pass. -/
lemma checkConversation_roomy {history : List UInt32} {user : List UInt8}
    (short : user.length ≤ maxSegment) (printable : checkUserBytes user = .ok ())
    (small : history.length ≤ contextLimit)
    (ended : history = [] ∨ history.getLast? = some imEnd) :
    checkConversation history user roomyBuffers = .ok () := by
  have staging : Tokenizer.maxTokens ≤ roomyBuffers.stagingTokens.length := by
    rw [roomyBuffers, List.length_replicate]
    exact Nat.le_refl 599
  refine checkConversation_room short printable small ended ?_ ?_
  · exact ⟨(roomyBuffers_roomy short).rendered, staging, Nat.le_refl 5120, rfl⟩
  · rw [roomyBuffers, List.length_replicate]
    exact Nat.le_refl 32768

/-- A committed turn and a second prompt. -/
theorem conversation_is_template_twoTurns :
    ∃ history usage b b', Committed lineIndex [⟨byteString "Hi", [imEnd]⟩] history ∧
      lineIndex.renderConversationAndTokenize history (byteString "Bye") b = (.ok usage, b') ∧
      b'.tokens.take usage.promptTokens =
        conversationTokens lineIndex [⟨byteString "Hi", [imEnd]⟩] (byteString "Bye") := by
  have template := length_templateTokens_le lineIndex
  have total (user : List UInt8) := length_promptTokens_le lineIndex user
  have first_total := total (byteString "Hi")
  have second_total := total (byteString "Bye")
  rw [show (byteString "Hi").length = 2 by decide] at first_total
  rw [show (byteString "Bye").length = 3 by decide] at second_total
  have limits : Tokenizer.maxTokens = 599 ∧ contextLimit = 32768 := ⟨rfl, rfl⟩
  have first_valid : checkConversation [] (byteString "Hi") roomyBuffers = .ok () :=
    checkConversation_roomy (by decide) (by decide) (Nat.zero_le _) (.inl rfl)
  obtain ⟨usage, b', run⟩ := renderConversation_runs lineIndex_ordinary lineIndex_newline
    first_valid (by omega) (by rw [List.length_nil]; omega)
  have committed : Committed lineIndex [⟨byteString "Hi", [imEnd]⟩]
      (b'.tokens.take usage.promptTokens ++ [imEnd]) := .turn .start run rfl
  have length : (b'.tokens.take usage.promptTokens ++ [imEnd]).length ≤ 103 := by
    have tokens := (renderConversation_nextPrompt lineIndex_ordinary lineIndex_newline run).1
    rw [List.length_append, tokens, nextPrompt, if_pos rfl, List.length_singleton]
    omega
  have second_valid : checkConversation (b'.tokens.take usage.promptTokens ++ [imEnd])
      (byteString "Bye") roomyBuffers = .ok () :=
    checkConversation_roomy (by decide) (by decide) (Nat.le_trans length (by decide))
      (.inr (by simp))
  obtain ⟨usage₂, b₂, run₂⟩ := renderConversation_runs lineIndex_ordinary lineIndex_newline
    second_valid (by omega) (by omega)
  exact ⟨_, usage₂, roomyBuffers, b₂, committed, run₂,
    (conversation_is_template lineIndex lineIndex_ordinary lineIndex_newline committed run₂).2.2⟩

end TwoTurns

end Promptboot
