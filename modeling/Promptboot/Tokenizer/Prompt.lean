import Promptboot.Tokenizer.Pieces

/-!
# The prompt computation

`compute_prompt` stages the rendered template with the user's bytes and the tokens of its parts. It
stops with an error exactly when the tokens exceed their area, which a user text of 512 bytes cannot
bring about in a template of at most 87 tokens.

`appends_promptBody` follows the parts of the template, `computePrompt_of_fits` and
`computePrompt_of_full` are the two outcomes, and `length_promptTokens_le` is the count, with
`fragment_short` for one fragment. The headline `computePrompt_fits` needs only the lengths of the
user's text and of the template.
-/

namespace Promptboot
open Memory

structure PromptComputation where
  renderedBytes : Nat
  tokenCount : Nat
  prefixTokens : Nat
  userTokens : Nat

def beforeUser : List UInt8 :=
  byteString "<|im_start|>system\nYou are Qwen, created by Alibaba Cloud. " ++
    byteString "You are a helpful assistant.<|im_end|>\n<|im_start|>user\n"

def afterUser : List UInt8 := byteString "<|im_end|>\n<|im_start|>assistant\n"

/-- The chat template with the user's text in it. -/
def chatTemplate (user : List UInt8) : List UInt8 := beforeUser ++ user ++ afterUser

def renderedCount (user : List UInt8) : Nat := beforeUser.length + user.length + afterUser.length

/-- A call of `control` or of `ordinary`. -/
inductive PromptCall where
  | control (token : UInt32)
  | ordinary (text : List UInt8)

namespace PromptCall

def run (index : MergeIndex) : PromptCall → Fallible Staging ModelError PUnit
  | control token => MergeIndex.control token
  | ordinary text => index.ordinary text

def pieces : PromptCall → List Piece
  | control token => [.marker token]
  | ordinary text => Promptboot.pieces text

def tokens (index : MergeIndex) (call : PromptCall) : List UInt32 :=
  call.pieces.flatMap (Piece.tokens index)

end PromptCall

/-- The calls in front of the user's text, in order. -/
def callsBefore : List PromptCall :=
  [.control imStart,
    .ordinary (byteString "system"),
    .ordinary (byteString "\n"),
    .ordinary (byteString "You are Qwen, created by Alibaba Cloud. You are a helpful assistant."),
    .control imEnd,
    .ordinary (byteString "\n"),
    .control imStart,
    .ordinary (byteString "user"),
    .ordinary (byteString "\n")]

/-- The calls behind it. -/
def callsAfter : List PromptCall :=
  [.control imEnd,
    .ordinary (byteString "\n"),
    .control imStart,
    .ordinary (byteString "assistant"),
    .ordinary (byteString "\n")]

def stageRendered (user : List UInt8) (scratch : Nat → UInt8) : Nat → UInt8 :=
  putBytes
    (putBytes (putBytes scratch stagedRendered beforeUser) (stagedRendered + beforeUser.length)
      user)
    (stagedRendered + beforeUser.length + user.length) afterUser

namespace MergeIndex

variable (index : MergeIndex)

def computePrompt (user : List UInt8) : Fallible Staging ModelError PromptComputation := do
  Fallible.modify fun s => ⟨stageRendered user s.scratch, 0, Nat.zero_le _⟩
  callsBefore.forM (PromptCall.run index)
  let prefixTokens := (← Fallible.get).count
  index.ordinary user
  let userTokens := (← Fallible.get).count - prefixTokens
  callsAfter.forM (PromptCall.run index)
  let count := (← Fallible.get).count
  pure ⟨renderedCount user, count, prefixTokens, userTokens⟩

/-- The tokens of the fixed text. -/
def templateTokens : List UInt32 := (callsBefore ++ callsAfter).flatMap (PromptCall.tokens index)

def promptCalls (user : List UInt8) : List PromptCall := callsBefore ++ .ordinary user :: callsAfter

/-- All tokens of a prompt. -/
def promptTokens (user : List UInt8) : List UInt32 :=
  (promptCalls user).flatMap (PromptCall.tokens index)

end MergeIndex

/-- The template is as long as it is counted. -/
lemma length_chatTemplate (user : List UInt8) :
    (chatTemplate user).length = renderedCount user := by
  rw [chatTemplate, List.length_append, List.length_append, renderedCount]

/-- The rendered bytes are the template with the user's text. -/
lemma bytes_stageRendered (user : List UInt8) (scratch : Nat → UInt8) :
    bytes (stageRendered user scratch) stagedRendered (renderedCount user) = chatTemplate user := by
  have first := putBytes_sameOutside
    (putBytes scratch stagedRendered beforeUser) (stagedRendered + beforeUser.length) user
  have second := putBytes_sameOutside
    (putBytes (putBytes scratch stagedRendered beforeUser) (stagedRendered + beforeUser.length)
      user)
    (stagedRendered + beforeUser.length + user.length) afterUser
  rw [stageRendered, renderedCount, bytes_add, bytes_add, ← Nat.add_assoc, bytes_putBytes,
    second.bytes (.inl (by omega)), second.bytes (.inl (by omega)), bytes_putBytes,
    first.bytes (.inl (by omega)), bytes_putBytes, chatTemplate]

/-- The bytes of the template before the user's text. -/
lemma length_before : beforeUser.length = 115 := by decide +kernel

/-- The bytes of the template behind the user's text. -/
lemma length_after : afterUser.length = 33 := by decide

/-- Staging the template changes nothing outside its area. -/
lemma stageRendered_sameOutside {user : List UInt8} (short : user.length ≤ maxSegment)
    (scratch : Nat → UInt8) :
    SameOutside stagedRendered Tokenizer.scratchBytes scratch (stageRendered user scratch) := by
  have h0 := putBytes_sameOutside scratch stagedRendered beforeUser
  have h1 := putBytes_sameOutside
    (putBytes scratch stagedRendered beforeUser) (stagedRendered + beforeUser.length) user
  have h2 := putBytes_sameOutside
    (putBytes (putBytes scratch stagedRendered beforeUser) (stagedRendered + beforeUser.length)
      user)
    (stagedRendered + beforeUser.length + user.length) afterUser
  have room : user.length ≤ 512 := short
  have front := length_before
  have back := length_after
  refine ((h0.mono ?_ ?_).trans (h1.mono ?_ ?_)).trans (h2.mono ?_ ?_)
  all_goals simp only [stagedRendered, Tokenizer.scratchBytes]
  all_goals omega

namespace Appends

/-- A call of the template appends its tokens. -/
lemma call {index : MergeIndex} {call : PromptCall}
    (short : ∀ text, call = .ordinary text → text.length ≤ maxSegment) :
    Appends (call.run index) (call.tokens index) := by
  cases call with
  | control token => exact control token
  | ordinary text => exact ordinary (short text rfl)

end Appends

/-- The fixed texts are short. -/
lemma length_of_template {text : List UInt8}
    (h : PromptCall.ordinary text ∈ callsBefore ++ callsAfter) :
    text.length ≤ maxSegment := by
  simp only [callsBefore, callsAfter, List.cons_append, List.nil_append, List.mem_cons,
    reduceCtorEq, PromptCall.ordinary.injEq, List.not_mem_nil, or_false, false_or] at h
  rcases h with rfl | rfl | rfl | rfl | rfl | rfl | rfl | rfl | rfl <;> decide +kernel

namespace MergeIndex

/-- The calls of `compute_prompt`, without what it counts between them. -/
def promptBody (index : MergeIndex) (user : List UInt8) : Fallible Staging ModelError PUnit :=
  callsBefore.forM (PromptCall.run index) >>= fun _ =>
    index.ordinary user >>= fun _ => callsAfter.forM (PromptCall.run index)

/-- The body of a prompt appends the tokens of the prompt. -/
lemma appends_promptBody (index : MergeIndex) {user : List UInt8}
    (short : user.length ≤ maxSegment) :
    Appends (index.promptBody user) (index.promptTokens user) := by
  have front : Appends (callsBefore.forM (PromptCall.run index))
      (callsBefore.flatMap (PromptCall.tokens index)) :=
    .forM fun call mem => .call fun text eq =>
      length_of_template (List.mem_append_left _ (eq ▸ mem))
  have back : Appends (callsAfter.forM (PromptCall.run index))
      (callsAfter.flatMap (PromptCall.tokens index)) :=
    .forM fun call mem => .call fun text eq =>
      length_of_template (List.mem_append_right _ (eq ▸ mem))
  rw [promptTokens, promptCalls, List.flatMap_append, List.flatMap_cons]
  exact front.bind ((Appends.ordinary short).bind back)

/-- The scratch memory with the rendered bytes in it and no token. -/
def staged (user : List UInt8) (s : Staging) : Staging :=
  ⟨stageRendered user s.scratch, 0, Nat.zero_le _⟩

variable {index : MergeIndex} {user : List UInt8} {s t : Staging}

/-- The counts that `compute_prompt` takes between its calls do not change what these do. -/
lemma computePrompt_eq (index : MergeIndex) (user : List UInt8) (s : Staging) :
    ∃ prefixTokens userTokens, index.computePrompt user s =
      match index.promptBody user (staged user s) with
      | (.error e, t) => (.error e, t)
      | (.ok _, t) => (.ok ⟨renderedCount user, t.count, prefixTokens, userTokens⟩, t) := by
  have start : index.computePrompt user s = (do
      callsBefore.forM (PromptCall.run index)
      let prefixTokens := (← Fallible.get).count
      index.ordinary user
      let userTokens := (← Fallible.get).count - prefixTokens
      callsAfter.forM (PromptCall.run index)
      let count := (← Fallible.get).count
      pure ⟨renderedCount user, count, prefixTokens, userTokens⟩ :
        Fallible Staging ModelError PromptComputation) (staged user s) := rfl
  rw [start, promptBody]
  rcases front : callsBefore.forM (PromptCall.run index) (staged user s) with ⟨e | _, t1⟩
  · rw [Fallible.bind_error front, Fallible.bind_error front]
    exact ⟨0, 0, rfl⟩
  rw [Fallible.bind_ok front, Fallible.bind_ok front, Fallible.bind_ok (Fallible.get_apply t1)]
  rcases middle : index.ordinary user t1 with ⟨e | _, t2⟩
  · rw [Fallible.bind_error middle, Fallible.bind_error middle]
    exact ⟨0, 0, rfl⟩
  rw [Fallible.bind_ok middle, Fallible.bind_ok middle, Fallible.bind_ok (Fallible.get_apply t2)]
  rcases back : callsAfter.forM (PromptCall.run index) t2 with ⟨e | _, t3⟩
  · rw [Fallible.bind_error back]
    exact ⟨0, 0, rfl⟩
  · rw [Fallible.bind_ok back]
    exact ⟨t1.count, t2.count - t1.count, rfl⟩

variable {index : MergeIndex} {user : List UInt8}

/-- At first no token is staged. -/
@[simp] lemma staged_count {s : Staging} : (staged user s).count = 0 := rfl

/-- At first the staged tokens are empty. -/
lemma staged_tokens {s : Staging} : (staged user s).tokens = [] := rfl

/-- At first the template is staged. -/
lemma staged_scratch {s : Staging} : (staged user s).scratch = stageRendered user s.scratch := by
  rw [staged]

/-- The tokens leave the staged template. -/
lemma stagedRendered_kept {s t : Staging}
    (h : SameOutside stagedTokens stagedRendered (staged user s).scratch t.scratch) :
    bytes t.scratch stagedRendered (renderedCount user) = chatTemplate user := by
  rw [h.bytes (.inr (Nat.le_refl _)), staged_scratch, bytes_stageRendered]

/-- A computation changes the scratch buffer only. -/
lemma staged_sameOutside (short : user.length ≤ maxSegment) {s t : Staging}
    (h : SameOutside stagedTokens stagedRendered (staged user s).scratch t.scratch) :
    SameOutside 0 Tokenizer.scratchBytes s.scratch t.scratch := by
  have rendered := stageRendered_sameOutside short s.scratch
  rw [← staged_scratch] at rendered
  have below : stagedRendered ≤ Tokenizer.scratchBytes := by decide
  exact (rendered.mono (Nat.zero_le _) (Nat.le_refl _)).trans (h.mono (Nat.zero_le _) below)

/-- If the tokens fit, `compute_prompt` stages the template and all tokens. -/
lemma computePrompt_of_fits (short : user.length ≤ maxSegment)
    (fits : (index.promptTokens user).length ≤ Tokenizer.maxTokens) (s : Staging) :
    ∃ c t, index.computePrompt user s = (.ok c, t) ∧
      c.renderedBytes = (chatTemplate user).length ∧ c.tokenCount = t.count ∧
      t.tokens = index.promptTokens user ∧
      bytes t.scratch stagedRendered c.renderedBytes = chatTemplate user ∧
      SameOutside 0 Tokenizer.scratchBytes s.scratch t.scratch := by
  obtain ⟨prefixTokens, userTokens, eq⟩ := computePrompt_eq index user s
  obtain ⟨t, run, tokens, -, frame⟩ :=
    (index.appends_promptBody short).fits (staged user s) (by rwa [staged_count, Nat.zero_add])
  rw [run] at eq
  rw [staged_tokens, List.nil_append] at tokens
  exact ⟨⟨renderedCount user, t.count, prefixTokens, userTokens⟩, t, eq,
    (length_chatTemplate user).symm, rfl, tokens, stagedRendered_kept frame,
    staged_sameOutside short frame⟩

/-- If they do not, it is an error. -/
lemma computePrompt_of_full (short : user.length ≤ maxSegment)
    (full : Tokenizer.maxTokens < (index.promptTokens user).length) (s : Staging) :
    ∃ e t, index.computePrompt user s = (.error e, t) ∧
      SameOutside 0 Tokenizer.scratchBytes s.scratch t.scratch := by
  obtain ⟨prefixTokens, userTokens, eq⟩ := computePrompt_eq index user s
  obtain ⟨e, t, run, frame⟩ :=
    (index.appends_promptBody short).full (staged user s) (by rwa [staged_count, Nat.zero_add])
  rw [run] at eq
  exact ⟨e, t, eq, staged_sameOutside short frame⟩

/-- The user's text adds at most a token for each byte. -/
lemma length_promptTokens_le (index : MergeIndex) (user : List UInt8) :
    (index.promptTokens user).length ≤ index.templateTokens.length + user.length := by
  have bound := (pieces_bounds index user).1
  rw [promptTokens, promptCalls, templateTokens, List.flatMap_append, List.flatMap_append,
    List.flatMap_cons, PromptCall.tokens, PromptCall.pieces]
  simp only [List.length_append]
  omega

/-- What is written to the three areas of the scratch memory stays in the area it is meant for: the
rendered bytes, the tokens of each fragment while they are merged, and those that are appended. -/
structure WritesInside (index : MergeIndex) (user : List UInt8) : Prop where
  rendered : ∀ scratch,
    SameOutside stagedRendered Tokenizer.scratchBytes scratch (stageRendered user scratch)
  segment : ∀ fragment, Piece.fragment fragment ∈ (promptCalls user).flatMap PromptCall.pieces →
    ∀ scratch, SameOutside currentSegment stagedRendered scratch
      (index.mergeLoop (index.loadSegment scratch fragment) fragment.length).1
  appended : ∀ (s : Staging) scratch count, s.count + count ≤ Tokenizer.maxTokens →
    SameOutside stagedTokens currentSegment scratch
      (copyWords scratch currentSegment (stagedTokens + s.count * 4) count)
  marker : ∀ token (s : Staging),
    SameOutside stagedTokens currentSegment s.scratch (control token s).2.scratch

/-- A fragment of a short text is short. -/
lemma fragment_short (short : user.length ≤ maxSegment) {fragment : List UInt8}
    (mem : Piece.fragment fragment ∈ (promptCalls user).flatMap PromptCall.pieces) :
    fragment.length ≤ maxSegment := by
  obtain ⟨call, memCall, mem⟩ := List.mem_flatMap.mp mem
  cases call with
  | control token => simp [PromptCall.pieces] at mem
  | ordinary text =>
    have le := (pieces_bounds ⟨fun _ => 0, fun _ _ => none⟩ text).2 fragment mem
    rcases List.mem_append.mp memCall with front | back
    · exact Nat.le_trans le (length_of_template (List.mem_append_left _ front))
    · rcases List.mem_cons.mp back with eq | back
      · cases eq
        exact Nat.le_trans le short
      · exact Nat.le_trans le (length_of_template (List.mem_append_right _ back))

/-- A computation writes inside its areas. -/
lemma writesInside (index : MergeIndex) (short : user.length ≤ maxSegment) :
    WritesInside index user where
  rendered := stageRendered_sameOutside short
  segment _ mem scratch :=
    mergeSegment_sameOutside index scratch (fragment_short short mem)
  appended _ scratch _ := append_sameOutside scratch
  marker := Appends.control_sameOutside

end MergeIndex

open MergeIndex

/-- With a template of at most 87 tokens the computation never stops with an error: a user text of at
most 512 bytes adds no more than 512 tokens. No fragment is too long for its area, none yields
more tokens than bytes, and nothing is written outside the area it belongs to. -/
theorem computePrompt_fits (index : MergeIndex) (user : List UInt8)
    (short : user.length ≤ maxSegment) (template : index.templateTokens.length ≤ 87) (s : Staging) :
    (∃ c t, index.computePrompt user s = (.ok c, t) ∧ c.tokenCount ≤ Tokenizer.maxTokens ∧
      c.tokenCount = t.tokens.length ∧ t.tokens = index.promptTokens user ∧
      bytes t.scratch stagedRendered c.renderedBytes = chatTemplate user) ∧
      (∀ fragment, Piece.fragment fragment ∈ (promptCalls user).flatMap PromptCall.pieces →
        fragment.length ≤ maxSegment ∧ (index.encode fragment).length ≤ fragment.length) ∧
      WritesInside index user := by
  have total := length_promptTokens_le index user
  have fits : (index.promptTokens user).length ≤ Tokenizer.maxTokens := by
    simp only [maxSegment, Tokenizer.maxTokens] at *
    omega
  obtain ⟨c, t, run, -, count, tokens, rendered, -⟩ := computePrompt_of_fits short fits s
  refine ⟨⟨c, t, run, count ▸ t.count_le, ?_, tokens, rendered⟩, fun fragment mem => ?_,
    writesInside index short⟩
  · rw [count, Staging.tokens, length_words]
  · exact ⟨fragment_short short mem, index.length_encode_le fragment⟩

/-- Every pair has a rule, so that a fragment becomes one token. -/
def mergeAll : MergeIndex := ⟨fun _ => 0, fun _ _ => some (0, 0)⟩

/-- In the example every pair merges. -/
lemma mergeAll_bestPair (scratch : Nat → UInt8) {count : Nat} (h : 2 ≤ count) :
    (mergeAll.bestPair scratch count).rank = 0 := by
  have fold (n : Nat) :
      ((List.range (n + 1)).foldl (mergeAll.considerPair scratch) Best.none).rank = 0 := by
    induction n with
    | zero => rfl
    | succ n ih =>
      rw [List.range_succ, List.foldl_append, List.foldl_cons, List.foldl_nil]
      show (if (0 : UInt32) < _ then (⟨0, _, 0⟩ : Best) else _).rank = 0
      split
      · rfl
      · exact ih
  obtain ⟨n, rfl⟩ := Nat.exists_eq_add_of_le h
  rw [bestPair, if_pos h, show 2 + n - 1 = n + 1 by omega]
  exact fold n

/-- In the example a fragment is at most one token. -/
lemma mergeAll_encode (text : List UInt8) : (mergeAll.encode text).length ≤ 1 := by
  have loop (scratch : Nat → UInt8) (count : Nat) : (mergeAll.mergeLoop scratch count).2 ≤ 1 := by
    induction scratch, count using mergeLoop.induct mergeAll with
    | case1 scratch count done =>
      rw [mergeLoop_done done]
      by_contra long
      rw [mergeAll_bestPair scratch (Nat.not_le.mp long)] at done
      exact absurd done (by decide)
    | case2 scratch count more ih => rwa [mergeLoop_more more]
  rw [← (words_mergeLoop mergeAll (fun _ => 0) text).1]
  exact loop _ _

/-- In the example a piece is at most one token. -/
lemma mergeAll_tokens (ps : List Piece) :
    (ps.flatMap (Piece.tokens mergeAll)).length ≤ ps.length := by
  induction ps with
  | nil => exact Nat.le_refl 0
  | cons piece ps ih =>
    have one : (piece.tokens mergeAll).length ≤ 1 := by
      cases piece with
      | marker token => exact Nat.le_refl 1
      | fragment text => exact mergeAll_encode text
    rw [List.flatMap_cons, List.length_append, List.length_cons]
    omega

/-- Without a user-defined token the pieces of a text are its fragments. -/
lemma pieces_of_plain {text : List UInt8} (h : (nextUserDefined text).token = 0) :
    pieces text = (Regex.scan qwen2 text).map Piece.fragment := by
  rw [pieces, (nextUserDefined_bounds text).1 h, List.take_length]
  simp [h]

/-- In the example the template is short. -/
lemma mergeAll_template : mergeAll.templateTokens.length ≤ 87 := by
  have count (text : List UInt8) (h : (nextUserDefined text).token = 0) :
      (pieces text).length = (Regex.scan qwen2 text).length := by
    rw [pieces_of_plain h, List.length_map]
  have total : ((callsBefore ++ callsAfter).flatMap PromptCall.pieces).length ≤ 87 := by
    simp only [callsBefore, callsAfter, List.cons_append, List.nil_append, List.flatMap_cons,
      List.flatMap_nil, PromptCall.pieces, List.length_append, List.length_cons, List.length_nil]
    rw [count (byteString "system") (by decide +kernel), count (byteString "\n") (by decide +kernel),
      count (byteString "user") (by decide +kernel),
      count (byteString "assistant") (by decide +kernel),
      count (byteString "You are Qwen, created by Alibaba Cloud. You are a helpful assistant.")
        (by decide +kernel)]
    decide +kernel
  have tokens : mergeAll.templateTokens =
      ((callsBefore ++ callsAfter).flatMap PromptCall.pieces).flatMap (Piece.tokens mergeAll) :=
    List.flatMap_assoc.symm
  rw [tokens]
  exact (mergeAll_tokens _).trans total

/-- Three letters and the merges of the example. -/
theorem computePrompt_fits_mergeAll :
    ∃ c t, mergeAll.computePrompt (byteString "Hi!") ⟨fun _ => 0, 0, Nat.zero_le _⟩ = (.ok c, t) ∧
      c.tokenCount ≤ Tokenizer.maxTokens :=
  have ⟨c, t, run, le, _⟩ := (computePrompt_fits mergeAll (byteString "Hi!") (by decide)
    mergeAll_template ⟨fun _ => 0, 0, Nat.zero_le _⟩).1
  ⟨c, t, run, le⟩

end Promptboot
