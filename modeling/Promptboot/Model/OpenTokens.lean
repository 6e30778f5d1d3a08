import Promptboot.Model.OpenChecks

/-!
# The tokenizer of an opened container

No check of the tokens, of the merges or of the template panics once the length of the container is
right. Where they pass, the token texts fill their section and every merge puts two texts together.

The invariant of the token loop is `ScanAt`, the offset at which the next text begins;
`tokenLoop_facts` is its induction and `Tokens.tiled` what follows for the section.
`mergeLoop_facts` is the same for the merges, with `MergeFits` for a merge. The headline
`validateTokenizer_facts` is what the accessors rest on.
-/

namespace Promptboot.Opening
open Buffer

section Tokens
variable {bytes : Buffer}

/-- Where the table of the token offsets says that a text begins. -/
def textOffset (bytes : Buffer) (id : Nat) : Nat := (Memory.u32At bytes.byte (704 + id * 4)).toNat

/-- The place of a token's text. -/
def tokenExtent (bytes : Buffer) (id : Nat) : Extent :=
  (608512 + textOffset bytes id, textOffset bytes (id + 1) - textOffset bytes id)

/-- The text of a token. -/
def tokenText (bytes : Buffer) (id : Nat) : List UInt8 :=
  bytes.slice (tokenExtent bytes id).1 (tokenExtent bytes id).2

/-- The text of a token lies in the section of the texts. -/
def TokenInside (bytes : Buffer) (id : Nat) : Prop :=
  textOffset bytes id < textOffset bytes (id + 1) ∧ textOffset bytes (id + 1) ≤ 1372758

/-- What the loop over the tokens carries to a turn. -/
structure ScanAt (bytes : Buffer) (id : Nat) (scan : TokenScan) : Prop where
  prior : scan.prior = textOffset bytes id
  counts : ∀ k : Fin 4, scan.counts[k] ≤ id

/-- The check of a text does not panic. -/
lemma noPanic_checkUtf8 {text : List UInt8} {error : Nat → UInt8 → ModelError}
    (nonempty : 0 < text.length) : NoPanic (checkUtf8 text error) := by
  have found : validUpTo text < text.length := by
    rw [validUpTo]
    rcases last : (List.range text.length).filter fun n => isUtf8 (text.take n) with _ | ⟨n, rest⟩
    · exact nonempty
    · have mem : (n :: rest).getLastD 0 ∈ (List.range text.length).filter
          fun n => isUtf8 (text.take n) := by
        rw [last, List.getLastD_cons]
        exact List.getLastD_mem_cons
      exact List.mem_range.1 (List.mem_of_mem_filter mem)
  rw [checkUtf8, if_pos found]
  split
  · exact NoPanic.pure
  · exact NoPanic.reject

/-- The bytes that a turn of the loop over the tokens reads. -/
lemma checkToken_reads {id : Nat} (length : bytes.length = modelBytes) (small : id < vocabCount) :
    704 + (id + 1) * 4 + 4 ≤ bytes.length ∧ 1981312 + id < bytes.length := by
  unfold modelBytes at length
  unfold vocabCount at small
  omega

/-- The checks of a token do not panic. -/
lemma noPanic_checkToken {id : Nat} {scan : TokenScan} (length : bytes.length = modelBytes)
    (small : id < vocabCount) (h : ScanAt bytes id scan) :
    NoPanic (checkToken bytes frozenSections id scan) := by
  obtain ⟨table, types⟩ := checkToken_reads length small
  refine NoPanic.bind (.of_ok (u32In_ok table)) fun current _ => ?_
  refine NoPanic.check_bind fun above => NoPanic.check_bind fun below => ?_
  have above := of_decide_eq_true above
  have below := of_decide_eq_true below
  have inside : 608512 + current.toNat ≤ bytes.length := by
    unfold modelBytes at length
    omega
  have text : sliceIn bytes (608512 + scan.prior) (608512 + current.toNat) = _ :=
    sliceIn_ok (by omega) inside
  refine NoPanic.bind (.of_ok text) fun token got => ?_
  obtain rfl := Except.ok.inj (text.symm.trans got)
  refine NoPanic.bind (noPanic_checkUtf8 (by rw [length_slice]; omega)) fun _ _ => ?_
  refine NoPanic.bind (.of_ok (byteIn_ok types)) fun tokenType _ => ?_
  split
  · exact NoPanic.reject
  · have count := h.counts ‹_›
    unfold vocabCount at small
    exact NoPanic.bind (.of_ok (plus_ok (by omega))) fun _ _ => NoPanic.pure

/-- A token that passes lies in the section, and the next turn carries its end. -/
lemma checkToken_facts {id : Nat} {scan next : TokenScan} (length : bytes.length = modelBytes)
    (small : id < vocabCount) (h : ScanAt bytes id scan)
    (run : checkToken bytes frozenSections id scan = .ok next) :
    TokenInside bytes id ∧ ScanAt bytes (id + 1) next := by
  obtain ⟨table, types⟩ := checkToken_reads length small
  have read : u32In bytes (704 + (id + 1) * 4) = _ := u32In_ok table
  obtain ⟨current, got, run⟩ := bind_eq_ok run
  obtain rfl : _ = current := Except.ok.inj (read.symm.trans got)
  obtain ⟨above, run⟩ := check_bind_eq_ok run
  obtain ⟨below, run⟩ := check_bind_eq_ok run
  obtain ⟨token, _, run⟩ := bind_eq_ok run
  obtain ⟨_, _, run⟩ := bind_eq_ok run
  obtain ⟨tokenType, _, run⟩ := bind_eq_ok run
  have above := of_decide_eq_true above
  have below := of_decide_eq_true below
  rw [h.prior] at above
  split at run
  · cases run
  · rename_i index _
    obtain ⟨count, sum, run⟩ := bind_eq_ok run
    cases run
    refine ⟨⟨above, below⟩, rfl, fun k => ?_⟩
    have old := h.counts k
    have there := h.counts index
    have count_le : count ≤ id + 1 := by
      rw [plus] at sum
      split at sum
      · cases sum
        omega
      · cases sum
    by_cases here : index = k
    · subst here
      have set : (scan.counts.set index count)[index] = count := Vector.getElem_set_self _
      exact Nat.le_trans (Nat.le_of_eq set) count_le
    · have apart : (index : Nat) ≠ k := fun e => here (Fin.ext e)
      have kept : (scan.counts.set index count)[k] = scan.counts[k] :=
        Vector.getElem_set_ne index.isLt k.isLt apart
      exact Nat.le_trans (Nat.le_of_eq kept) (Nat.le_succ_of_le old)

/-- The loop over the tokens does not panic. -/
lemma noPanic_tokenLoop {left id : Nat} {scan : TokenScan} (length : bytes.length = modelBytes)
    (total : id + left = vocabCount) (h : ScanAt bytes id scan) :
    NoPanic (tokenLoop bytes frozenSections left id scan) := by
  induction left generalizing id scan with
  | zero => exact NoPanic.pure
  | succ left ih =>
    refine NoPanic.bind (noPanic_checkToken length (by omega) h) fun next run => ?_
    exact ih (by omega) (checkToken_facts length (by omega) h run).2

/-- All tokens behind a turn lie in the section, and the last ends where the loop says. -/
lemma tokenLoop_facts {left id : Nat} {scan last : TokenScan} (length : bytes.length = modelBytes)
    (total : id + left = vocabCount) (h : ScanAt bytes id scan)
    (run : tokenLoop bytes frozenSections left id scan = .ok last) :
    (∀ i, id ≤ i → i < vocabCount → TokenInside bytes i) ∧ ScanAt bytes vocabCount last := by
  induction left generalizing id scan with
  | zero =>
    cases run
    rw [← total]
    exact ⟨fun i above below => absurd below (by omega), h⟩
  | succ left ih =>
    obtain ⟨next, first, run⟩ := bind_eq_ok run
    obtain ⟨inside, there⟩ := checkToken_facts length (by omega) h first
    obtain ⟨rest, final⟩ := ih (by omega) there run
    refine ⟨fun i above below => ?_, final⟩
    rcases Nat.eq_or_lt_of_le above with rfl | later
    · exact inside
    · exact rest i later below

/-- The token texts that passed. -/
structure Tokens (bytes : Buffer) : Prop where
  inside : ∀ id < vocabCount, TokenInside bytes id
  first : textOffset bytes 0 = 0
  last : textOffset bytes vocabCount = 1372758

/-- Before the first token nothing is counted. -/
lemma scanAt_zero (first : textOffset bytes 0 = 0) :
    ScanAt bytes 0 ⟨0, #v[0, 0, 0, 0], [], []⟩ := by
  exact ⟨first.symm, counts_zero⟩

/-- An error that was found is no panic. -/
lemma noPanic_rejectSome {error : Option ModelError} : NoPanic (rejectSome error) := by
  cases error with
  | some error => exact NoPanic.reject
  | none => exact NoPanic.pure

/-- The first offset is the word that was read. -/
lemma textOffset_zero {first : UInt32} (length : bytes.length = modelBytes)
    (got : u32In bytes 704 = .ok first) (zero : first = 0) : textOffset bytes 0 = 0 := by
  have read : u32In bytes 704 = _ := u32In_ok (by rw [length]; decide)
  rw [textOffset, Nat.zero_mul, Nat.add_zero, Except.ok.inj (read.symm.trans got), zero]
  rfl

variable {sha : List UInt8 → Vector UInt8 32}

/-- The checks of the tokens do not panic. -/
lemma noPanic_validateTokens (length : bytes.length = modelBytes) :
    NoPanic (validateTokens sha bytes frozenSections) := by
  have read : u32In bytes 704 = _ := u32In_ok (by rw [length]; decide)
  refine NoPanic.bind (.of_ok read) fun first got => NoPanic.check_bind fun zero => ?_
  have start := textOffset_zero length got (of_decide_eq_true zero)
  refine NoPanic.bind (noPanic_tokenLoop length rfl (scanAt_zero start)) fun scan _ => ?_
  refine NoPanic.check_bind fun _ => ?_
  refine NoPanic.bind (NoPanic.forM fun _ _ => NoPanic.check) fun _ _ => ?_
  exact NoPanic.bind noPanic_rejectSome fun _ _ => noPanic_rejectSome

/-- Behind these checks the texts are in order and end where they should. -/
lemma validateTokens_facts {u : Unit} (length : bytes.length = modelBytes)
    (h : validateTokens sha bytes frozenSections = .ok u) : Tokens bytes := by
  obtain ⟨first, got, h⟩ := bind_eq_ok h
  obtain ⟨zero, h⟩ := check_bind_eq_ok h
  obtain ⟨scan, loop, h⟩ := bind_eq_ok h
  obtain ⟨stop, h⟩ := check_bind_eq_ok h
  have start := textOffset_zero length got (of_decide_eq_true zero)
  obtain ⟨inside, final⟩ := tokenLoop_facts length rfl (scanAt_zero start) loop
  refine ⟨fun id small => inside id (Nat.zero_le _) small, start, ?_⟩
  rw [← final.prior]
  exact of_decide_eq_true stop

/-- The places of the texts fill the section of the texts. -/
lemma Tokens.tiled_from (h : Tokens bytes) {id left : Nat} (total : id + left = vocabCount) :
    Tiled (608512 + textOffset bytes id) ((List.range' id left).map (tokenExtent bytes))
      1981270 := by
  induction left generalizing id with
  | zero =>
    obtain rfl : id = vocabCount := total
    rw [h.last]
    exact .nil
  | succ left ih =>
    have order := (h.inside id (by omega)).1
    refine Tiled.cons (e := tokenExtent bytes id) ?_
    have next : (tokenExtent bytes id).1 + (tokenExtent bytes id).2 =
        608512 + textOffset bytes (id + 1) := by
      simp only [tokenExtent]
      omega
    rw [next]
    exact ih (by omega)

/-- The texts tile the section of the texts. -/
lemma Tokens.tiled (h : Tokens bytes) :
    Tiled 608512 ((List.range vocabCount).map (tokenExtent bytes)) 1981270 := by
  have whole := h.tiled_from (Nat.zero_add vocabCount)
  rwa [h.first, Nat.add_zero, ← List.range_eq_range'] at whole

end Tokens

section Merges
variable {bytes : Buffer}

/-- The search for an earlier merge does not panic. -/
lemma noPanic_priorDuplicateMerge {mergeBase turns firstRank : Nat} {left right : UInt32}
    (inside : mergeBase + (firstRank + turns) * 12 ≤ bytes.length) :
    NoPanic (priorDuplicateMerge bytes mergeBase left right turns firstRank) := by
  induction turns generalizing firstRank with
  | zero => exact NoPanic.pure
  | succ turns ih =>
    refine NoPanic.bind (.of_ok (u32In_ok (by omega))) fun _ _ => ?_
    refine NoPanic.bind (.of_ok (u32In_ok (by omega))) fun _ _ => ?_
    split
    · exact NoPanic.pure
    · exact ih (by omega)

/-- The rejection of a merge does not panic. -/
lemma noPanic_rejectMerge {α : Type} {mergeBase rank : Nat} {left right : UInt32}
    {error : ModelError} (inside : mergeBase + rank * 12 ≤ bytes.length) :
    NoPanic (rejectMerge bytes mergeBase rank left right error : Opening α) := by
  refine NoPanic.bind (noPanic_priorDuplicateMerge (by omega)) fun first _ => ?_
  split <;> exact NoPanic.reject

/-- A merge that does not fit is never accepted. -/
lemma rejectMerge_ne_ok {α : Type} {mergeBase rank : Nat} {left right : UInt32}
    {error : ModelError} {a : α} :
    (rejectMerge bytes mergeBase rank left right error : Opening α) ≠ .ok a := by
  intro h
  obtain ⟨first, _, h⟩ := bind_eq_ok h
  split at h <;> cases h

/-- Comparing a half with its part of the result does not panic. -/
lemma noPanic_concatLoop {mergeBase rank resultBase concat : Nat} {left right : UInt32}
    {halves : List UInt8} (table : mergeBase + rank * 12 ≤ bytes.length)
    (inside : resultBase + concat + halves.length ≤ bytes.length) :
    NoPanic (concatLoop bytes mergeBase rank left right resultBase concat halves) := by
  induction halves generalizing concat with
  | nil => exact NoPanic.pure
  | cons byte halves ih =>
    rw [List.length_cons] at inside
    refine NoPanic.bind (.of_ok (byteIn_ok (by omega))) fun actual _ => ?_
    split
    · exact noPanic_rejectMerge table
    · exact ih (by omega)

/-- Where the loop passes, the halves lie there one after the other. -/
lemma concatLoop_facts {mergeBase rank resultBase concat : Nat} {left right : UInt32}
    {halves : List UInt8} {u : Unit}
    (h : concatLoop bytes mergeBase rank left right resultBase concat halves = .ok u) :
    bytes.slice (resultBase + concat) halves.length = halves := by
  induction halves generalizing concat with
  | nil => rfl
  | cons byte halves ih =>
    obtain ⟨actual, got, h⟩ := bind_eq_ok h
    split at h
    · exact absurd h rejectMerge_ne_ok
    · rename_i same
      rw [byteIn] at got
      split at got
      · cases got
        rw [List.length_cons, slice_succ, not_not.1 same, Nat.add_assoc, ih h]
      · cases got

/-- The bytes of the table of offsets that a token's place is read from. -/
lemma tokenRange_ok {id : Nat} (length : bytes.length = modelBytes) (small : id < vocabCount) :
    tokenRange bytes 704 id = .ok (textOffset bytes id, textOffset bytes (id + 1)) := by
  unfold modelBytes at length
  unfold vocabCount at small
  rw [tokenRange, bind_ok (u32In_ok (by omega)), bind_ok (u32In_ok (by omega))]
  rfl

/-- A token's text is within the container. -/
lemma Tokens.text_ok (h : Tokens bytes) (length : bytes.length = modelBytes) {id : Nat}
    (small : id < vocabCount) :
    sliceIn bytes (608512 + textOffset bytes id) (608512 + textOffset bytes (id + 1)) =
      .ok (tokenText bytes id) := by
  obtain ⟨order, stop⟩ := h.inside id small
  unfold modelBytes at length
  have size : 608512 + textOffset bytes (id + 1) - (608512 + textOffset bytes id) =
      textOffset bytes (id + 1) - textOffset bytes id := by omega
  rw [sliceIn_ok (by omega) (by omega), size]
  rfl

/-- The comparison of a merge's texts does not panic. -/
lemma noPanic_checkMergeText (h : Tokens bytes) (length : bytes.length = modelBytes) {rank : Nat}
    {left right result : UInt32} (rank_small : rank < mergeCount)
    (left_small : left.toNat < vocabCount) (right_small : right.toNat < vocabCount)
    (result_small : result.toNat < vocabCount) :
    NoPanic (checkMergeText bytes 2133248 608512 rank left right
      (textOffset bytes left.toNat, textOffset bytes (left.toNat + 1))
      (textOffset bytes right.toNat, textOffset bytes (right.toNat + 1))
      (textOffset bytes result.toNat, textOffset bytes (result.toNat + 1))) := by
  obtain ⟨left_order, left_stop⟩ := h.inside _ left_small
  obtain ⟨right_order, right_stop⟩ := h.inside _ right_small
  obtain ⟨result_order, result_stop⟩ := h.inside _ result_small
  have table : 2133248 + rank * 12 ≤ bytes.length := by
    unfold modelBytes at length
    unfold mergeCount at rank_small
    omega
  rw [checkMergeText, bind_ok (minus_ok (by simp only; omega)),
    bind_ok (plus_ok (by simp only; omega)), bind_ok (minus_ok (by simp only; omega)),
    bind_ok (minus_ok (by simp only; omega))]
  split
  · exact noPanic_rejectMerge table
  · rename_i same
    have left_text := h.text_ok length left_small
    have right_text := h.text_ok length right_small
    simp only at same ⊢
    rw [bind_ok left_text, bind_ok right_text]
    refine NoPanic.bind (noPanic_concatLoop table ?_) fun _ _ => NoPanic.pure
    simp only [List.length_append, tokenText, length_slice, tokenExtent]
    unfold modelBytes at length
    omega

/-- The result's text is the text of the left half and then that of the right. -/
lemma checkMergeText_facts (h : Tokens bytes) (length : bytes.length = modelBytes) {rank : Nat}
    {left right result : UInt32} {hashed : List UInt8}
    (left_small : left.toNat < vocabCount) (right_small : right.toNat < vocabCount)
    (result_small : result.toNat < vocabCount)
    (run : checkMergeText bytes 2133248 608512 rank left right
      (textOffset bytes left.toNat, textOffset bytes (left.toNat + 1))
      (textOffset bytes right.toNat, textOffset bytes (right.toNat + 1))
      (textOffset bytes result.toNat, textOffset bytes (result.toNat + 1)) = .ok hashed) :
    tokenText bytes result.toNat = tokenText bytes left.toNat ++ tokenText bytes right.toNat := by
  obtain ⟨left_order, left_stop⟩ := h.inside _ left_small
  obtain ⟨right_order, right_stop⟩ := h.inside _ right_small
  obtain ⟨result_order, result_stop⟩ := h.inside _ result_small
  rw [checkMergeText, bind_ok (minus_ok (by simp only; omega)),
    bind_ok (plus_ok (by simp only; omega)), bind_ok (minus_ok (by simp only; omega)),
    bind_ok (minus_ok (by simp only; omega))] at run
  split at run
  · exact absurd run rejectMerge_ne_ok
  · rename_i same
    have left_text := h.text_ok length left_small
    have right_text := h.text_ok length right_small
    simp only at same run
    rw [bind_ok left_text, bind_ok right_text] at run
    obtain ⟨_, loop, _⟩ := bind_eq_ok run
    have joined := concatLoop_facts loop
    have size : (tokenText bytes left.toNat ++ tokenText bytes right.toNat).length =
        (tokenExtent bytes result.toNat).2 := by
      simp only [List.length_append, tokenText, length_slice, tokenExtent]
      omega
    rw [size, Nat.add_zero] at joined
    exact joined

/-- The merge that the table holds at a rank. -/
def mergeAt (bytes : Buffer) (rank : Nat) : Merge :=
  ⟨Memory.u32At bytes.byte (2133248 + rank * 12), Memory.u32At bytes.byte (2133248 + rank * 12 + 4),
    Memory.u32At bytes.byte (2133248 + rank * 12 + 8), rank⟩

/-- A merge of two tokens whose text is the two texts. -/
def MergeFits (bytes : Buffer) (merge : Merge) : Prop :=
  merge.left.toNat < vocabCount ∧ merge.right.toNat < vocabCount ∧
    merge.result.toNat < vocabCount ∧
    tokenText bytes merge.result.toNat =
      tokenText bytes merge.left.toNat ++ tokenText bytes merge.right.toNat

/-- Behind the checks of a merge its ids are in the vocabulary. -/
lemma checkMergeIds_facts {rank offset : Nat} {left right result : UInt32} {u : Unit}
    (h : checkMergeIds rank offset left right result = .ok u) :
    left.toNat < vocabCount ∧ right.toNat < vocabCount ∧ result.toNat < vocabCount := by
  have all := forM_eq_ok h
  refine ⟨?_, ?_, ?_⟩
  · exact of_decide_eq_true (check_eq_ok (all (left, .mergeLeft, offset) (by simp)))
  · exact of_decide_eq_true (check_eq_ok (all (right, .mergeRight, offset + 4) (by simp)))
  · exact of_decide_eq_true (check_eq_ok (all (result, .mergeResult, offset + 8) (by simp)))

/-- The bytes of the table that a merge is read from. -/
lemma merge_reads {rank : Nat} (length : bytes.length = modelBytes) (small : rank < mergeCount) :
    2133248 + rank * 12 + 12 ≤ bytes.length := by
  unfold modelBytes at length
  unfold mergeCount at small
  omega

/-- The checks of a merge do not panic. -/
lemma noPanic_checkMerge (h : Tokens bytes) (length : bytes.length = modelBytes) {rank : Nat}
    (small : rank < mergeCount) : NoPanic (checkMerge bytes frozenSections rank) := by
  have inside := merge_reads length small
  have read_left : u32In bytes (2133248 + rank * 12) = _ := u32In_ok (by omega)
  have read_right : u32In bytes (2133248 + rank * 12 + 4) = _ := u32In_ok (by omega)
  have read_result : u32In bytes (2133248 + rank * 12 + 8) = _ := u32In_ok (by omega)
  refine NoPanic.bind (.of_ok read_left) fun left _ => ?_
  refine NoPanic.bind (.of_ok read_right) fun right _ => ?_
  refine NoPanic.bind (.of_ok read_result) fun result _ => ?_
  refine NoPanic.bind (NoPanic.forM fun _ _ => NoPanic.check) fun _ ids => ?_
  obtain ⟨left_small, right_small, result_small⟩ := checkMergeIds_facts ids
  refine NoPanic.check_bind fun _ => ?_
  have left_range := tokenRange_ok length left_small
  have right_range := tokenRange_ok length right_small
  have result_range := tokenRange_ok length result_small
  refine NoPanic.bind (.of_ok left_range) fun _ got => ?_
  obtain rfl := Except.ok.inj (left_range.symm.trans got)
  refine NoPanic.bind (.of_ok right_range) fun _ got => ?_
  obtain rfl := Except.ok.inj (right_range.symm.trans got)
  refine NoPanic.bind (.of_ok result_range) fun _ got => ?_
  obtain rfl := Except.ok.inj (result_range.symm.trans got)
  exact noPanic_checkMergeText h length small left_small right_small result_small

/-- Behind these checks the result of a merge is its halves joined. -/
lemma checkMerge_facts (h : Tokens bytes) (length : bytes.length = modelBytes) {rank : Nat}
    {hashed : List UInt8} (small : rank < mergeCount)
    (run : checkMerge bytes frozenSections rank = .ok hashed) :
    MergeFits bytes (mergeAt bytes rank) := by
  have inside := merge_reads length small
  obtain ⟨left, got_left, run⟩ := bind_eq_ok run
  obtain ⟨right, got_right, run⟩ := bind_eq_ok run
  obtain ⟨result, got_result, run⟩ := bind_eq_ok run
  have read_left : u32In bytes (2133248 + rank * 12) = .ok (mergeAt bytes rank).left :=
    u32In_ok (by omega)
  have read_right : u32In bytes (2133248 + rank * 12 + 4) = .ok (mergeAt bytes rank).right :=
    u32In_ok (by omega)
  have read_result : u32In bytes (2133248 + rank * 12 + 8) = .ok (mergeAt bytes rank).result :=
    u32In_ok (by omega)
  obtain rfl := Except.ok.inj (read_left.symm.trans got_left)
  obtain rfl := Except.ok.inj (read_right.symm.trans got_right)
  obtain rfl := Except.ok.inj (read_result.symm.trans got_result)
  obtain ⟨_, ids, run⟩ := bind_eq_ok run
  obtain ⟨left_small, right_small, result_small⟩ := checkMergeIds_facts ids
  obtain ⟨_, run⟩ := check_bind_eq_ok run
  obtain ⟨left_range, got, run⟩ := bind_eq_ok run
  obtain rfl := Except.ok.inj ((tokenRange_ok length left_small).symm.trans got)
  obtain ⟨right_range, got, run⟩ := bind_eq_ok run
  obtain rfl := Except.ok.inj ((tokenRange_ok length right_small).symm.trans got)
  obtain ⟨result_range, got, run⟩ := bind_eq_ok run
  obtain rfl := Except.ok.inj ((tokenRange_ok length result_small).symm.trans got)
  exact ⟨left_small, right_small, result_small,
    checkMergeText_facts h length left_small right_small result_small run⟩

/-- The loop over the merges does not panic. -/
lemma noPanic_mergeLoop (h : Tokens bytes) (length : bytes.length = modelBytes) {left rank : Nat}
    {canonical : List UInt8} (total : rank + left = mergeCount) :
    NoPanic (mergeLoop bytes frozenSections left rank canonical) := by
  induction left generalizing rank canonical with
  | zero => exact NoPanic.pure
  | succ left ih =>
    exact NoPanic.bind (noPanic_checkMerge h length (by omega)) fun _ _ => ih (by omega)

/-- Behind the loop the result of every merge is its halves joined. -/
lemma mergeLoop_facts (h : Tokens bytes) (length : bytes.length = modelBytes) {left rank : Nat}
    {canonical final : List UInt8} (total : rank + left = mergeCount)
    (run : mergeLoop bytes frozenSections left rank canonical = .ok final) :
    ∀ r, rank ≤ r → r < mergeCount → MergeFits bytes (mergeAt bytes r) := by
  induction left generalizing rank canonical with
  | zero => exact fun r above below => absurd below (by omega)
  | succ left ih =>
    obtain ⟨hashed, first, run⟩ := bind_eq_ok run
    intro r above below
    rcases Nat.eq_or_lt_of_le above with rfl | later
    · exact checkMerge_facts h length (by omega) first
    · exact ih (by omega) run r later below

/-- The search for duplicates does not panic. -/
lemma noPanic_duplicateScan (length : bytes.length = modelBytes) {error : ModelError}
    {turns rank : Nat} (total : rank + turns = mergeCount) :
    NoPanic (duplicateScan bytes 2133248 error turns rank) := by
  induction turns generalizing rank with
  | zero => exact NoPanic.reject
  | succ turns ih =>
    have inside : 2133248 + rank * 12 + 12 ≤ bytes.length := merge_reads length (by omega)
    refine NoPanic.bind (.of_ok (u32In_ok (by omega))) fun _ _ => ?_
    refine NoPanic.bind (.of_ok (u32In_ok (by omega))) fun _ _ => ?_
    refine NoPanic.bind (noPanic_priorDuplicateMerge (by omega)) fun _ _ => ?_
    split
    · exact NoPanic.reject
    · exact ih (by omega)

variable {sha : List UInt8 → Vector UInt8 32}

/-- The checks of the merges do not panic. -/
lemma noPanic_validateMerges (h : Tokens bytes) (length : bytes.length = modelBytes) :
    NoPanic (validateMerges sha bytes frozenSections) := by
  refine NoPanic.bind (noPanic_mergeLoop h length rfl) fun _ _ => ?_
  split
  · exact noPanic_duplicateScan length rfl
  · exact NoPanic.pure

/-- The checks of the template do not panic. -/
lemma noPanic_validateTemplate (length : bytes.length = modelBytes) :
    NoPanic (validateTemplate bytes frozenSections) := by
  have stop : plus 3949952 2509 = .ok 3952461 := plus_ok (by decide)
  have text : sliceIn bytes 3949952 3952461 = .ok (bytes.slice 3949952 2509) :=
    sliceIn_ok (by decide) (by rw [length]; decide)
  have size : (bytes.slice 3949952 2509).length = 2509 := length_slice _ _ _
  refine NoPanic.bind (.of_ok stop) fun _ got => ?_
  obtain rfl := Except.ok.inj (stop.symm.trans got)
  refine NoPanic.bind (.of_ok text) fun template got => ?_
  obtain rfl := Except.ok.inj (text.symm.trans got)
  generalize bytes.slice 3949952 2509 = template at size
  cases template with
  | nil => cases size
  | cons first rest =>
    exact NoPanic.check_bind fun _ => noPanic_checkUtf8 (Nat.succ_pos _)

/-- The checks of the tokenizer do not panic. -/
lemma noPanic_validateTokenizer (length : bytes.length = modelBytes) :
    NoPanic (validateTokenizer sha bytes frozenSections) := by
  refine NoPanic.bind (noPanic_validateTokens length) fun _ valid => ?_
  have tokens := validateTokens_facts length valid
  refine NoPanic.bind (noPanic_validateMerges tokens length) fun _ _ => ?_
  exact noPanic_validateTemplate length

/-- Behind these checks texts and merges are sound. -/
lemma validateTokenizer_facts {u : Unit} (length : bytes.length = modelBytes)
    (h : validateTokenizer sha bytes frozenSections = .ok u) :
    Tokens bytes ∧ ∀ rank < mergeCount, MergeFits bytes (mergeAt bytes rank) := by
  obtain ⟨_, valid, h⟩ := bind_eq_ok h
  have tokens := validateTokens_facts length valid
  obtain ⟨_, merges, _⟩ := bind_eq_ok h
  obtain ⟨_, loop, _⟩ := bind_eq_ok merges
  exact ⟨tokens, fun rank small => mergeLoop_facts tokens length rfl loop rank (Nat.zero_le _) small⟩

end Merges

end Promptboot.Opening
