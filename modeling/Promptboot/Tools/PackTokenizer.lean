import Promptboot.Tools.PackTokens

/-!
# The packed tokenizer passes

The target's checks of the tokenizer pass on a file that the packer left: the loop over the tokens
carries what the first tokens of the source give, the loop over the merges what its first merges
give, and both end with what was hashed of the source.

`checkToken_ok` and `checkMerge_ok` are one turn each, `tokenLoop_ok` and `mergeLoop_ok` the
inductions, with `textStart_succ`, `tally_succ` and `canonicalStrings_succ` for what the loops
carry. `validateTokens_ok`, `validateMerges_ok` and `validateTemplate_ok` are the three parts.
-/

namespace Promptboot.Pack
open Buffer Gguf ContainerInspect

section Numbers

/-- A number has as many bytes as asked for. -/
@[simp] lemma length_leBytes (width value : Nat) : (leBytes width value).length = width := by
  simp [leBytes]

/-- The lowest byte comes first. -/
lemma leBytes_succ (width value : Nat) :
    leBytes (width + 1) value = UInt8.ofNat value :: leBytes width (value / 256) := by
  rw [leBytes, List.range_succ_eq_map, List.map_cons, List.map_map, Nat.pow_zero, Nat.div_one,
    leBytes]
  refine congrArg _ (List.map_congr_left fun i _ => ?_)
  rw [Function.comp_apply, Nat.succ_eq_add_one, Nat.pow_succ, Nat.mul_comm, Nat.div_div_eq_div_mul]

/-- A number that is written is read back. -/
lemma leNumber_leBytes (width value : Nat) : leNumber (leBytes width value) = value % 256 ^ width := by
  induction width generalizing value with
  | zero => rw [Nat.pow_zero, Nat.mod_one]; rfl
  | succ width ih =>
    have power : 256 ^ (width + 1) = 256 * 256 ^ width := by rw [Nat.pow_succ, Nat.mul_comm]
    rw [leBytes_succ, leNumber, ih, UInt8.toNat_ofNat', power, Nat.mod_mul]

variable {b : Buffer} {offset : Nat}

/-- A word that was written is read back. -/
lemma u32At_of_slice {value : Nat} (h : b.slice offset 4 = leBytes 4 value) (small : value < 2 ^ 32) :
    (Memory.u32At b.byte offset).toNat = value := by
  rw [← leNumber_four, h, leNumber_leBytes, Nat.mod_eq_of_lt (by simpa using small)]

/-- A double word that was written is read back. -/
lemma u64At_of_slice {value : Nat} (h : b.slice offset 8 = leBytes 8 value) (small : value < 2 ^ 64) :
    u64At b.byte offset = value := by
  rw [← leNumber_eight, h, leNumber_leBytes, Nat.mod_eq_of_lt (by simpa using small)]

/-- A half word that was written is read back. -/
lemma u16At_of_slice {value : Nat} (h : b.slice offset 2 = leBytes 2 value) (small : value < 2 ^ 16) :
    u16At b.byte offset = value := by
  rw [← leNumber_two, h, leNumber_leBytes, Nat.mod_eq_of_lt (by simpa using small)]

/-- A record of a table of records of one size. -/
lemma slice_record {records : List (List UInt8)} {size i : Nat} {record : List UInt8}
    (same : ∀ record ∈ records, record.length = size)
    (h : b.slice offset records.flatten.length = records.flatten)
    (known : records[i]? = some record) : b.slice (offset + i * size) size = record := by
  have lt := (List.getElem?_eq_some_iff.1 known).1
  have before : (records.take i).flatten.length = i * size := by
    rw [length_flatten fun record mem => same record (List.mem_of_mem_take mem), List.length_take,
      Nat.min_eq_left (Nat.le_of_lt lt)]
  have piece := slice_pieces h known
  rwa [before, same record (List.mem_of_getElem? known)] at piece

/-- Both readers write double words alike. -/
lemma le64_eq (value : Nat) : Opening.le64 value = Gguf.le64 value := by
  rw [Opening.le64, Gguf.le64]
  refine List.map_congr_left fun i _ => ?_
  rw [Nat.pow_mul]

end Numbers

section Kinds

/-- How many tokens of each of the four types there are. -/
def tally (types : List Int) : Vector Nat 4 :=
  #v[types.count 1, types.count 3, types.count 4, types.count 5]

/-- The frozen histogram. -/
def FrozenTypes (types : List Int) : Prop := tally types = Opening.expectedCounts

/-- The counts of the kinds add up. -/
lemma kinds_countP (types : List Int) :
    types.count 1 + types.count 3 + types.count 4 + types.count 5 =
      types.countP (fun t => t = 1 ∨ t = 3 ∨ t = 4 ∨ t = 5) := by
  induction types with
  | nil => rfl
  | cons t types ih =>
    rw [List.countP_cons, ← ih]
    simp only [List.count_cons, beq_iff_eq, decide_eq_true_eq]
    split_ifs <;> omega

/-- Where the histogram accounts for all tokens, there are no other types. -/
lemma FrozenTypes.kinds {types : List Int} (h : FrozenTypes types)
    (length : types.length = vocabCount) : ∀ t ∈ types, t = 1 ∨ t = 3 ∨ t = 4 ∨ t = 5 := by
  have counts : [types.count 1, types.count 3, types.count 4, types.count 5] =
      [151643, 20, 2, 271] := congrArg Vector.toList h
  simp only [List.cons.injEq, and_true] at counts
  obtain ⟨one, three, four, five⟩ := counts
  have all := kinds_countP types
  rw [one, three, four, five] at all
  have whole : types.countP (fun t => t = 1 ∨ t = 3 ∨ t = 4 ∨ t = 5) = types.length := by
    rw [← all, length]
    rfl
  intro t mem
  exact of_decide_eq_true (List.countP_eq_length.1 whole t mem)

end Kinds

section Digests

/-- Equal digests are no mismatch. -/
lemma digestMismatch_none {status : ModelStatus} {domain : ErrorDomain} {index offset : Nat}
    {expected : List UInt8} {actual : Vector UInt8 32} {kind : FieldKind}
    (same : actual.toList = expected) :
    Opening.digestMismatch status domain index offset expected actual kind = none := by
  subst same
  refine List.findSome?_eq_none_iff.2 fun i _ => if_neg (not_not.2 ?_)
  simp [List.getD_eq_getElem?_getD]

/-- The digest of the tokens is the same in both readers. -/
lemma decode_tokens : decodeHex "8656e079473b857729cf444f772368cd6428dcd64513d46aac3f694b2f695282" =
    Opening.tokenDigest := by
  decide +kernel

/-- The digest of the types is the same in both readers. -/
lemma decode_types : decodeHex "f3760e7fbfc96d388f5b8d7cd67c5cd46535c8682ff84ebc9817cda61bc98f4d" =
    Opening.typeDigest := by
  decide +kernel

/-- The digest of the merges is the same in both readers. -/
lemma decode_merges : decodeHex "907981a313a6e78ef2223229042674a39cd4995ee4c4ed40a31b58754e82c26c" =
    Opening.mergeDigest := by
  decide +kernel

end Digests

section Tables
variable {model : Buffer} {v : Vocabulary} {small : Sections}

/-- The sections of the tokenizer are at their places. -/
structure Holds (model : Buffer) (small : Sections) : Prop where
  length : model.length = modelBytes
  pieces : ∀ w ∈ smallWrites small, model.slice w.1 w.2.length = w.2

/-- The sizes that the reader and the packer checked. -/
structure Vocabulary.Sized (v : Vocabulary) : Prop where
  tokens : v.tokens.length = vocabCount
  types : v.types.length = vocabCount
  merges : v.merges.length = mergeCount

/-- How long the first texts are together. -/
def textStart (v : Vocabulary) (id : Nat) : Nat := ((v.tokens.map asBytes).take id).flatten.length

/-- A text starts within the section. -/
lemma textStart_le (of : SectionsOf v small) (id : Nat) : textStart v id ≤ 1372758 := by
  have whole := List.take_append_drop id (v.tokens.map asBytes)
  have size := of.size
  rw [of.texts, ← whole, List.flatten_append, List.length_append] at size
  unfold textStart
  omega

/-- A text ends where the next one starts. -/
lemma textStart_succ {id : Nat} {text : String} (known : v.tokens[id]? = some text) :
    textStart v (id + 1) = textStart v id + (asBytes text).length := by
  have there : (v.tokens.map asBytes)[id]? = some (asBytes text) := by
    rw [List.getElem?_map, known, Option.map_some]
  rw [textStart, List.take_add_one, there, Option.toList_some, List.flatten_append,
    List.length_append, List.flatten_singleton]
  rfl

/-- The last text ends the section. -/
lemma textStart_last (of : SectionsOf v small) (sized : v.Sized) :
    textStart v vocabCount = 1372758 := by
  have size := of.size
  rw [of.texts] at size
  have all : (v.tokens.map asBytes).length ≤ vocabCount :=
    Nat.le_of_eq (by rw [List.length_map, sized.tokens])
  rw [textStart, List.take_of_length_le all, size]

/-- The offset read is where the text starts. -/
lemma textOffset_eq (holds : Holds model small) (of : SectionsOf v small) (sized : v.Sized)
    {id : Nat} (le : id ≤ vocabCount) : Opening.textOffset model id = textStart v id := by
  have table := holds.pieces (704, small.offsets) (by simp [smallWrites])
  rw [of.offsets] at table
  have known : ((startsFrom 0 (v.tokens.map asBytes)).map (leBytes 4))[id]? =
      some (leBytes 4 (textStart v id)) := by
    rw [List.getElem?_map, startsFrom_get (by rw [List.length_map, sized.tokens]; exact le),
      Option.map_some, Nat.zero_add]
    rfl
  have sizes : ∀ record ∈ (startsFrom 0 (v.tokens.map asBytes)).map (leBytes 4),
      record.length = 4 := by
    simp
  have record := slice_record sizes table known
  have below := textStart_le of id
  exact u32At_of_slice record (by omega)

/-- The text read is the token's. -/
lemma tokenText_eq (holds : Holds model small) (of : SectionsOf v small) (sized : v.Sized)
    {id : Nat} {text : String} (known : v.tokens[id]? = some text) :
    Opening.tokenText model id = asBytes text := by
  have lt : id < vocabCount := sized.tokens ▸ (List.getElem?_eq_some_iff.1 known).1
  have texts := holds.pieces (608512, small.texts) (by simp [smallWrites])
  rw [of.texts] at texts
  have there : (v.tokens.map asBytes)[id]? = some (asBytes text) := by
    rw [List.getElem?_map, known, Option.map_some]
  have piece := slice_pieces texts there
  rw [Opening.tokenText, Opening.tokenExtent, textOffset_eq holds of sized (Nat.le_of_lt lt),
    textOffset_eq holds of sized lt, textStart_succ known, Nat.add_sub_cancel_left]
  exact piece

/-- The type read is the token's. -/
lemma type_eq (holds : Holds model small) (of : SectionsOf v small) {id : Nat} {value : Int}
    (known : v.types[id]? = some value) : model.byte (1981312 + id) = UInt8.ofNat value.toNat := by
  have types := holds.pieces (1981312, small.types) (by simp [smallWrites])
  have lt := (List.getElem?_eq_some_iff.1 known).1
  rw [of.types] at types
  rw [slice_eq_iff.1 types id (by rw [List.length_map]; exact lt), List.getD_eq_getElem?_getD,
    List.getElem?_map, known]
  rfl

/-- The merge read is the one packed. -/
lemma mergeAt_eq (holds : Holds model small) {rows : List (UInt32 × UInt32 × UInt32)}
    (table : small.merges = (rows.map mergeRecord).flatten) {rank : Nat}
    {row : UInt32 × UInt32 × UInt32} (known : rows[rank]? = some row) :
    Opening.mergeAt model rank = ⟨row.1, row.2.1, row.2.2, rank⟩ := by
  have merges := holds.pieces (2133248, small.merges) (by simp [smallWrites])
  rw [table] at merges
  have there : (rows.map mergeRecord)[rank]? = some (mergeRecord row) := by
    rw [List.getElem?_map, known, Option.map_some]
  have sizes : ∀ record ∈ rows.map mergeRecord, record.length = 12 := by
    intro record mem
    obtain ⟨row, _, rfl⟩ := List.mem_map.1 mem
    simp [mergeRecord]
  have record := slice_record sizes merges there
  have split : model.slice (2133248 + rank * 12) 12 = model.slice (2133248 + rank * 12) 4 ++
      model.slice (2133248 + rank * 12 + 4) 4 ++ model.slice (2133248 + rank * 12 + 8) 4 := by
    rw [← slice_add model _ 4 4, ← slice_add model _ 8 4]
  rw [split, mergeRecord] at record
  obtain ⟨both, result⟩ := List.append_inj record (by simp)
  obtain ⟨left, right⟩ := List.append_inj both (by simp)
  have left := UInt32.toNat_inj.1 (u32At_of_slice left row.1.toNat_lt)
  have right := UInt32.toNat_inj.1 (u32At_of_slice right row.2.1.toNat_lt)
  have result := UInt32.toNat_inj.1 (u32At_of_slice result row.2.2.toNat_lt)
  rw [Opening.mergeAt, left, right, result]

end Tables

section TokenLoop
variable {model : Buffer} {v : Vocabulary} {small : Sections}

/-- What the loop over the tokens carries after the first of them. -/
def scanned (v : Vocabulary) (id : Nat) : Opening.TokenScan where
  prior := textStart v id
  counts := tally (v.types.take id)
  tokens := canonicalStrings (v.tokens.take id)
  types := canonicalI32 (v.types.take id)

/-- A further token is counted under its kind. -/
lemma tally_succ {types : List Int} {id : Nat} {value : Int} (known : types[id]? = some value)
    (kind : value = 1 ∨ value = 3 ∨ value = 4 ∨ value = 5) :
    ∃ index, Opening.countIndex (UInt8.ofNat value.toNat) = some index ∧
      tally (types.take (id + 1)) =
        (tally (types.take id)).set index.val ((tally (types.take id)).get index + 1) index.isLt := by
  have next : types.take (id + 1) = types.take id ++ [value] := by
    rw [List.take_add_one, known, Option.toList_some]
  rw [next]
  rcases kind with rfl | rfl | rfl | rfl
  · exact ⟨0, rfl, by simp only [tally, List.count_append]; rfl⟩
  · exact ⟨1, rfl, by simp only [tally, List.count_append]; rfl⟩
  · exact ⟨2, rfl, by simp only [tally, List.count_append]; rfl⟩
  · exact ⟨3, rfl, by simp only [tally, List.count_append]; rfl⟩

/-- No count is larger than the number of tokens. -/
lemma tally_le (types : List Int) (k : Fin 4) : (tally types).get k ≤ types.length := by
  rcases k with ⟨_ | _ | _ | _ | k, lt⟩
  case succ.succ.succ.succ => omega
  all_goals exact List.count_le_length

/-- The bytes of a text pass. -/
lemma checkUtf8_ok (text : String) (error : Nat → UInt8 → ModelError) :
    Opening.checkUtf8 (asBytes text) error = .ok () := by
  rw [Opening.checkUtf8, if_pos (isUtf8_asBytes text)]
  rfl

/-- A further text is hashed behind the others. -/
lemma canonicalStrings_succ {tokens : List String} {id : Nat} {text : String}
    (known : tokens[id]? = some text) :
    canonicalStrings (tokens.take (id + 1)) = canonicalStrings (tokens.take id) ++
      Opening.le64 (asBytes text).length ++ asBytes text := by
  rw [List.take_add_one, known, Option.toList_some, canonicalStrings, canonicalStrings,
    List.flatMap_append, List.flatMap_singleton, length_asBytes, le64_eq, List.append_assoc]
  rfl

/-- A further type is hashed behind the others. -/
lemma canonicalI32_succ {types : List Int} {id : Nat} {value : Int}
    (known : types[id]? = some value) (low : 0 ≤ value) (high : value < 256) :
    canonicalI32 (types.take (id + 1)) =
      canonicalI32 (types.take id) ++ Opening.le64 (UInt8.ofNat value.toNat).toNat := by
  have same : (value % 2 ^ 64).toNat = (UInt8.ofNat value.toNat).toNat := by
    rw [UInt8.toNat_ofNat']
    omega
  rw [List.take_add_one, known, Option.toList_some, canonicalI32, canonicalI32,
    List.flatMap_append, List.flatMap_singleton, le64_eq, same]

/-- A turn of the loop passes and carries what one more token gives. -/
lemma checkToken_ok (holds : Holds model small) (of : SectionsOf v small) (sized : v.Sized)
    (frozen : FrozenTypes v.types) {id : Nat} (lt : id < vocabCount) :
    Opening.checkToken model frozenSections id (scanned v id) = .ok (scanned v (id + 1)) := by
  have token_there : id < v.tokens.length := sized.tokens ▸ lt
  have type_there : id < v.types.length := sized.types ▸ lt
  have text := List.getElem?_eq_getElem token_there
  have value := List.getElem?_eq_getElem type_there
  generalize v.tokens[id] = token at text
  generalize v.types[id] = kind at value
  have mem := List.mem_of_getElem? value
  obtain ⟨low, high⟩ := of.bytes kind mem
  obtain ⟨index, counted, counts⟩ := tally_succ value (frozen.kinds sized.types kind mem)
  obtain ⟨table, types⟩ := Opening.checkToken_reads holds.length lt
  have stop := textStart_succ text
  have pos := asBytes_pos (of.nonempty token (List.mem_of_getElem? text))
  have below := textStart_le of (id + 1)
  have read : Opening.u32In model (704 + (id + 1) * 4) = _ := Opening.u32In_ok table
  have current : (Memory.u32At model.byte (704 + (id + 1) * 4)).toNat = textStart v (id + 1) :=
    textOffset_eq holds of sized lt
  have cut : Opening.sliceIn model (608512 + textStart v id) (608512 + textStart v (id + 1)) =
      .ok (asBytes token) := by
    have inside : 608512 + textStart v (id + 1) ≤ model.length := by
      rw [holds.length, modelBytes]
      omega
    have start := textOffset_eq holds of sized (Nat.le_of_lt lt)
    have next : Opening.textOffset model (id + 1) = _ := textOffset_eq holds of sized lt
    have size : 608512 + textStart v (id + 1) - (608512 + textStart v id) =
        textStart v (id + 1) - textStart v id := by omega
    rw [Opening.sliceIn_ok (by omega) inside, ← tokenText_eq holds of sized text, size,
      Opening.tokenText, Opening.tokenExtent, start, next]
  have count_fits : (tally (v.types.take id)).get index + 1 < 2 ^ 64 := by
    have le := tally_le (v.types.take id) index
    have short := List.length_take_le id v.types
    unfold vocabCount at lt
    omega
  -- the turn of the loop, check by check
  refine (Opening.bind_ok read).trans ?_
  refine (Opening.bind_ok (check_ok (decide_eq_true ?_))).trans ?_
  · rw [current, stop]
    exact Nat.lt_add_of_pos_right pos
  refine (Opening.bind_ok (check_ok (decide_eq_true ?_))).trans ?_
  · rw [current]
    exact below
  simp only [current]
  refine (Opening.bind_ok cut).trans ((Opening.bind_ok (checkUtf8_ok _ _)).trans ?_)
  refine (Opening.bind_ok (Opening.byteIn_ok types)).trans ?_
  rw [type_eq holds of value, counted]
  refine (Opening.bind_ok (Opening.plus_ok count_fits)).trans ?_
  rw [scanned, scanned, counts, canonicalStrings_succ text, canonicalI32_succ value low high]
  rfl

/-- The loop over the packed tokens passes. -/
lemma tokenLoop_ok (holds : Holds model small) (of : SectionsOf v small) (sized : v.Sized)
    (frozen : FrozenTypes v.types) {left id : Nat} (total : id + left = vocabCount) :
    Opening.tokenLoop model frozenSections left id (scanned v id) =
      .ok (scanned v vocabCount) := by
  induction left generalizing id with
  | zero =>
    obtain rfl : id = vocabCount := total
    rfl
  | succ left ih =>
    refine (Opening.bind_ok (checkToken_ok holds of sized frozen (by omega))).trans ?_
    exact ih (by omega)

variable {sha : List UInt8 → Vector UInt8 32}

/-- The digests of the source's tokenizer are the frozen ones. -/
structure Vocabulary.Hashed (sha : List UInt8 → Vector UInt8 32) (v : Vocabulary) : Prop where
  tokens : (sha (canonicalStrings v.tokens)).toList = Opening.tokenDigest
  types : (sha (canonicalI32 v.types)).toList = Opening.typeDigest
  merges : (sha (canonicalStrings v.merges)).toList = Opening.mergeDigest

/-- The packed tokens pass. -/
lemma validateTokens_ok (holds : Holds model small) (of : SectionsOf v small) (sized : v.Sized)
    (frozen : FrozenTypes v.types) (hashed : v.Hashed sha) :
    Opening.validateTokens sha model frozenSections = .ok () := by
  have first : Opening.u32In model 704 = .ok 0 := by
    rw [Opening.u32In_ok (by rw [holds.length]; decide)]
    have zero : Opening.textOffset model 0 = 0 := textOffset_eq holds of sized (Nat.zero_le _)
    exact congrArg _ (UInt32.toNat_inj.1 zero)
  have start : scanned v 0 = ⟨0, #v[0, 0, 0, 0], [], []⟩ := rfl
  have loop := tokenLoop_ok holds of sized frozen (Nat.zero_add vocabCount)
  rw [start] at loop
  refine (Opening.bind_ok first).trans ((Opening.bind_ok (check_ok rfl)).trans ?_)
  refine (Opening.bind_ok loop).trans ?_
  refine (Opening.bind_ok (check_ok (decide_eq_true (textStart_last of sized)))).trans ?_
  have all_types : v.types.take vocabCount = v.types :=
    List.take_of_length_le (Nat.le_of_eq sized.types)
  have all_tokens : v.tokens.take vocabCount = v.tokens :=
    List.take_of_length_le (Nat.le_of_eq sized.tokens)
  have counts : (scanned v vocabCount).counts = Opening.expectedCounts := by
    rw [scanned, all_types]
    exact frozen
  rw [counts]
  refine (Opening.bind_ok (forM_ok fun k _ => check_ok (decide_eq_true rfl))).trans ?_
  simp only [scanned]
  rw [all_types, all_tokens, digestMismatch_none hashed.tokens, digestMismatch_none hashed.types]
  rfl

end TokenLoop

section MergeLoop
variable {model : Buffer} {v : Vocabulary} {small : Sections}

/-- A half that is part of the result passes. -/
lemma concatLoop_ok {mergeBase rank resultBase concat : Nat} {left right : UInt32}
    {halves : List UInt8} (inside : resultBase + concat + halves.length ≤ model.length)
    (same : model.slice (resultBase + concat) halves.length = halves) :
    Opening.concatLoop model mergeBase rank left right resultBase concat halves = .ok () := by
  induction halves generalizing concat with
  | nil => rfl
  | cons byte halves ih =>
    rw [List.length_cons] at inside same
    rw [slice_succ] at same
    obtain ⟨head, tail⟩ := List.cons.inj same
    refine (Opening.bind_ok (Opening.byteIn_ok (by omega))).trans ?_
    rw [if_neg (not_not.2 head)]
    exact ih (by omega) tail

/-- What is hashed of a merge. -/
def mergeHash (left right : List UInt8) : List UInt8 :=
  Opening.le64 (left.length + 1 + right.length) ++ left ++ [0x20] ++ right

/-- A merge whose halves make the result passes. -/
lemma checkMergeText_ok (h : Opening.Tokens model) (length : model.length = modelBytes) {rank : Nat}
    {left right result : UInt32} (left_small : left.toNat < vocabCount)
    (right_small : right.toNat < vocabCount) (result_small : result.toNat < vocabCount)
    (joined : Opening.tokenText model result.toNat =
      Opening.tokenText model left.toNat ++ Opening.tokenText model right.toNat) :
    Opening.checkMergeText model 2133248 608512 rank left right
      (Opening.textOffset model left.toNat, Opening.textOffset model (left.toNat + 1))
      (Opening.textOffset model right.toNat, Opening.textOffset model (right.toNat + 1))
      (Opening.textOffset model result.toNat, Opening.textOffset model (result.toNat + 1)) =
    .ok (mergeHash (Opening.tokenText model left.toNat) (Opening.tokenText model right.toNat)) := by
  obtain ⟨left_order, left_stop⟩ := h.inside _ left_small
  obtain ⟨right_order, right_stop⟩ := h.inside _ right_small
  obtain ⟨result_order, result_stop⟩ := h.inside _ result_small
  have size := congrArg List.length joined
  simp only [List.length_append, Opening.tokenText, length_slice, Opening.tokenExtent] at size
  rw [Opening.checkMergeText, Opening.bind_ok (Opening.minus_ok (by simp only; omega)),
    Opening.bind_ok (Opening.plus_ok (by simp only; omega)),
    Opening.bind_ok (Opening.minus_ok (by simp only; omega)),
    Opening.bind_ok (Opening.minus_ok (by simp only; omega)), if_neg (by simp only; omega)]
  have left_text := h.text_ok length left_small
  have right_text := h.text_ok length right_small
  have whole : model.slice (608512 + Opening.textOffset model result.toNat + 0)
      (Opening.tokenText model left.toNat ++ Opening.tokenText model right.toNat).length =
      Opening.tokenText model left.toNat ++ Opening.tokenText model right.toNat := by
    rw [← joined, Opening.tokenText, length_slice, Nat.add_zero]
    simp only [Opening.tokenExtent]
  have inside : 608512 + Opening.textOffset model result.toNat + 0 +
      (Opening.tokenText model left.toNat ++ Opening.tokenText model right.toNat).length ≤
      model.length := by
    rw [← joined, Opening.tokenText, length_slice, length, modelBytes]
    simp only [Opening.tokenExtent]
    omega
  simp only
  rw [Opening.bind_ok left_text, Opening.bind_ok right_text,
    Opening.bind_ok (concatLoop_ok inside whole)]
  rfl

/-- The results of the merges are below the special tokens. -/
def FrozenMerges (v : Vocabulary) : Prop :=
  ∀ merge ∈ v.merges, ∀ left right, merge = left ++ " " ++ right →
    ∀ id : Nat, v.tokens[id]? = some (left ++ right) → id < 151643

/-- A turn of the loop passes and gives what was hashed of the merge. -/
lemma checkMerge_ok (holds : Holds model small) (of : SectionsOf v small) (sized : v.Sized)
    (tokens : Opening.Tokens model) (frozen : FrozenMerges v)
    {rows : List (UInt32 × UInt32 × UInt32)}
    (table : small.merges = (rows.map mergeRecord).flatten) {rank : Nat} {merge : String}
    {row : UInt32 × UInt32 × UInt32} (merge_known : v.merges[rank]? = some merge)
    (row_known : rows[rank]? = some row) (made : MergeOf (numbered v.tokens 0) merge row) :
    Opening.checkMerge model frozenSections rank = .ok (canonicalStrings [merge]) := by
  have rank_small : rank < mergeCount := sized.merges ▸ (List.getElem?_eq_some_iff.1 merge_known).1
  have count : v.tokens.length < 2 ^ 32 := by
    rw [sized.tokens]
    decide
  obtain ⟨left, right, rfl, left_known, right_known, result_known⟩ := made
  have left_known := numbered_get count (mem_of_lookup left_known)
  have right_known := numbered_get count (mem_of_lookup right_known)
  have result_known := numbered_get count (mem_of_lookup result_known)
  have below {id : Nat} {text : String} (known : v.tokens[id]? = some text) : id < vocabCount :=
    sized.tokens ▸ (List.getElem?_eq_some_iff.1 known).1
  have result_low := frozen _ (List.mem_of_getElem? merge_known) left right rfl _ result_known
  have found := mergeAt_eq holds table row_known
  have inside := Opening.merge_reads holds.length rank_small
  have read_left : Opening.u32In model (2133248 + rank * 12) = .ok row.1 :=
    (Opening.u32In_ok (by omega)).trans (congrArg (fun merge : Merge => Except.ok merge.left) found)
  have read_right : Opening.u32In model (2133248 + rank * 12 + 4) = .ok row.2.1 :=
    (Opening.u32In_ok (by omega)).trans (congrArg (fun merge : Merge => Except.ok merge.right) found)
  have read_result : Opening.u32In model (2133248 + rank * 12 + 8) = .ok row.2.2 :=
    (Opening.u32In_ok (by omega)).trans (congrArg (fun merge : Merge => Except.ok merge.result) found)
  have ids : Opening.checkMergeIds rank (2133248 + rank * 12) row.1 row.2.1 row.2.2 = .ok () := by
    refine forM_ok fun field mem => ?_
    simp only [List.mem_cons, List.not_mem_nil, or_false] at mem
    rcases mem with rfl | rfl | rfl
    · exact check_ok (decide_eq_true (below left_known))
    · exact check_ok (decide_eq_true (below right_known))
    · exact check_ok (decide_eq_true (below result_known))
  have left_text := tokenText_eq holds of sized left_known
  have right_text := tokenText_eq holds of sized right_known
  have result_text := tokenText_eq holds of sized result_known
  have joined : Opening.tokenText model row.2.2.toNat =
      Opening.tokenText model row.1.toNat ++ Opening.tokenText model row.2.1.toNat := by
    rw [result_text, left_text, right_text, asBytes_append]
  -- the turn of the loop, check by check
  refine (Opening.bind_ok read_left).trans ((Opening.bind_ok read_right).trans ?_)
  refine (Opening.bind_ok read_result).trans ((Opening.bind_ok ids).trans ?_)
  refine (Opening.bind_ok (check_ok (decide_eq_true result_low))).trans ?_
  refine (Opening.bind_ok (Opening.tokenRange_ok holds.length (below left_known))).trans ?_
  refine (Opening.bind_ok (Opening.tokenRange_ok holds.length (below right_known))).trans ?_
  refine (Opening.bind_ok (Opening.tokenRange_ok holds.length (below result_known))).trans ?_
  refine (checkMergeText_ok tokens holds.length (below left_known) (below right_known)
    (below result_known) joined).trans ?_
  have single : [left ++ " " ++ right][0]? = some (left ++ " " ++ right) := rfl
  have hash := canonicalStrings_succ single
  rw [List.take_of_length_le (by simp)] at hash
  have size : (asBytes left ++ [0x20] ++ asBytes right).length =
      (asBytes left).length + 1 + (asBytes right).length := by
    rw [List.length_append, List.length_append, List.length_singleton]
  -- what is hashed are the two texts with a space between them
  rw [hash, left_text, right_text, mergeHash, asBytes_append, asBytes_append, asBytes_space, size]
  simp only [List.take_zero, canonicalStrings, List.flatMap_nil, List.nil_append, List.append_assoc]

/-- The loop over the packed merges passes. -/
lemma mergeLoop_ok (holds : Holds model small) (of : SectionsOf v small) (sized : v.Sized)
    (tokens : Opening.Tokens model) (frozen : FrozenMerges v)
    {rows : List (UInt32 × UInt32 × UInt32)}
    (table : small.merges = (rows.map mergeRecord).flatten)
    (made : List.Forall₂ (MergeOf (numbered v.tokens 0)) v.merges rows) {left rank : Nat}
    (total : rank + left = mergeCount) :
    Opening.mergeLoop model frozenSections left rank (canonicalStrings (v.merges.take rank)) =
      .ok (canonicalStrings v.merges) := by
  induction left generalizing rank with
  | zero =>
    obtain rfl : rank = mergeCount := total
    rw [List.take_of_length_le (Nat.le_of_eq sized.merges)]
    rfl
  | succ left ih =>
    have small_rank : rank < v.merges.length := by
      rw [sized.merges]
      omega
    have small_row : rank < rows.length := made.length_eq ▸ small_rank
    have pair := (List.forall₂_iff_get.1 made).2 rank small_rank small_row
    have known := List.getElem?_eq_getElem small_rank
    refine (Opening.bind_ok (checkMerge_ok holds of sized tokens frozen table known
      (List.getElem?_eq_getElem small_row) pair)).trans ?_
    have next : canonicalStrings (v.merges.take rank) ++ canonicalStrings [v.merges[rank]] =
        canonicalStrings (v.merges.take (rank + 1)) := by
      rw [List.take_add_one, known, Option.toList_some, canonicalStrings, canonicalStrings,
        canonicalStrings, List.flatMap_append]
    rw [next]
    exact ih (by omega)

variable {sha : List UInt8 → Vector UInt8 32}

/-- The packed merges pass. -/
lemma validateMerges_ok (holds : Holds model small) (of : SectionsOf v small) (sized : v.Sized)
    (tokens : Opening.Tokens model) (frozen : FrozenMerges v) (hashed : v.Hashed sha) :
    Opening.validateMerges sha model frozenSections = .ok () := by
  obtain ⟨rows, table, made⟩ := of.merges
  have loop := mergeLoop_ok holds of sized tokens frozen table made (Nat.zero_add mergeCount)
  refine (Opening.bind_ok loop).trans ?_
  rw [digestMismatch_none hashed.merges]
  rfl

/-- The packed template passes. -/
lemma validateTemplate_ok (holds : Holds model small) (of : SectionsOf v small)
    (size : small.template.length = 2509) {rest : List Char} (brace : v.template.toList = '{' :: rest) :
    Opening.validateTemplate model frozenSections = .ok () := by
  have there := holds.pieces (3949952, small.template) (by simp [smallWrites])
  rw [size] at there
  have there : model.slice 3949952 2509 = asBytes v.template := there.trans of.template
  have stop : Opening.plus 3949952 2509 = .ok 3952461 := Opening.plus_ok (by decide)
  have text : Opening.sliceIn model 3949952 3952461 = .ok (asBytes v.template) := by
    rw [Opening.sliceIn_ok (by decide) (by rw [holds.length]; decide), ← there]
  refine (Opening.bind_ok stop).trans ((Opening.bind_ok text).trans ?_)
  obtain ⟨bytes, first⟩ := asBytes_brace brace
  have valid := checkUtf8_ok v.template
    fun index byte => ⟨.utf8, .chat, 0, 3949952 + index, 0, byte.toNat, .utf8Byte, 1⟩
  rw [first] at valid ⊢
  exact (Opening.bind_ok (check_ok rfl)).trans valid

end MergeLoop

end Promptboot.Pack
