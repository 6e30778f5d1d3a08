import Promptboot.Tools.PackOpens

/-!
# Packing then opening loses nothing

What the packer makes of a source that `parse_reader` accepts is opened by the target, whatever
SHA-256 is, and the accessors give the source back: the texts and the types of its tokens, the
numbers of its merges, its chat template and its tensors.

`parseReader_facts` is what the reader's success says of a source, `packed_file` what the packer
leaves of it and `packed_opens` what the target makes of that. The headlines are about every
`PackRun`: `pack_roundTrips` says that nothing is lost, and `pack_losesNothing`, behind
`GivesBack.answersFrom`, that the accessors answer for nothing else.
-/

namespace Promptboot.Pack
open Buffer Gguf ContainerInspect

section Parsed
variable {sha : List UInt8 → Vector UInt8 32} {source : Source} {model : GgufFile}
  {v : Vocabulary} {small : Sections} {p q : Nat}

/-- Behind the checks the vocabulary has its sizes and digests. -/
lemma validateMetadata_facts {metadata : List (String × Value)} {u : Unit} (of : v.Of metadata)
    (h : validateMetadata (shaIs sha) metadata p = (.ok u, q)) :
    v.Sized ∧ v.Hashed sha ∧ v.template.utf8ByteSize = 2509 := by
  obtain ⟨_, h1⟩ := require_bind_eq_ok h
  obtain ⟨_, r1, _, h2⟩ := Fallible.bind_eq_ok h1
  obtain ⟨_, r2, _, h3⟩ := Fallible.bind_eq_ok h2
  obtain ⟨_, r3, tokens, h4⟩ := Fallible.bind_eq_ok h3
  obtain ⟨_, r4, types, h5⟩ := Fallible.bind_eq_ok h4
  obtain ⟨_, r5, merges, template⟩ := Fallible.bind_eq_ok h5
  rw [of.tokens] at tokens
  rw [of.types] at types
  rw [of.merges] at merges
  rw [of.template] at template
  obtain ⟨token_count, tokens⟩ := require_bind_eq_ok tokens
  obtain ⟨token_hash, -⟩ := require_eq_ok tokens
  obtain ⟨type_count, types⟩ := require_bind_eq_ok types
  obtain ⟨type_hash, -⟩ := require_eq_ok types
  obtain ⟨merge_count, merges⟩ := require_bind_eq_ok merges
  obtain ⟨merge_hash, -⟩ := require_eq_ok merges
  obtain ⟨identity, -⟩ := require_eq_ok template
  refine ⟨⟨of_decide_eq_true token_count, of_decide_eq_true type_count,
    of_decide_eq_true merge_count⟩, ⟨?_, ?_, ?_⟩, ?_⟩
  · exact (of_decide_eq_true token_hash).trans decode_tokens
  · exact (of_decide_eq_true type_hash).trans decode_types
  · exact (of_decide_eq_true merge_hash).trans decode_merges
  · exact of_decide_eq_true (Bool.and_eq_true_iff.1 identity).1

/-- Behind the checks every row has its tensor. -/
lemma checkRows_facts {tensors : List (String × Tensor)} {rows : List TensorRow}
    {counts result : List Nat} (h : checkRows tensors rows counts p = (.ok result, q)) :
    ∀ row ∈ rows, ∃ tensor, lookup tensors row.name = some tensor ∧ tensor.dims = row.dims ∧
      tensor.dtype = row.dtype := by
  induction rows generalizing counts p with
  | nil => exact fun _ mem => nomatch mem
  | cons row rows ih =>
    cases known : lookup tensors row.name with
    | none =>
      simp only [checkRows, known] at h
      cases h
    | some tensor =>
      simp only [checkRows, known] at h
      obtain ⟨schema, h1⟩ := require_bind_eq_ok h
      obtain ⟨_, dims, dtype⟩ := of_decide_eq_true schema
      obtain ⟨_, r, _, h2⟩ := Fallible.bind_eq_ok h1
      exact List.forall_mem_cons.2 ⟨⟨tensor, known, dims, dtype⟩, ih h2⟩

/-- Every tensor of the source has a frozen row. -/
def Listed (tensors : List (String × Tensor)) : Prop :=
  ∀ row ∈ tensors, ∃ known ∈ packTensorRows, known.name = row.1

/-- What the reader checked of a source that it accepts. -/
structure Parsed (sha : List UInt8 → Vector UInt8 32) (model : GgufFile) : Prop where
  metadata : ∃ p q u, validateMetadata (shaIs sha) model.metadata p = (.ok u, q)
  schemed : Schemed model.tensors
  measured : Measured model.tensors
  listed : Listed model.tensors

/-- A source that is accepted is a parsed model. -/
lemma parseReader_facts (h : parseReader (shaIs sha) source 0 = (.ok model, q)) :
    Parsed sha model := by
  obtain ⟨infoEnd, read, -, -⟩ := parseReader_agree h
  have sizes := SourceReader.sourceTensors_sizes read
  obtain ⟨magic, p1, _, h1⟩ := Fallible.bind_eq_ok h
  obtain ⟨_, h2⟩ := require_bind_eq_ok h1
  obtain ⟨version, p2, _, h3⟩ := Fallible.bind_eq_ok h2
  obtain ⟨_, h4⟩ := require_bind_eq_ok h3
  obtain ⟨_, p3, _, h5⟩ := Fallible.bind_eq_ok h4
  obtain ⟨_, p4, _, h6⟩ := Fallible.bind_eq_ok h5
  obtain ⟨_, h7⟩ := require_bind_eq_ok h6
  obtain ⟨metadata, p5, _, h8⟩ := Fallible.bind_eq_ok h7
  obtain ⟨infos, p6, _, h9⟩ := Fallible.bind_eq_ok h8
  obtain ⟨_, p7, _, h10⟩ := Fallible.bind_eq_ok h9
  obtain ⟨_, p8, _, h11⟩ := Fallible.bind_eq_ok h10
  obtain ⟨_, h12⟩ := require_bind_eq_ok h11
  obtain ⟨tensors, p9, _, h13⟩ := Fallible.bind_eq_ok h12
  obtain ⟨_, p10, _, h14⟩ := Fallible.bind_eq_ok h13
  obtain ⟨_, p11, exact_, h15⟩ := Fallible.bind_eq_ok h14
  cases h15
  obtain ⟨_, h16⟩ := require_bind_eq_ok exact_
  obtain ⟨_, h17⟩ := require_bind_eq_ok h16
  obtain ⟨u, p12, checked, h18⟩ := Fallible.bind_eq_ok h17
  obtain ⟨names, h19⟩ := require_bind_eq_ok h18
  obtain ⟨_, p13, rows, _⟩ := Fallible.bind_eq_ok h19
  have schemed : Schemed tensors := checkRows_facts rows
  refine ⟨⟨_, _, u, checked⟩, schemed, ?_, ?_⟩
  · intro row mem tensor known
    obtain ⟨other, same, dims, dtype⟩ := schemed row mem
    obtain rfl : tensor = other := Option.some.inj (known.symm.trans same)
    rw [sizes _ (mem_of_lookup known), dims, dtype]
    rfl
  · intro row mem
    have found := List.all_eq_true.1 (Bool.and_eq_true_iff.1 names).2 row mem
    obtain ⟨known, there, same⟩ := List.any_eq_true.1 found
    exact ⟨known, there, of_decide_eq_true same⟩

/-- The sections of the vocabulary have the frozen sizes. -/
lemma SectionsOf.sized (of : SectionsOf v small) (sized : v.Sized)
    (template : v.template.utf8ByteSize = 2509) : small.Sized := by
  obtain ⟨rows, merges, all⟩ := of.merges
  constructor
  · have records : ∀ record ∈ (startsFrom 0 (v.tokens.map asBytes)).map (leBytes 4),
        record.length = 4 := by simp
    rw [of.offsets, length_flatten records, List.length_map, length_startsFrom, List.length_map,
      sized.tokens]
    rfl
  · exact of.size
  · rw [of.types, List.length_map, sized.types]
    rfl
  · have records : ∀ record ∈ rows.map mergeRecord, record.length = 12 := by
      intro record mem
      obtain ⟨row, _, rfl⟩ := List.mem_map.1 mem
      simp [mergeRecord]
    rw [merges, length_flatten records, List.length_map, ← all.length_eq, sized.merges]
    rfl
  · rw [of.template, length_asBytes, template]

end Parsed

section RoundTrip
variable {sha : List UInt8 → Vector UInt8 32} {source : Source} {gguf : GgufFile}
  {v : Vocabulary} {small : Sections} {model : Buffer}

/-- What the view has of a tensor of the source. -/
structure Unpacked (source : Source) (row : TensorRow) (tensor : Tensor) (t : TensorView) : Prop where
  role : t.info.role = row.role
  layer : t.info.layer = row.layer
  rank : t.info.rank.toNat = tensor.dims.length
  dims : (t.info.dims.map UInt32.toNat).toList = paddedDims tensor.dims
  dtype : mappedDtype tensor.dtype = some t.info.dtype.toNat
  data : t.data = (source.bytes.drop tensor.offset).take tensor.length

/-- The accessors of a view give a source back. -/
structure GivesBack (source : Source) (gguf : GgufFile) (v : Vocabulary)
    (view : Opening.OpenedView) : Prop where
  tokenBytes : ∀ id token, v.tokens[id]? = some token → view.tokenBytes id = .ok (asBytes token)
  /-- No two tokens have one text: the texts have their numbers. -/
  distinct : v.tokens.Nodup
  tokenType : ∀ id value, v.types[id]? = some value →
    ∃ t, view.tokenType id = .ok t ∧ (t.toNat : Int) = value
  merge : ∀ rank merge, v.merges[rank]? = some merge → ∃ m left right, view.merge rank = .ok m ∧
    m.rank = rank ∧ merge = left ++ " " ++ right ∧ v.tokens[m.left.toNat]? = some left ∧
    v.tokens[m.right.toNat]? = some right ∧ v.tokens[m.result.toNat]? = some (left ++ right)
  template : view.sectionAt 5 = .ok (asBytes v.template)
  tensor : ∀ name tensor, lookup gguf.tensors name = some tensor → ∃ id row t,
    packTensorRows[id]? = some row ∧ row.name = name ∧ view.tensor id = .ok t ∧
    view.tensorFor row.layer row.role = .ok t ∧ Unpacked source row tensor t

/-- The tensor of every row is that of the source. -/
def RowsGiven (source : Source) (gguf : GgufFile) (view : Opening.OpenedView) : Prop :=
  ∀ id row, packTensorRows[id]? = some row → ∃ tensor t,
    lookup gguf.tensors row.name = some tensor ∧ view.tensor id = .ok t ∧
    Unpacked source row tensor t

/-- The number of a row's tensor is that of its layer and its role. -/
def rowNumbered (row : TensorRow) (id : Nat) : Bool :=
  if row.layer = 0xffff then
    decide (row.role = 1 ∧ id = 0 ∨ row.role = 2 ∧ id = 289 ∨ row.role = 3 ∧ id = 290)
  else decide (row.layer < 24 ∧ 10 ≤ row.role ∧ row.role ≤ 21 ∧
    id = 1 + row.layer * 12 + (row.role - 10))

/-- The rows are numbered as the reader counts. -/
lemma rows_numbered : packTensorRows.zipIdx.all (fun row => rowNumbered row.1 row.2) = true := by
  decide +kernel

/-- A tensor is found by its layer and role. -/
lemma tensorFor_row {view : Opening.OpenedView} {id : Nat} {row : TensorRow}
    (known : packTensorRows[id]? = some row) :
    view.tensorFor row.layer row.role = view.tensor id := by
  have numbered : rowNumbered row id = true :=
    List.all_eq_true.1 rows_numbered (row, id) (List.mk_mem_zipIdx_iff_getElem?.2 known)
  rw [rowNumbered] at numbered
  unfold Opening.OpenedView.tensorFor
  split_ifs at numbered with top
  · rw [if_pos top]
    rcases of_decide_eq_true numbered with ⟨role, rfl⟩ | ⟨role, rfl⟩ | ⟨role, rfl⟩
    all_goals simp only [role]
  · obtain ⟨layer, low, high, rfl⟩ := of_decide_eq_true numbered
    rw [if_neg top, if_pos layer, if_pos ⟨low, high⟩]

/-- What the target and the accessors make of a file that the packer left. -/
lemma packed_opens (parsed : Parsed sha gguf) (of : v.Of gguf.metadata)
    (sections : SectionsOf v small) (file : PackedFile source gguf.tensors small model)
    (types : FrozenTypes v.types) (merges : FrozenMerges v) {rest : List Char}
    (brace : v.template.toList = '{' :: rest) (block : Nat) :
    Opening.openAuthenticated sha (64 * block) model = .ok (Opening.frozenView model) ∧
      GivesBack source gguf v (Opening.frozenView model) ∧
      RowsGiven source gguf (Opening.frozenView model) := by
  obtain ⟨p, q, u, checked⟩ := parsed.metadata
  obtain ⟨sized, hashed, template⟩ := validateMetadata_facts of checked
  have small_sized := sections.sized sized template
  obtain ⟨digest, header⟩ := file.header
  obtain ⟨rows, all, directory⟩ := file.directory
  obtain ⟨entries, placements, placed, supplied, -, body⟩ := file.body
  have holds : Holds model small := by
    refine ⟨file.length, fun w mem => body w ?_⟩
    refine List.mem_append_left _ (List.mem_append_left _ (List.mem_append_left _ ?_))
    exact mem_padded mem
  obtain ⟨result, run_sections⟩ := checkSections_ok file.length small_sized all directory
    (gaps_of_body small_sized body) (Vector.replicate 7 ⟨0, 0⟩) (Nat.zero_add 7)
  have table : model.slice 3952512 entries.flatten.length = entries.flatten := by
    refine body (3952512, entries.flatten) ?_
    refine List.mem_append_left _ (List.mem_append_left _ (List.mem_append_right _ ?_))
    exact mem_padded List.mem_cons_self
  have there : ∀ k entry, entries[k]? = some entry →
      model.slice (Opening.tensorBase (0 + k)) 96 = entry := by
    intro k entry known
    rw [Nat.zero_add]
    exact slice_record placed.length.2 table known
  -- the loop finds each entry where it was laid down
  obtain ⟨loop, moved⟩ := tensorLoop_ok file.length parsed.schemed parsed.measured List.drop_zero
    placed (Nat.le_refl _) (by decide) there
  rw [packTensorRows_length] at loop
  have directories : Opening.openDirectories (64 * block) model = .ok result := by
    refine (Opening.bind_ok (checkHeader_ok file.length header block)).trans ?_
    refine (Opening.bind_ok run_sections).trans ?_
    refine (Opening.bind_ok (check_ok (decide_eq_true rfl))).trans ?_
    have tensors : Opening.validateTensors model = .ok () :=
      (Opening.bind_ok loop).trans (check_ok (decide_eq_true rfl))
    exact Opening.bind_ok tensors
  -- what the checks have established is what the accessors rest on
  obtain ⟨rfl, facts⟩ := Opening.openDirectories_facts directories
  have valid_tokens := validateTokens_ok holds sections sized types hashed
  have tokens := Opening.validateTokens_facts file.length valid_tokens
  have valid : Opening.validateTokenizer sha model frozenSections = .ok () := by
    refine (Opening.bind_ok valid_tokens).trans ?_
    refine (Opening.bind_ok (validateMerges_ok holds sections sized tokens merges hashed)).trans ?_
    exact validateTemplate_ok holds sections small_sized.template brace
  have rows : RowsGiven source gguf (Opening.frozenView model) := by
    intro id row here
    obtain ⟨id_lt, -⟩ := List.getElem?_eq_some_iff.1 here
    have id_small : id < tensorCount := Nat.lt_of_lt_of_eq id_lt packTensorRows_length
    obtain ⟨tensor, same⟩ := moved id _ here
    rw [Nat.zero_add] at same
    refine ⟨tensor, _, same.known, Opening.tensor_ok facts id_small, ?_⟩
    have copied := body _ (List.mem_append_right _ (mem_padded (List.mem_map_of_mem same.placed)))
    constructor
    case role => exact same.passes.role
    case layer => exact same.passes.layer
    case rank => rw [same.passes.source_dims]; exact same.passes.rank
    case dims => rw [same.passes.source_dims]; exact same.passes.dims
    case dtype =>
      obtain ⟨mapped, number, eq⟩ := same.passes.mapped
      rw [same.passes.source_dtype, number, ← eq]
    case data =>
      rw [← slice_file (supplied _ same.placed)]
      rw [length_slice] at copied
      show model.slice _ _ = _
      rw [same.passes.length]
      exact copied
  refine ⟨(Opening.bind_ok directories).trans (Opening.bind_ok valid), ?_, rows⟩
  constructor
  case distinct => exact sections.distinct
  case tokenBytes =>
    intro id token known
    have id_small : id < vocabCount := sized.tokens ▸ (List.getElem?_eq_some_iff.1 known).1
    rw [Opening.tokenBytes_ok tokens file.length id_small, tokenText_eq holds sections sized known]
  case tokenType =>
    intro id value known
    have id_small : id < vocabCount := sized.types ▸ (List.getElem?_eq_some_iff.1 known).1
    obtain ⟨low, high⟩ := sections.bytes value (List.mem_of_getElem? known)
    refine ⟨UInt8.ofNat value.toNat, ?_, ?_⟩
    · rw [Opening.OpenedView.tokenType, if_neg (Nat.not_le.2 id_small), ← type_eq holds sections known]
      exact Opening.byteIn_ok (Opening.checkToken_reads file.length id_small).2
    · rw [UInt8.toNat_ofNat']
      omega
  case merge =>
    intro rank merge known
    have rank_small : rank < mergeCount := sized.merges ▸ (List.getElem?_eq_some_iff.1 known).1
    obtain ⟨table, same, made⟩ := sections.merges
    have lt := (List.getElem?_eq_some_iff.1 known).1
    have lt' : rank < table.length := made.length_eq ▸ lt
    obtain ⟨left, right, text, left_known, right_known, result_known⟩ :=
      (List.forall₂_iff_get.1 made).2 rank lt lt'
    have found := mergeAt_eq holds same (List.getElem?_eq_getElem lt')
    have count : v.tokens.length < 2 ^ 32 := by
      rw [sized.tokens]
      decide
    refine ⟨_, left, right, (Opening.merge_ok file.length rank_small).trans (congrArg _ found), rfl,
      ?_, numbered_get count (mem_of_lookup left_known),
      numbered_get count (mem_of_lookup right_known),
      numbered_get count (mem_of_lookup result_known)⟩
    rw [List.get_eq_getElem] at text
    rw [← text]
    exact (List.getElem?_eq_some_iff.1 known).2.symm
  case template =>
    have piece := holds.pieces (3949952, small.template) (by simp [smallWrites])
    rw [small_sized.template] at piece
    exact (Opening.sectionAt_ok file.length 4).trans
      (congrArg _ (piece.trans sections.template))
  case tensor =>
    intro name tensor known
    obtain ⟨row, mem, rfl⟩ := parsed.listed _ (mem_of_lookup known)
    obtain ⟨id, id_lt, rfl⟩ := List.getElem_of_mem mem
    have here := List.getElem?_eq_getElem id_lt
    obtain ⟨other, t, same, opened, unpacked⟩ := rows id _ here
    obtain rfl : tensor = other := Option.some.inj (known.symm.trans same)
    exact ⟨id, _, t, here, rfl, opened, (tensorFor_row here).trans opened, unpacked⟩

/-- What the packer leaves of a source that the reader accepts. -/
lemma packed_file {stop : Nat} {before after : Output} {u : Unit}
    (read : parseReader (shaIs sha) source 0 = (.ok gguf, stop))
    (packed : pack sha source gguf before = (.ok u, after)) (of : v.Of gguf.metadata) :
    ∃ small, Parsed sha gguf ∧ SectionsOf v small ∧
      PackedFile source gguf.tensors small after.file := by
  have parsed := parseReader_facts read
  obtain ⟨p, q, u, checked⟩ := parsed.metadata
  obtain ⟨sized, _, template⟩ := validateMetadata_facts of checked
  obtain ⟨found, r, laid, _⟩ := Fallible.bind_eq_ok packed
  obtain ⟨small, s, run, _⟩ := Fallible.bind_eq_ok laid
  have sections := tokenizerSections_facts of run
  exact ⟨small, parsed, sections,
    pack_facts parsed.measured run (sections.sized sized template) packed⟩

/-- A template that starts with a brace. -/
lemma brace_first {text : List Char} (brace : text.head? = some '{') : ∃ rest, text = '{' :: rest := by
  cases text with
  | nil => cases brace
  | cons first rest =>
    obtain rfl := Option.some.inj brace
    exact ⟨rest, rfl⟩

/-- A run of the packer on a source that the reader accepts. The token types have the frozen
histogram, the merges the frozen results and the template starts with a brace, as the reader's own
digests pin them. -/
structure PackRun (sha : List UInt8 → Vector UInt8 32) where
  source : Source
  gguf : GgufFile
  stop : Nat
  before : Output
  after : Output
  v : Vocabulary
  read : parseReader (shaIs sha) source 0 = (.ok gguf, stop)
  packed : pack sha source gguf before = (.ok (), after)
  of : v.Of gguf.metadata
  types : FrozenTypes v.types
  merges : FrozenMerges v
  brace : v.template.toList.head? = some '{'

/-- Packing then opening loses nothing: the target opens the file that a run of the packer leaves,
at every aligned address, and its accessors give the source back. -/
theorem pack_roundTrips (run : PackRun sha) (block : Nat) :
    ∃ view, Opening.openAuthenticated sha (64 * block) run.after.file = .ok view ∧
      GivesBack run.source run.gguf run.v view := by
  obtain ⟨small, parsed, sections, file⟩ := packed_file run.read run.packed run.of
  obtain ⟨rest, brace⟩ := brace_first run.brace
  obtain ⟨opened, gives, -⟩ :=
    packed_opens parsed run.of sections file run.types run.merges brace block
  exact ⟨_, opened, gives⟩

/-- An accessor that answers has passed its bound. -/
lemma lt_of_answer {α : Type} {count id : Nat} {error : ModelError} {rest : Opening α} {answer : α}
    (h : (if count ≤ id then Opening.reject error else rest) = .ok answer) : id < count := by
  by_contra past
  rw [if_pos (Nat.not_lt.1 past)] at h
  cases h

/-- The accessors of a view answer for the numbers of a source and for no others, and with what the
source has there. -/
structure AnswersFrom (source : Source) (gguf : GgufFile) (v : Vocabulary)
    (view : Opening.OpenedView) : Prop where
  tokenBytes : ∀ id text, view.tokenBytes id = .ok text ↔
    ∃ token, v.tokens[id]? = some token ∧ text = asBytes token
  tokenType : ∀ id t, view.tokenType id = .ok t ↔ v.types[id]? = some (t.toNat : Int)
  mergeBound : ∀ rank, rank < v.merges.length ↔ ∃ m, view.merge rank = .ok m
  merge : ∀ rank m, view.merge rank = .ok m → ∃ left right,
    v.merges[rank]? = some (left ++ " " ++ right) ∧ m.rank = rank ∧
    v.tokens[m.left.toNat]? = some left ∧ v.tokens[m.right.toNat]? = some right ∧
    v.tokens[m.result.toNat]? = some (left ++ right)
  tensorBound : ∀ id, id < packTensorRows.length ↔ ∃ t, view.tensor id = .ok t
  tensor : ∀ id t, view.tensor id = .ok t → ∃ row tensor, packTensorRows[id]? = some row ∧
    lookup gguf.tensors row.name = some tensor ∧ Unpacked source row tensor t

/-- A view that gives a source of the frozen sizes back answers from it. -/
lemma GivesBack.answersFrom {view : Opening.OpenedView} (gives : GivesBack source gguf v view)
    (rows : RowsGiven source gguf view) (sized : v.Sized) : AnswersFrom source gguf v view := by
  constructor
  case tokenBytes =>
    intro id text
    constructor
    · intro answer
      have inside := sized.tokens.symm ▸ lt_of_answer answer
      have here := List.getElem?_eq_getElem inside
      exact ⟨_, here, Except.ok.inj (answer.symm.trans (gives.tokenBytes id _ here))⟩
    · rintro ⟨token, known, rfl⟩
      exact gives.tokenBytes id token known
  case tokenType =>
    intro id t
    constructor
    · intro answer
      have inside := sized.types.symm ▸ lt_of_answer answer
      have here := List.getElem?_eq_getElem inside
      obtain ⟨other, given, value⟩ := gives.tokenType id _ here
      obtain rfl : t = other := Except.ok.inj (answer.symm.trans given)
      rw [here, value]
    · intro known
      obtain ⟨other, given, value⟩ := gives.tokenType id _ known
      rw [given, UInt8.toNat_inj.1 (Int.ofNat.inj value)]
  case mergeBound =>
    intro rank
    constructor
    · intro inside
      obtain ⟨m, left, right, given, -⟩ := gives.merge rank _ (List.getElem?_eq_getElem inside)
      exact ⟨m, given⟩
    · rintro ⟨m, answer⟩
      exact sized.merges.symm ▸ lt_of_answer answer
  case merge =>
    intro rank m answer
    have inside := sized.merges.symm ▸ lt_of_answer answer
    have here := List.getElem?_eq_getElem inside
    obtain ⟨other, left, right, given, ranked, text, numbers⟩ := gives.merge rank _ here
    obtain rfl : m = other := Except.ok.inj (answer.symm.trans given)
    exact ⟨left, right, text ▸ here, ranked, numbers⟩
  case tensorBound =>
    intro id
    constructor
    · intro inside
      obtain ⟨tensor, t, -, given, -⟩ := rows id _ (List.getElem?_eq_getElem inside)
      exact ⟨t, given⟩
    · rintro ⟨t, answer⟩
      exact packTensorRows_length.symm ▸ lt_of_answer answer
  case tensor =>
    intro id t answer
    have inside : id < packTensorRows.length := packTensorRows_length.symm ▸ lt_of_answer answer
    have here := List.getElem?_eq_getElem inside
    obtain ⟨tensor, other, known, given, unpacked⟩ := rows id _ here
    obtain rfl : t = other := Except.ok.inj (answer.symm.trans given)
    exact ⟨_, tensor, here, known, unpacked⟩

/-- Packing then opening loses nothing and adds nothing: the target opens the file that a run of the
packer leaves, its accessors give the source back, and they answer for nothing else. -/
theorem pack_losesNothing (run : PackRun sha) (block : Nat) :
    ∃ view, Opening.openAuthenticated sha (64 * block) run.after.file = .ok view ∧
      GivesBack run.source run.gguf run.v view ∧
      AnswersFrom run.source run.gguf run.v view := by
  obtain ⟨small, parsed, sections, file⟩ := packed_file run.read run.packed run.of
  obtain ⟨rest, brace⟩ := brace_first run.brace
  obtain ⟨opened, gives, rows⟩ :=
    packed_opens parsed run.of sections file run.types run.merges brace block
  obtain ⟨p, q, u, checked⟩ := parsed.metadata
  have sized := (validateMetadata_facts run.of checked).1
  exact ⟨_, opened, gives, gives.answersFrom rows sized⟩

end RoundTrip

end Promptboot.Pack
