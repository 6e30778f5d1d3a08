import Promptboot.Tools.PackTokenizer

/-!
# The packed directories pass

The header, the directory of the sections and the entries of the tensors that the packer wrote are
those that the target asks for, and each tensor has the payload of the source's.

The helper `header_field` reads a word of the header back and `words_small` says that it fits its
width; `checkHeader_ok`, `checkSections_ok` and `tensorLoop_ok` are the target's three checks, the
last by induction on the rows, whose payloads `stopBefore_succ` places one behind the other.
-/

namespace Promptboot.Pack
open Buffer Gguf ContainerInspect

section Header
variable {model : Buffer} {digest : Vector UInt8 32}

/-- What is written into the header. -/
def headerWrites (digest : Vector UInt8 32) : List Write :=
  [(0, Opening.magic)] ++ headerWords.map (fun field => (field.1, leBytes 4 field.2)) ++
    (headerLongs modelBytes).map (fun field => (field.1, leBytes 8 field.2)) ++
    [(0x80, sourceSha256), (0xa0, digest.toList)]

/-- The header is its writes over zeros. -/
lemma header_eq : header modelBytes digest =
    ((Buffer.zeros 256).layDown (headerWrites digest)).slice 0 256 := rfl

/-- The places of the header's fields. -/
lemma headerWrites_place : (headerWrites digest).map place =
    [(0, 8), (8, 4), (12, 4), (16, 4), (20, 4), (24, 4), (28, 4), (32, 4), (36, 4), (40, 4), (44, 4),
      (48, 4), (52, 4), (56, 4), (60, 4), (64, 4), (68, 4), (72, 4), (76, 4), (80, 8), (88, 8),
      (96, 8), (104, 8), (112, 8), (120, 8), (128, 32), (160, 32)] := by
  simp [headerWrites, headerWords, headerLongs, place, Opening.magic, sourceSha256]

/-- The fields of the header are apart. -/
lemma apart_header : (headerWrites digest).Pairwise Apart := by
  have laid : Laid 0 ((headerWrites digest).map place) 256 := by
    rw [headerWrites_place]
    simp [Laid]
  exact laid.apart

/-- A field that was written is there. -/
lemma header_field (h : model.slice 0 256 = header modelBytes digest) {w : Write}
    (mem : w ∈ headerWrites digest) : model.slice w.1 w.2.length = w.2 := by
  have within : w.1 + w.2.length ≤ 256 := by
    have there := List.mem_map_of_mem (f := place) mem
    rw [headerWrites_place] at there
    have all : ∀ e ∈ [((0 : Nat), (8 : Nat)), (8, 4), (12, 4), (16, 4), (20, 4), (24, 4), (28, 4),
        (32, 4), (36, 4), (40, 4), (44, 4), (48, 4), (52, 4), (56, 4), (60, 4), (64, 4), (68, 4),
        (72, 4), (76, 4), (80, 8), (88, 8), (96, 8), (104, 8), (112, 8), (120, 8), (128, 32),
        (160, 32)], e.1 + e.2 ≤ 256 := by
      decide
    exact all _ there
  rw [header_eq] at h
  have field := slice_field h apart_header mem within
  rwa [Nat.zero_add] at field

/-- The end of the header is zero. -/
lemma header_unused (h : model.slice 0 256 = header modelBytes digest) :
    model.slice 192 64 = List.replicate 64 0 := by
  rw [header_eq] at h
  refine slice_unused 192 64 h (fun w mem => ?_) (Nat.le_refl _)
  have there := List.mem_map_of_mem (f := place) mem
  rw [headerWrites_place] at there
  refine .inl ?_
  revert there
  generalize place w = e
  revert e
  decide

/-- The expected words are among those written. -/
lemma words_small : Opening.expected32.all (fun field =>
    (field.1, field.2.1) ∈ headerWords ∧ field.1 + 4 ≤ 256 ∧ field.2.1 < 2 ^ 32) = true := by
  decide

/-- The expected double words are among those written. -/
lemma longs_small : Opening.expected64.all (fun field =>
    field ∈ headerLongs modelBytes ∧ field.1 + 8 ≤ 256 ∧ field.2 < 2 ^ 64) = true := by
  decide

/-- The target's checks of the header pass, at every aligned address. -/
lemma checkHeader_ok (length : model.length = modelBytes)
    (h : model.slice 0 256 = header modelBytes digest) (block : Nat) :
    Opening.checkHeader (64 * block) model = .ok () := by
  have inside {stop : Nat} (small : stop ≤ 256) : stop ≤ model.length := by
    rw [length, modelBytes]
    omega
  have aligned : 64 * block % 64 = 0 := Nat.mul_mod_right _ _
  have magic : model.slice 0 8 = Opening.magic :=
    header_field h (w := (0, Opening.magic)) (by simp [headerWrites])
  have source : model.slice 128 32 = Opening.sourceHash :=
    header_field h (w := (0x80, sourceSha256)) (by simp [headerWrites])
  have words : Opening.expected32.forM (Opening.checkField32 model) = .ok () := by
    refine forM_ok fun field mem => ?_
    obtain ⟨known, bound, small⟩ := of_decide_eq_true (List.all_eq_true.1 words_small field mem)
    obtain ⟨offset, expected, kind, status⟩ := field
    have there := header_field h (w := (offset, leBytes 4 expected)) (by
      refine List.mem_append_left _ (List.mem_append_left _ (List.mem_append_right _ ?_))
      exact List.mem_map_of_mem (f := fun field : Nat × Nat => (field.1, leBytes 4 field.2)) known)
    rw [length_leBytes] at there
    have value := u32At_of_slice there small
    rw [Opening.checkField32, Opening.bind_ok (Opening.u32In_ok (inside bound)),
      decide_eq_true value]
    rfl
  have longs : Opening.expected64.forM (Opening.checkField64 model) = .ok () := by
    refine forM_ok fun field mem => ?_
    obtain ⟨known, bound, small⟩ := of_decide_eq_true (List.all_eq_true.1 longs_small field mem)
    obtain ⟨offset, expected⟩ := field
    have there := header_field h (w := (offset, leBytes 8 expected)) (by
      refine List.mem_append_left _ (List.mem_append_right _ ?_)
      exact List.mem_map_of_mem (f := fun field : Nat × Nat => (field.1, leBytes 8 field.2)) known)
    rw [length_leBytes] at there
    have value := u64At_of_slice there small
    rw [Opening.checkField64, Opening.bind_ok (Opening.u64In_ok (inside bound)),
      decide_eq_true value]
    rfl
  rw [Opening.checkHeader, decide_eq_true length, decide_eq_true aligned]
  refine (Opening.bind_ok (compareFrom_ok (fun _ => inside (by decide)) magic)).trans ?_
  refine (Opening.bind_ok words).trans ((Opening.bind_ok longs).trans ?_)
  refine (Opening.bind_ok (compareFrom_ok (fun _ => inside (by decide)) source)).trans ?_
  exact compareFrom_ok (fun _ => inside (by decide)) (header_unused h)

end Header

section Directory
variable {model : Buffer} {small : Sections}

/-- What is written into the entry of a section. -/
def entryWrites (id element count offset length : Nat) (digest : Vector UInt8 32) : List Write :=
  [(0, leBytes 4 id), (4, leBytes 4 element), (8, leBytes 8 count), (16, leBytes 8 offset),
    (24, leBytes 8 length), (32, digest.toList)]

/-- The fields of a section's entry are apart. -/
lemma apart_entry {id element count offset length : Nat} {digest : Vector UInt8 32} :
    (entryWrites id element count offset length digest).Pairwise Apart := by
  have laid : Laid 0 ((entryWrites id element count offset length digest).map place) 64 := by
    simp [entryWrites, place, Laid]
  exact laid.apart

/-- The entry of a section says what was written into it. -/
lemma entryAt {base id element count offset length : Nat} {digest : Vector UInt8 32}
    (h : model.slice base 64 = sectionEntry id element count offset length digest)
    (id_small : id < 2 ^ 32) (element_small : element < 2 ^ 32) (count_small : count < 2 ^ 64)
    (offset_small : offset < 2 ^ 64) (length_small : length < 2 ^ 64) :
    EntryAt model base ⟨id, element, count, offset, length, digest.toList⟩ := by
  have there : model.slice base 64 =
      ((Buffer.zeros 64).layDown (entryWrites id element count offset length digest)).slice 0 64 := h
  have field {w : Write} (mem : w ∈ entryWrites id element count offset length digest)
      (within : w.1 + w.2.length ≤ 64) : model.slice (base + w.1) w.2.length = w.2 :=
    slice_field there apart_entry mem within
  constructor
  · exact (u32At_of_slice (field (w := (0, leBytes 4 id)) (by simp [entryWrites]) (by simp))
      id_small).symm
  · exact (u32At_of_slice (field (w := (4, leBytes 4 element)) (by simp [entryWrites]) (by simp))
      element_small).symm
  · exact (u64At_of_slice (field (w := (8, leBytes 8 count)) (by simp [entryWrites]) (by simp))
      count_small).symm
  · exact (u64At_of_slice (field (w := (16, leBytes 8 offset)) (by simp [entryWrites]) (by simp))
      offset_small).symm
  · exact (u64At_of_slice (field (w := (24, leBytes 8 length)) (by simp [entryWrites]) (by simp))
      length_small).symm

/-- The definition of a frozen section. -/
def frozenRow (k : Fin 7) : Nat × Nat × Nat × Nat × Nat :=
  (k + 1, Opening.ofSection Opening.sectionTypes k, Opening.ofSection Opening.sectionCounts k,
    (frozenExtent k).1, (frozenExtent k).2)

/-- The definitions of the sections are the frozen rows. -/
lemma frozenDefinitions_eq (sized : small.Sized) :
    frozenDefinitions small = (List.finRange 7).map frozenRow := by
  simp only [frozenDefinitions, definitions, sized.offsets, sized.texts, sized.types, sized.merges,
    sized.template]
  decide

/-- Every section has its entry in the directory. -/
lemma entry_there {rows : List (List UInt8)} (sized : small.Sized)
    (all : List.Forall₂ IsEntry (frozenDefinitions small) rows)
    (h : model.slice 256 rows.flatten.length = rows.flatten) (k : Fin 7) :
    ∃ digest, model.slice (256 + k * 64) 64 =
      sectionEntry (frozenRow k).1 (frozenRow k).2.1 (frozenRow k).2.2.1 (frozenRow k).2.2.2.1
        (frozenRow k).2.2.2.2 digest := by
  rw [frozenDefinitions_eq sized] at all
  have count : rows.length = 7 := by
    rw [← all.length_eq]
    rfl
  have sizes : ∀ row ∈ rows, row.length = 64 := by
    intro row mem
    obtain ⟨i, lt, rfl⟩ := List.getElem_of_mem mem
    have lt' : i < ((List.finRange 7).map frozenRow).length := by
      rw [all.length_eq]
      exact lt
    obtain ⟨digest, same⟩ := (List.forall₂_iff_get.1 all).2 i lt' lt
    rw [List.get_eq_getElem, List.get_eq_getElem] at same
    rw [same]
    exact length_sectionEntry
  have lt : (k : Nat) < rows.length := by
    rw [count]
    exact k.isLt
  have lt' : (k : Nat) < ((List.finRange 7).map frozenRow).length := by
    rw [all.length_eq]
    exact lt
  obtain ⟨digest, same⟩ := (List.forall₂_iff_get.1 all).2 k lt' lt
  rw [List.get_eq_getElem, List.get_eq_getElem, List.getElem_map, List.getElem_finRange] at same
  have record := slice_record sizes h (List.getElem?_eq_getElem lt)
  exact ⟨digest, record.trans same⟩

/-- Where the sections end, the first room before them included. -/
def stops : List Nat := [704, 608452, 1981270, 2133248, 3949892, 3952461, 3980448, 426762944]

/-- Where the section before a section ends. -/
def stopBefore (index : Nat) : Nat := stops.getD index 0

/-- A section starts behind the one before it. -/
lemma stopBefore_le : ∀ k : Fin 7, stopBefore k ≤ (frozenExtent k).1 := by decide

/-- The next section comes behind this one's end. -/
lemma stopBefore_succ : ∀ k : Fin 7,
    stopBefore (k + 1) = (frozenExtent k).1 + (frozenExtent k).2 := by
  decide

/-- What lies before a section is zero. -/
def Gaps (model : Buffer) : Prop :=
  ∀ k : Fin 7, model.slice (stopBefore k) ((frozenExtent k).1 - stopBefore k) =
    List.replicate ((frozenExtent k).1 - stopBefore k) 0

/-- The fields of the frozen rows fit. -/
lemma row_small : ∀ k : Fin 7, (frozenRow k).1 < 2 ^ 32 ∧ (frozenRow k).2.1 < 2 ^ 32 ∧
    (frozenRow k).2.2.1 < 2 ^ 64 ∧ (frozenRow k).2.2.2.1 < 2 ^ 64 ∧
    (frozenRow k).2.2.2.2 < 2 ^ 64 := by
  decide

/-- Between the sections there are zeros. -/
lemma gaps_of_body {source : Source} {entries : List (List UInt8)} {placements : List Placement}
    (sized : small.Sized) (body : ∀ w ∈ bodyWrites source small entries placements,
      model.slice w.1 w.2.length = w.2) : Gaps model := by
  have gap (position target : Nat)
      (mem : zerosTo position target ∈ bodyWrites source small entries placements) :
      model.slice position (target - position) = List.replicate (target - position) 0 := by
    have there := body _ mem
    rwa [List.length_replicate] at there
  rintro ⟨_ | _ | _ | _ | _ | _ | _ | k, lt⟩
  case succ.succ.succ.succ.succ.succ.succ => omega
  · exact gap 704 704 (by simp [bodyWrites, smallWrites, padded])
  · exact gap 608452 608512
      (by simp [bodyWrites, smallWrites, padded, sized.offsets])
  · exact gap 1981270 1981312
      (by simp [bodyWrites, smallWrites, padded, sized.texts])
  · exact gap 2133248 2133248
      (by simp [bodyWrites, smallWrites, padded, sized.types])
  · exact gap 3949892 3949952
      (by simp [bodyWrites, smallWrites, padded, sized.merges])
  · exact gap 3952461 3952512 (by simp [bodyWrites, padded])
  · exact gap 3980448 3980480 (by simp [bodyWrites])

/-- The target's loop over the directory passes from any section on, and ends with the file. -/
lemma checkSections_ok {rows : List (List UInt8)} (length : model.length = modelBytes)
    (sized : small.Sized) (all : List.Forall₂ IsEntry (frozenDefinitions small) rows)
    (h : model.slice 256 rows.flatten.length = rows.flatten) (gaps : Gaps model)
    {left index : Nat} (found : Vector Section 7) (total : index + left = 7) :
    ∃ result, Opening.checkSections model ((List.finRange 7).drop index) found (stopBefore index) =
      .ok (result, modelBytes) := by
  induction left generalizing index found with
  | zero =>
    obtain rfl : index = 7 := total
    exact ⟨found, rfl⟩
  | succ left ih =>
    have lt : index < 7 := by omega
    obtain ⟨digest, record⟩ := entry_there sized all h ⟨index, lt⟩
    obtain ⟨id, element, count, offset, size⟩ := row_small ⟨index, lt⟩
    have entry := entryAt record id element count offset size
    have turn := checkSection_ok length entry rfl rfl rfl rfl rfl (stopBefore_le ⟨index, lt⟩)
      (gaps ⟨index, lt⟩)
    have total : index + 1 + left = 7 := by omega
    obtain ⟨result, rest⟩ :=
      ih (found.set index (Opening.ofSection frozenSections ⟨index, lt⟩)) total
    refine ⟨result, ?_⟩
    have next : (List.finRange 7).drop index =
        ⟨index, lt⟩ :: (List.finRange 7).drop (index + 1) := by
      rw [List.drop_eq_getElem_cons (by simpa using lt)]
      simp
    rw [next, Opening.checkSections, Opening.bind_ok turn]
    have stop : stopBefore (index + 1) = _ := stopBefore_succ ⟨index, lt⟩
    rw [stop] at rest
    exact rest

end Directory

section Tensors
variable {model : Buffer} {source : Source} {tensors : List (String × Tensor)}

/-- What is written into the entry of a tensor. -/
def tensorWrites (id : Nat) (row : TensorRow) (dtype destination length : Nat)
    (hash : Vector UInt8 32) : List Write :=
  [(0, leBytes 4 id), (4, leBytes 2 row.layer), (6, leBytes 2 row.role), (8, leBytes 4 dtype),
    (12, leBytes 4 row.dims.length), (16, leBytes 4 (row.dims.getD 0 1)),
    (20, leBytes 4 (row.dims.getD 1 1)), (24, leBytes 4 (row.dims.getD 2 1)),
    (28, leBytes 4 (row.dims.getD 3 1)), (32, leBytes 8 destination), (40, leBytes 8 length),
    (48, hash.toList)]

variable {id dtype destination length : Nat} {row : TensorRow} {hash : Vector UInt8 32}

/-- A tensor's entry is its writes over zeros. -/
lemma tensorEntry_eq : tensorEntry id row dtype destination length hash =
    ((Buffer.zeros 96).layDown (tensorWrites id row dtype destination length hash)).slice 0 96 :=
  rfl

/-- The places of an entry's fields. -/
lemma tensorWrites_place : (tensorWrites id row dtype destination length hash).map place =
    [(0, 4), (4, 2), (6, 2), (8, 4), (12, 4), (16, 4), (20, 4), (24, 4), (28, 4), (32, 8), (40, 8),
      (48, 32)] := by
  simp [tensorWrites, place]

/-- The fields of a tensor's entry are apart. -/
lemma apart_tensor : (tensorWrites id row dtype destination length hash).Pairwise Apart := by
  have laid : Laid 0 ((tensorWrites id row dtype destination length hash).map place) 96 := by
    rw [tensorWrites_place]
    simp [Laid]
  exact laid.apart

/-- A row whose numbers fit their fields. -/
def rowSmall (row : TensorRow) : Bool :=
  decide (row.layer < 2 ^ 16 ∧ row.role < 2 ^ 16 ∧ row.dims.length < 2 ^ 32 ∧
    row.dims.getD 0 1 < 2 ^ 32 ∧ row.dims.getD 1 1 < 2 ^ 32 ∧ row.dims.getD 2 1 < 2 ^ 32 ∧
    row.dims.getD 3 1 < 2 ^ 32 ∧ paddedDims row.dims =
      [row.dims.getD 0 1, row.dims.getD 1 1, row.dims.getD 2 1, row.dims.getD 3 1])

/-- The fields of the rows fit. -/
lemma rows_small : packTensorRows.all rowSmall = true := by
  decide +kernel

/-- The entry that was written says what the inspector's and the target's checks ask for. -/
lemma rowPasses {tensor : Tensor} (small : rowSmall row = true) (id_small : id < tensorCount)
    (mapped : mappedDtype row.dtype = some dtype)
    (dims : tensor.dims = row.dims) (dtype_eq : tensor.dtype = row.dtype)
    (aligned : destination % 64 = 0) (stop : destination + tensor.length ≤ modelBytes)
    (h : model.slice (Opening.tensorBase id) 96 =
      tensorEntry id row dtype destination tensor.length hash) :
    RowPasses model id row tensor destination ∧
      Opening.tensorExtent model id = (destination, tensor.length) := by
  obtain ⟨layer_small, role_small, rank_small, dim0, dim1, dim2, dim3, padded_eq⟩ :=
    of_decide_eq_true small
  have dtype_small : dtype < 2 ^ 32 := by
    rw [mappedDtype] at mapped
    split_ifs at mapped
    all_goals cases mapped
    all_goals decide
  unfold modelBytes at stop
  unfold tensorCount at id_small
  rw [tensorEntry_eq] at h
  -- a field of the entry is read back from where it was laid down
  have field {offset : Nat} {bytes : List UInt8}
      (mem : (offset, bytes) ∈ tensorWrites id row dtype destination tensor.length hash)
      (within : offset + bytes.length ≤ 96) :
      model.slice (Opening.tensorBase id + offset) bytes.length = bytes :=
    slice_field h apart_tensor mem within
  have number (offset : Nat) {value : Nat}
      (mem : (offset, leBytes 4 value) ∈ tensorWrites id row dtype destination tensor.length hash)
      (within : offset + 4 ≤ 96) (small : value < 2 ^ 32) :
      (Memory.u32At model.byte (Opening.tensorBase id + offset)).toNat = value := by
    have there := field mem (by rw [length_leBytes]; exact within)
    rw [length_leBytes] at there
    exact u32At_of_slice there small
  have short {offset value : Nat}
      (mem : (offset, leBytes 2 value) ∈ tensorWrites id row dtype destination tensor.length hash)
      (within : offset + 2 ≤ 96) (small : value < 2 ^ 16) :
      u16At model.byte (Opening.tensorBase id + offset) = value := by
    have there := field mem (by rw [length_leBytes]; exact within)
    rw [length_leBytes] at there
    exact u16At_of_slice there small
  have long {offset value : Nat}
      (mem : (offset, leBytes 8 value) ∈ tensorWrites id row dtype destination tensor.length hash)
      (within : offset + 8 ≤ 96) (small : value < 2 ^ 64) :
      u64At model.byte (Opening.tensorBase id + offset) = value := by
    have there := field mem (by rw [length_leBytes]; exact within)
    rw [length_leBytes] at there
    exact u64At_of_slice there small
  have start : u64At model.byte (Opening.tensorBase id + 32) = destination :=
    long (by simp [tensorWrites]) (by decide) (by omega)
  have size : u64At model.byte (Opening.tensorBase id + 40) = tensor.length :=
    long (by simp [tensorWrites]) (by decide) (by omega)
  have extent : Opening.tensorExtent model id = (destination, tensor.length) :=
    Prod.ext start size
  refine ⟨⟨⟨dtype, mapped, ?_⟩, ?_, ?_, ?_, ?_, ?_, dims, dtype_eq, ?_, ?_, ?_, ?_⟩, extent⟩
  · exact number 8 (by simp [tensorWrites]) (by decide) dtype_small
  · exact number 0 (by simp [tensorWrites]) (by decide) (by omega)
  · exact short (by simp [tensorWrites]) (by decide) layer_small
  · exact short (by simp [tensorWrites]) (by decide) role_small
  · exact number 12 (by simp [tensorWrites]) (by decide) rank_small
  · rw [padded_eq]
    refine (toList_map_four ..).trans ?_
    congr 1
    · exact number 16 (by simp [tensorWrites]) (by decide) dim0
    congr 1
    · exact number 20 (by simp [tensorWrites]) (by decide) dim1
    congr 1
    · exact number 24 (by simp [tensorWrites]) (by decide) dim2
    congr 1
    · exact number 28 (by simp [tensorWrites]) (by decide) dim3
  · rw [extent]
  · rw [extent]
    exact aligned
  · exact Nat.le_of_eq (by rw [extent])
  -- no field reaches into the last sixteen bytes
  · refine slice_unused 80 16 h (fun w mem => .inl ?_) (Nat.le_refl _)
    have there := List.mem_map_of_mem (f := place) mem
    rw [tensorWrites_place] at there
    revert there
    generalize place w = e
    revert e
    decide

/-- The source's tensors have the dimensions and the types of the frozen rows. -/
def Schemed (tensors : List (String × Tensor)) : Prop :=
  ∀ row ∈ packTensorRows, ∃ tensor, lookup tensors row.name = some tensor ∧
    tensor.dims = row.dims ∧ tensor.dtype = row.dtype

/-- What became of a row's tensor. -/
structure Moved (model : Buffer) (tensors : List (String × Tensor)) (placements : List Placement)
    (id : Nat) (row : TensorRow) (tensor : Tensor) : Prop where
  known : lookup tensors row.name = some tensor
  passes : RowPasses model id row tensor (Opening.tensorExtent model id).1
  placed : ⟨tensor.offset, (Opening.tensorExtent model id).1, tensor.length⟩ ∈ placements

/-- The target's loop over the tensors passes from any row on. -/
lemma tensorLoop_ok {rows : List TensorRow} {cursor last : Nat} {entries : List (List UInt8)}
    {placements : List Placement} (length : model.length = modelBytes) (schemed : Schemed tensors)
    (measured : Measured tensors) (suffix : packTensorRows.drop id = rows)
    (placed : Placed tensors rows id cursor entries placements last) (ends : last ≤ modelBytes)
    (aligned : cursor % 64 = 0)
    (there : ∀ k entry, entries[k]? = some entry →
      model.slice (Opening.tensorBase (id + k)) 96 = entry) :
    Opening.tensorLoop model rows.length id cursor = .ok last ∧
      ∀ k row, rows[k]? = some row → ∃ tensor, Moved model tensors placements (id + k) row tensor := by
  -- on the rows from `id` on, the cursor being where the ones before them end
  induction placed with
  | nil => exact ⟨rfl, fun k row mem => nomatch mem⟩
  | @cons row rows id cursor dtype last tensor hash entries placements known mapped rest ih =>
    have here : packTensorRows[id]? = some row := by
      have head := congrArg (fun list => list[0]?) suffix
      simpa using head
    have mem := List.mem_of_getElem? here
    have id_small : id < tensorCount := by
      rw [← rows_length]
      exact (List.getElem?_eq_some_iff.1 here).1
    have next : packTensorRows.drop (id + 1) = rows := by
      rw [← List.tail_drop, suffix, List.tail_cons]
    have sized := measured row mem tensor known
    have lengths : ∀ row ∈ rows, ∀ tensor, lookup tensors row.name = some tensor →
        tensor.length = rowLength row := by
      intro row later
      rw [← next] at later
      exact measured row (List.mem_of_mem_drop later)
    have stop := rest.last_eq lengths
    have stop : cursor + tensor.length ≤ modelBytes := by omega
    obtain ⟨other, same, dims, dtype_eq⟩ := schemed row mem
    obtain rfl : tensor = other := Option.some.inj (known.symm.trans same)
    obtain ⟨passes, extent⟩ := rowPasses (List.all_eq_true.1 rows_small row mem) id_small mapped dims
      dtype_eq aligned stop (there 0 _ rfl)
    have fits := List.all_eq_true.1 rows_fit (row, id) (List.mk_mem_zipIdx_iff_getElem?.2 here)
    have multiple := of_decide_eq_true (List.all_eq_true.1 rows_aligned row mem)
    have start : (Opening.tensorExtent model id).1 = cursor := by rw [extent]
    have turn : Opening.checkTensor model id cursor = .ok (cursor + tensor.length) := by
      rw [sized]
      exact checkTensor_ok length id_small fits sized passes start (by rw [← sized]; exact stop)
    obtain ⟨loop, others⟩ := ih next ends (by omega) fun k entry mem => by
      have later := there (k + 1) entry mem
      rwa [← Nat.add_assoc, Nat.add_right_comm] at later
    refine ⟨(Opening.bind_ok turn).trans loop, fun k found known_row => ?_⟩
    cases k with
    | zero =>
      obtain rfl := Option.some.inj known_row
      refine ⟨tensor, known, ?_, ?_⟩
      · rw [Nat.add_zero, start]
        exact passes
      · rw [Nat.add_zero, start]
        exact List.mem_cons_self
    | succ k =>
      obtain ⟨tensor, moved⟩ := others k found known_row
      rw [Nat.add_succ, ← Nat.succ_add]
      exact ⟨tensor, moved.known, moved.passes, List.mem_cons_of_mem _ moved.placed⟩

/-- A payload lies in the source. -/
lemma slice_file {offset length : Nat} (inside : length = 0 ∨ offset + length ≤ source.bytes.length) :
    source.file.slice offset length = (source.bytes.drop offset).take length := by
  rcases inside with rfl | inside
  · rw [List.take_zero]
    rfl
  · apply List.ext_getElem
    · rw [length_slice, List.length_take, List.length_drop]
      omega
    · intro i lt _
      have lt : i < length := by simpa using lt
      simp only [Buffer.slice, Source.file, List.getElem_map, List.getElem_range, List.getElem_take,
        List.getElem_drop]
      exact (List.getElem_eq_getD 0).symm

end Tensors

end Promptboot.Pack
