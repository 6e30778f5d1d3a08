import Promptboot.Tools.ContainerFacts
import Promptboot.Tools.GgufAgree

/-!
# What the container inspector passes in the tensors

The inspector only asks a tensor to begin at an aligned place behind the one before it. The lengths
of the tensors are those of the source and add up to the room that the file has for them, so each
begins where the one before it ends, as the target asks.

`sourceTensors_sizes` says that the rows of the source have the lengths of their shapes, and
`rows_total` is their sum. `validateTensorLayout_facts` is the inspector's check, `RowPasses` what
it means for a row, and `checkTensor_ok` the target's.
-/

namespace Promptboot

namespace SourceReader
variable {source : Source} {p q : Nat}

/-- The bytes of a tensor of a type that there is. -/
def sizeOf (dtype elements : Nat) : Nat :=
  if dtype = 0 then elements * 4 else if dtype = 2 then elements / 32 * 18 else elements / 32 * 34

/-- The bytes of a tensor are those of its elements. -/
lemma tensorBytes_facts {dtype count length : Nat}
    (h : tensorBytes dtype count p = (.ok length, q)) : length = sizeOf dtype count := by
  rw [tensorBytes] at h
  rw [sizeOf]
  split at h
  case isTrue zero =>
    rw [if_pos zero]
    exact (checkedMul_eq_ok h).2.1
  case isFalse other =>
    rw [if_neg other]
    split at h
    case isTrue two =>
      rw [if_pos two.1]
      exact (checkedMul_eq_ok h).2.1
    case isFalse _ =>
      split at h
      case isTrue eight =>
        rw [if_neg (by omega)]
        exact (checkedMul_eq_ok h).2.1
      case isFalse _ => cases h

/-- The product read is that of the dimensions. -/
lemma readDims_facts {rank start product : Nat} {dims : List Nat}
    (h : readDims source rank start p = (.ok (dims, product), q)) :
    product = start * dims.prod := by
  induction rank generalizing start dims p with
  | zero =>
    cases h
    rw [List.prod_nil, Nat.mul_one]
  | succ rank ih =>
    obtain ⟨dim, r, _, h1⟩ := Fallible.bind_eq_ok h
    obtain ⟨_, h2⟩ := require_bind_eq_ok h1
    obtain ⟨count, t, step, h3⟩ := Fallible.bind_eq_ok h2
    obtain ⟨-, rfl, rfl⟩ := checkedMul_eq_ok step
    obtain ⟨⟨rest, total⟩, u, later, h4⟩ := Fallible.bind_eq_ok h3
    cases h4
    rw [ih later, List.prod_cons, Nat.mul_assoc]

/-- The length of a tensor is the one of its dimensions and its type. -/
lemma readInfos_facts {count : Nat} {infos result : List Gguf.TensorInfo}
    (known : ∀ info ∈ infos, info.length = sizeOf info.dtype info.dims.prod)
    (h : readInfos source count infos p = (.ok result, q)) :
    ∀ info ∈ result, info.length = sizeOf info.dtype info.dims.prod := by
  induction count generalizing infos p with
  | zero =>
    cases h
    exact known
  | succ count ih =>
    obtain ⟨name, p1, _, h1⟩ := Fallible.bind_eq_ok h
    obtain ⟨_, h2⟩ := require_bind_eq_ok h1
    obtain ⟨rank, p2, _, h3⟩ := Fallible.bind_eq_ok h2
    obtain ⟨_, h4⟩ := require_bind_eq_ok h3
    obtain ⟨⟨dims, elements⟩, p3, shape, h5⟩ := Fallible.bind_eq_ok h4
    obtain ⟨dtype, p4, _, h6⟩ := Fallible.bind_eq_ok h5
    obtain ⟨relative, p5, _, h7⟩ := Fallible.bind_eq_ok h6
    obtain ⟨length, p6, bytes, later⟩ := Fallible.bind_eq_ok h7
    refine ih (fun info mem => ?_) later
    rcases List.mem_append.1 mem with old | new
    · exact known info old
    · obtain rfl := List.mem_singleton.1 new
      have product := readDims_facts shape
      rw [Nat.one_mul] at product
      show length = sizeOf dtype dims.prod
      rw [← product]
      exact tensorBytes_facts bytes

/-- Placed tensors have the bytes of their elements. -/
lemma placeTensors_facts {dataStart size : Nat} {infos : List Gguf.TensorInfo}
    {tensors : List (String × Tensor)}
    (known : ∀ info ∈ infos, info.length = sizeOf info.dtype info.dims.prod)
    (h : placeTensors dataStart size infos p = (.ok tensors, q)) :
    ∀ row ∈ tensors, row.2.length = sizeOf row.2.dtype row.2.dims.prod := by
  induction infos generalizing tensors p with
  | nil =>
    cases h
    exact fun _ mem => nomatch mem
  | cons info infos ih =>
    obtain ⟨offset, p1, _, h1⟩ := Fallible.bind_eq_ok h
    obtain ⟨stop, p2, _, h2⟩ := Fallible.bind_eq_ok h1
    obtain ⟨_, h3⟩ := require_bind_eq_ok h2
    obtain ⟨rest, p3, later, h4⟩ := Fallible.bind_eq_ok h3
    cases h4
    intro row mem
    rcases List.mem_cons.1 mem with rfl | other
    · exact known info List.mem_cons_self
    · exact ih (fun info mem => known info (List.mem_cons_of_mem _ mem)) later row other

/-- Every tensor of a source has the length of its dimensions and its type. -/
lemma sourceTensors_sizes {tensors : List (String × Tensor)}
    (h : sourceTensors source p = (.ok tensors, q)) :
    ∀ row ∈ tensors, row.2.length = sizeOf row.2.dtype row.2.dims.prod := by
  obtain ⟨_, p1, _, h1⟩ := Fallible.bind_eq_ok h
  obtain ⟨_, h2⟩ := require_bind_eq_ok h1
  obtain ⟨_, p2, _, h3⟩ := Fallible.bind_eq_ok h2
  obtain ⟨_, h4⟩ := require_bind_eq_ok h3
  obtain ⟨_, p3, _, h5⟩ := Fallible.bind_eq_ok h4
  obtain ⟨_, p4, _, h6⟩ := Fallible.bind_eq_ok h5
  obtain ⟨_, h7⟩ := require_bind_eq_ok h6
  obtain ⟨_, p5, _, h8⟩ := Fallible.bind_eq_ok h7
  obtain ⟨infos, p6, read, h9⟩ := Fallible.bind_eq_ok h8
  obtain ⟨_, p7, _, h10⟩ := Fallible.bind_eq_ok h9
  obtain ⟨_, h11⟩ := require_bind_eq_ok h10
  obtain ⟨_, p8, _, h12⟩ := Fallible.bind_eq_ok h11
  obtain ⟨rows, p9, placed, h13⟩ := Fallible.bind_eq_ok h12
  obtain ⟨_, h14⟩ := require_bind_eq_ok h13
  cases h14
  have none : ∀ info ∈ ([] : List Gguf.TensorInfo), info.length = sizeOf info.dtype info.dims.prod :=
    fun _ mem => nomatch mem
  exact placeTensors_facts (readInfos_facts none read) placed

end SourceReader

namespace ContainerInspect
open Buffer Gguf

section Rows

/-- The bytes of a row's tensor. -/
def rowLength (row : TensorRow) : Nat := SourceReader.sizeOf row.dtype row.dims.prod

/-- A row of the inspector says what the target's table says. -/
def rowFits (row : TensorRow) (schema : Opening.TensorSchema) : Bool :=
  decide (row.layer = schema.layer ∧ row.role = schema.role ∧
    mappedDtype row.dtype = some schema.dtype ∧ row.dims.length = schema.rank ∧
    paddedDims row.dims = schema.dims.toList ∧
    Opening.blockLength schema.dtype schema.elements = rowLength row)

/-- The inspector's rows fit the reader's schema. -/
lemma rows_fit : inspectorTensorRows.zipIdx.all
    (fun row => rowFits row.1 (Opening.expectedTensor row.2)) = true := by
  decide +kernel

/-- The payloads of the rows fill the tensor data. -/
lemma rows_total : (inspectorTensorRows.map rowLength).sum = 422782464 := by
  decide +kernel

/-- There is a row for every tensor. -/
lemma rows_length : inspectorTensorRows.length = tensorCount := packTensorRows_length

end Rows

section Entries
variable {model : Buffer} {p q : Nat}

/-- What an entry of the tensor directory says. -/
structure TensorEntry (model : Buffer) (id : Nat) (fields : TensorFields) : Prop where
  number : fields.id = (ModelView.tensorMetaAt model.byte id).id.toNat
  layer : fields.layer = (ModelView.tensorMetaAt model.byte id).layer
  role : fields.role = (ModelView.tensorMetaAt model.byte id).role
  dtype : fields.dtype = (ModelView.tensorMetaAt model.byte id).dtype.toNat
  rank : fields.rank = (ModelView.tensorMetaAt model.byte id).rank.toNat
  dims : fields.dims = ((ModelView.tensorMetaAt model.byte id).dims.map UInt32.toNat).toList
  offset : fields.offset = (Opening.tensorExtent model id).1
  length : fields.length = (Opening.tensorExtent model id).2
  reserved : fields.reservedZero = true →
    model.slice (Opening.tensorBase id + 80) 16 = List.replicate 16 0

/-- Four dimensions as numbers. -/
lemma toList_map_four (f : UInt32 → Nat) (a b c d : UInt32) :
    ((#v[a, b, c, d] : Vector UInt32 4).map f).toList = [f a, f b, f c, f d] := by
  simp

/-- The fields read are those of the entry. -/
lemma tensorFields_facts (id : Nat) {fields : TensorFields}
    (h : tensorFields (model.slice (Opening.tensorBase id) 96) p = (.ok fields, q)) :
    q = p ∧ TensorEntry model id fields := by
  obtain ⟨number, r, got, h1⟩ := Fallible.bind_eq_ok h
  obtain ⟨-, number_eq, rfl⟩ := numberAt_slice got
  obtain ⟨layer, r, got, h2⟩ := Fallible.bind_eq_ok h1
  obtain ⟨-, layer_eq, rfl⟩ := numberAt_slice got
  obtain ⟨role, r, got, h3⟩ := Fallible.bind_eq_ok h2
  obtain ⟨-, role_eq, rfl⟩ := numberAt_slice got
  obtain ⟨dtype, r, got, h4⟩ := Fallible.bind_eq_ok h3
  obtain ⟨-, dtype_eq, rfl⟩ := numberAt_slice got
  obtain ⟨rank, r, got, h5⟩ := Fallible.bind_eq_ok h4
  obtain ⟨-, rank_eq, rfl⟩ := numberAt_slice got
  obtain ⟨dim0, r, got, h6⟩ := Fallible.bind_eq_ok h5
  obtain ⟨-, dim0_eq, rfl⟩ := numberAt_slice got
  obtain ⟨dim1, r, got, h7⟩ := Fallible.bind_eq_ok h6
  obtain ⟨-, dim1_eq, rfl⟩ := numberAt_slice got
  obtain ⟨dim2, r, got, h8⟩ := Fallible.bind_eq_ok h7
  obtain ⟨-, dim2_eq, rfl⟩ := numberAt_slice got
  obtain ⟨dim3, r, got, h9⟩ := Fallible.bind_eq_ok h8
  obtain ⟨-, dim3_eq, rfl⟩ := numberAt_slice got
  obtain ⟨offset, r, got, h10⟩ := Fallible.bind_eq_ok h9
  obtain ⟨-, offset_eq, rfl⟩ := numberAt_slice got
  obtain ⟨length, r, got, h11⟩ := Fallible.bind_eq_ok h10
  obtain ⟨-, length_eq, rfl⟩ := numberAt_slice got
  obtain ⟨digest, r, got, h12⟩ := Fallible.bind_eq_ok h11
  obtain ⟨-, -, -, rfl⟩ := rangeOf_slice got
  obtain ⟨unused, r, got, h13⟩ := Fallible.bind_eq_ok h12
  obtain ⟨-, -, unused_eq, rfl⟩ := rangeOf_slice got
  cases h13
  rw [leNumber_four] at number_eq dtype_eq rank_eq dim0_eq dim1_eq dim2_eq dim3_eq
  rw [leNumber_two] at layer_eq role_eq
  rw [leNumber_eight] at offset_eq length_eq
  refine ⟨rfl, number_eq, layer_eq, role_eq, dtype_eq, rank_eq, ?_, offset_eq, length_eq, ?_⟩
  · show [dim0, dim1, dim2, dim3] = _
    rw [dim0_eq, dim1_eq, dim2_eq, dim3_eq]
    exact (toList_map_four ..).symm
  · intro zero
    refine List.eq_replicate_iff.2 ⟨length_slice _ _ _, fun byte mem => ?_⟩
    rw [unused_eq] at zero
    exact of_decide_eq_true (List.all_eq_true.1 zero byte mem)

/-- What a row, its entry and the source's tensor have to do with each other. -/
structure RowPasses (model : Buffer) (id : Nat) (row : TensorRow) (tensor : Tensor)
    (previousEnd : Nat) : Prop where
  mapped : ∃ mapped, mappedDtype row.dtype = some mapped ∧
    (ModelView.tensorMetaAt model.byte id).dtype.toNat = mapped
  number : (ModelView.tensorMetaAt model.byte id).id.toNat = id
  layer : (ModelView.tensorMetaAt model.byte id).layer = row.layer
  role : (ModelView.tensorMetaAt model.byte id).role = row.role
  rank : (ModelView.tensorMetaAt model.byte id).rank.toNat = row.dims.length
  dims : ((ModelView.tensorMetaAt model.byte id).dims.map UInt32.toNat).toList = paddedDims row.dims
  source_dims : tensor.dims = row.dims
  source_dtype : tensor.dtype = row.dtype
  length : (Opening.tensorExtent model id).2 = tensor.length
  aligned : (Opening.tensorExtent model id).1 % 64 = 0
  order : previousEnd ≤ (Opening.tensorExtent model id).1
  reserved : model.slice (Opening.tensorBase id + 80) 16 = List.replicate 16 0

/-- Behind the checks of a layout the row passes. -/
lemma validateTensorLayout_facts {id previousEnd : Nat} {fields : TensorFields} {row : TensorRow}
    {tensor : Tensor} {u : Unit} (entry : TensorEntry model id fields)
    (h : validateTensorLayout id fields row tensor previousEnd p = (.ok u, q)) :
    q = p ∧ RowPasses model id row tensor previousEnd := by
  cases known : mappedDtype row.dtype with
  | none =>
    simp only [validateTensorLayout, known] at h
    cases h
  | some mapped =>
    simp only [validateTensorLayout, known] at h
    obtain ⟨_, h1⟩ := require_bind_eq_ok h
    obtain ⟨schema, h2⟩ := require_bind_eq_ok h1
    obtain ⟨id_eq, layer, role, dtype, rank, dims⟩ := of_decide_eq_true schema
    obtain ⟨source, h3⟩ := require_bind_eq_ok h2
    obtain ⟨source_dims, source_dtype⟩ := of_decide_eq_true source
    obtain ⟨place, h4⟩ := require_bind_eq_ok h3
    obtain ⟨length, aligned, order⟩ := of_decide_eq_true place
    obtain ⟨reserved, rfl⟩ := require_eq_ok h4
    refine ⟨rfl, ⟨mapped, known, entry.dtype ▸ dtype⟩, entry.number ▸ id_eq, entry.layer ▸ layer,
      entry.role ▸ role, entry.rank ▸ rank, entry.dims ▸ dims, source_dims, source_dtype,
      entry.length ▸ length, entry.offset ▸ aligned, entry.offset ▸ order,
      entry.reserved reserved⟩

/-- A product that does not overflow is the product. -/
lemma times_facts {a b n : Nat} (h : Opening.times a b = .ok n) : n = a * b := by
  rw [Opening.times] at h
  split at h
  · exact (Except.ok.inj h).symm
  · cases h

/-- Within the model an entry is read as it stands. -/
lemma tensorMetaIn_eq {id : Nat} (length : model.length = modelBytes) (small : id < tensorCount) :
    Opening.tensorMetaIn model id = .ok (ModelView.tensorMetaAt model.byte id,
      (Opening.expectedTensor id).dims[0] * (Opening.expectedTensor id).dims[1] *
        (Opening.expectedTensor id).dims[2] * (Opening.expectedTensor id).dims[3]) := by
  obtain ⟨n, read⟩ := Opening.tensorMetaIn_ok length small
  rw [read]
  obtain ⟨_, _, h⟩ := Opening.bind_eq_ok read
  obtain ⟨_, _, h⟩ := Opening.bind_eq_ok h
  obtain ⟨_, _, h⟩ := Opening.bind_eq_ok h
  obtain ⟨_, _, h⟩ := Opening.bind_eq_ok h
  obtain ⟨elements, product, h⟩ := Opening.bind_eq_ok h
  obtain ⟨_, _, h⟩ := Opening.bind_eq_ok h
  obtain ⟨_, _, h⟩ := Opening.bind_eq_ok h
  obtain ⟨_, _, h⟩ := Opening.bind_eq_ok h
  obtain ⟨_, _, h⟩ := Opening.bind_eq_ok h
  obtain ⟨_, _, h⟩ := Opening.bind_eq_ok h
  obtain ⟨_, _, h⟩ := Opening.bind_eq_ok h
  obtain ⟨_, _, h⟩ := Opening.bind_eq_ok h
  obtain rfl : elements = n := (Prod.mk.inj (Except.ok.inj h)).2
  obtain ⟨two, first, product⟩ := Opening.bind_eq_ok product
  obtain ⟨three, second, product⟩ := Opening.bind_eq_ok product
  rw [times_facts product, times_facts second, times_facts first]

/-- A row that passes at the end of the one before it is one that the target passes. -/
lemma checkTensor_ok {id previousEnd : Nat} {row : TensorRow} {tensor : Tensor}
    (length : model.length = modelBytes) (small : id < tensorCount)
    (fits : rowFits row (Opening.expectedTensor id) = true)
    (sized : tensor.length = rowLength row) (h : RowPasses model id row tensor previousEnd)
    (start : (Opening.tensorExtent model id).1 = previousEnd)
    (stop : previousEnd + rowLength row ≤ modelBytes) :
    Opening.checkTensor model id previousEnd = .ok (previousEnd + rowLength row) := by
  obtain ⟨layer, role, dtype, rank, dims, block⟩ := of_decide_eq_true fits
  obtain ⟨mapped, known, dtype_eq⟩ := h.mapped
  have mapped_eq : mapped = (Opening.expectedTensor id).dtype := by
    rw [known] at dtype
    exact Option.some.inj dtype
  have size : (Opening.tensorExtent model id).2 = rowLength row := h.length.trans sized
  have fields : Opening.checkTensorFields id (ModelView.tensorMetaAt model.byte id) = .ok () := by
    refine forM_ok fun field mem => ?_
    simp only [List.mem_cons, List.not_mem_nil, or_false] at mem
    rcases mem with rfl | rfl | rfl | rfl | rfl
    · exact check_ok (decide_eq_true h.number)
    · exact check_ok (decide_eq_true (h.layer.trans layer))
    · exact check_ok (decide_eq_true (h.role.trans role))
    · exact check_ok (decide_eq_true (dtype_eq.trans mapped_eq))
    · exact check_ok (decide_eq_true (h.rank.trans rank))
  have shape : Opening.checkDims id (ModelView.tensorMetaAt model.byte id) = .ok () := by
    refine forM_ok fun dim _ => check_ok (decide_eq_true ?_)
    have same := congrArg (fun list => list[(dim : Nat)]?) (h.dims.trans dims)
    simpa using same
  have reserved : Opening.compareFrom model (fun offset _ actual => ⟨.reserved, .tensor, id, offset,
      0, actual.toNat, .reservedByte, offset - (Opening.tensorBase id + 80)⟩)
      (Opening.tensorBase id + 80) (List.replicate 16 0) = .ok () := by
    refine compareFrom_ok (fun _ => ?_) ?_
    · rw [List.length_replicate]
      unfold Opening.tensorBase
      unfold tensorCount at small
      unfold modelBytes at length
      omega
    · rw [List.length_replicate]
      exact h.reserved
  have fits : (Opening.tensorExtent model id).1 + (Opening.tensorExtent model id).2 < 2 ^ 64 := by
    rw [start, size]
    exact Nat.lt_of_le_of_lt stop (by decide)
  rw [Opening.checkTensor, Opening.bind_ok (tensorMetaIn_eq length small)]
  refine (Opening.bind_ok fields).trans ((Opening.bind_ok shape).trans ?_)
  refine (Opening.bind_ok (check_ok (decide_eq_true (size.trans block.symm)))).trans ?_
  refine (Opening.bind_ok (check_ok (decide_eq_true start))).trans ?_
  refine (Opening.bind_ok (check_ok (decide_eq_true h.aligned))).trans ?_
  refine (Opening.bind_ok reserved).trans ?_
  refine (Opening.bind_ok (check_ok (decide_eq_true fits))).trans ?_
  show Except.ok ((Opening.tensorExtent model id).1 + (Opening.tensorExtent model id).2) = _
  rw [start, size]

end Entries

end ContainerInspect

end Promptboot
