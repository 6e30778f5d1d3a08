import Promptboot.Tools.ContainerTensors

/-!
# What the inspector passes, the target opens

The loop over the rows ends with the file. The tensors behind a row need the room that is left for
them, so no tensor begins behind the end of the one before it, and the target's checks pass.

The helper `tensorTurn_facts` is one row, `tensorLoop_room` the induction from the last row to the
first, with the room that is left as its invariant, and `tensorLoop_opens` the one that feeds the
target's loop. The headline `inspect_opens` also says that both hold the same payloads.
-/

namespace Promptboot.ContainerInspect
open Buffer Gguf

section Turns
variable {model : Buffer} {source : Source} {tensors : List (String × Tensor)} {p q : Nat}

/-- Regions that are the same to the end have the same bytes. -/
lemma sameRegion_facts {offset sourceOffset remaining : Nat}
    (h : sameRegion model source offset sourceOffset remaining p = (.ok true, q)) :
    q = p ∧ model.slice offset remaining = (source.bytes.drop sourceOffset).take remaining := by
  induction remaining using Nat.strongRecOn generalizing offset sourceOffset with
  | ind remaining ih =>
    rw [sameRegion] at h
    split at h
    case isTrue none =>
      cases h
      rw [none, List.take_zero]
      exact ⟨rfl, rfl⟩
    case isFalse more =>
      simp only at h
      split at h
      case isTrue _ => cases h
      case isFalse _ =>
        split at h
        case isTrue _ => cases h
        case isFalse _ =>
          split at h
          case isTrue _ => cases h
          case isFalse same =>
            obtain ⟨rfl, rest⟩ := ih _ (by omega) h
            have same := not_not.1 same
            have total : remaining =
                min remaining (1024 * 1024) + (remaining - min remaining (1024 * 1024)) := by
              omega
            refine ⟨rfl, ?_⟩
            rw [total, slice_add, same, rest, List.take_add, List.drop_drop]

/-- A source tensor is the one under its name. -/
lemma sourceTensor_facts {name : String} {tensor : Tensor}
    (h : sourceTensor tensors name p = (.ok tensor, q)) :
    q = p ∧ lookup tensors name = some tensor := by
  cases found : lookup tensors name with
  | none =>
    simp only [sourceTensor, found] at h
    cases h
  | some other =>
    simp only [sourceTensor, found] at h
    cases h
    exact ⟨rfl, rfl⟩

/-- What a lookup finds is in the list. -/
lemma lookup_mem {name : String} {tensor : Tensor} (h : lookup tensors name = some tensor) :
    ∃ row ∈ tensors, row.2 = tensor := by
  obtain ⟨row, found, rfl⟩ := Option.map_eq_some_iff.1 h
  exact ⟨row, List.mem_of_find?_eq_some found, rfl⟩

/-- The source's tensor of a row has the bytes of the container's. -/
structure RowMatches (model : Buffer) (source : Source) (tensors : List (String × Tensor))
    (id : Nat) (row : TensorRow) (tensor : Tensor) : Prop where
  known : lookup tensors row.name = some tensor
  same : model.slice (Opening.tensorExtent model id).1 (Opening.tensorExtent model id).2 =
    (source.bytes.drop tensor.offset).take tensor.length

/-- A turn of the loop over the rows. -/
lemma tensorTurn_facts {digests : Digests} {id previousEnd stop : Nat} {row : TensorRow}
    (h : tensorTurn digests model source tensors (model.slice 3952512 27936) id row previousEnd p =
      (.ok stop, q)) :
    q = p ∧ stop = (Opening.tensorExtent model id).1 + (Opening.tensorExtent model id).2 ∧
      ∃ tensor, RowPasses model id row tensor previousEnd ∧
        RowMatches model source tensors id row tensor := by
  obtain ⟨entry, r, got, h1⟩ := Fallible.bind_eq_ok h
  obtain ⟨-, -, rfl, rfl⟩ := rangeOf_slice got
  have width : (id + 1) * 96 - id * 96 = 96 := by omega
  rw [width] at h1
  obtain ⟨fields, r, read, h2⟩ := Fallible.bind_eq_ok h1
  obtain ⟨rfl, entry⟩ := tensorFields_facts id read
  obtain ⟨tensor, r, found, h3⟩ := Fallible.bind_eq_ok h2
  obtain ⟨rfl, known⟩ := sourceTensor_facts found
  obtain ⟨_, r, layout, h4⟩ := Fallible.bind_eq_ok h3
  obtain ⟨rfl, passes⟩ := validateTensorLayout_facts entry layout
  obtain ⟨gap, r, between, h5⟩ := Fallible.bind_eq_ok h4
  obtain ⟨-, -, rfl⟩ := sub64_facts between
  obtain ⟨hashed, r, hash, h6⟩ := Fallible.bind_eq_ok h5
  obtain rfl := hashedRegion_facts hash
  obtain ⟨same, r, compared, h7⟩ := Fallible.bind_eq_ok h6
  obtain ⟨_, t, evidence, h8⟩ := Fallible.bind_eq_ok h7
  obtain ⟨-, rfl, rfl⟩ := add64_facts h8
  obtain ⟨_, evidence⟩ := require_bind_eq_ok evidence
  obtain ⟨_, evidence⟩ := require_bind_eq_ok evidence
  obtain ⟨rfl, rfl⟩ := require_eq_ok evidence
  obtain ⟨rfl, bytes⟩ := sameRegion_facts compared
  refine ⟨rfl, by rw [entry.offset, entry.length], tensor, passes, known, ?_⟩
  rw [entry.offset, entry.length] at bytes
  rw [bytes, passes.length]

variable (sizes : ∀ row ∈ tensors, row.2.length = SourceReader.sizeOf row.2.dtype row.2.dims.prod)
include sizes

/-- A tensor that passes has the length of its row. -/
lemma RowMatches.sized {id previousEnd : Nat} {row : TensorRow} {tensor : Tensor}
    (h : RowMatches model source tensors id row tensor)
    (passes : RowPasses model id row tensor previousEnd) : tensor.length = rowLength row := by
  obtain ⟨known, mem, rfl⟩ := lookup_mem h.known
  rw [sizes known mem, passes.source_dims, passes.source_dtype, rowLength]

/-- A turn takes at least the room of its row, and no more where its tensor begins at the end of
the one before it. -/
lemma tensorTurn_room {digests : Digests} {id previousEnd stop : Nat} {row : TensorRow}
    (h : tensorTurn digests model source tensors (model.slice 3952512 27936) id row previousEnd p =
      (.ok stop, q)) :
    previousEnd + rowLength row ≤ stop := by
  obtain ⟨-, rfl, tensor, passes, same⟩ := tensorTurn_facts h
  rw [passes.length, same.sized sizes passes]
  exact Nat.add_le_add_right passes.order _

/-- The rows need their room. -/
lemma tensorLoop_room {digests : Digests} {rows : List TensorRow} {id previousEnd last : Nat}
    (h : tensorLoop digests model source tensors (model.slice 3952512 27936) rows id previousEnd p =
      (.ok last, q)) :
    previousEnd + (rows.map rowLength).sum ≤ last := by
  induction rows generalizing id previousEnd p with
  | nil =>
    cases h
    exact Nat.le_refl _
  | cons row rows ih =>
    obtain ⟨stop, r, turn, rest⟩ := Fallible.bind_eq_ok h
    have first := tensorTurn_room sizes turn
    have later := ih rest
    rw [List.map_cons, List.sum_cons]
    omega

/-- Where the rows have no more than their room, each turn passes with the target, and every tensor
has the bytes of the source's. -/
lemma tensorLoop_opens {digests : Digests} {rows : List TensorRow} {id previousEnd last : Nat}
    (length : model.length = modelBytes) (suffix : inspectorTensorRows.drop id = rows)
    (h : tensorLoop digests model source tensors (model.slice 3952512 27936) rows id previousEnd p =
      (.ok last, q))
    (tight : last = previousEnd + (rows.map rowLength).sum) (ends : last = modelBytes) :
    Opening.tensorLoop model rows.length id previousEnd = .ok last ∧
      ∀ k row, rows[k]? = some row →
        ∃ tensor, RowMatches model source tensors (id + k) row tensor := by
  induction rows generalizing id previousEnd p with
  | nil =>
    cases h
    exact ⟨rfl, fun k row mem => nomatch mem⟩
  | cons row rows ih =>
    obtain ⟨stop, r, turn, rest⟩ := Fallible.bind_eq_ok h
    have later := tensorLoop_room sizes rest
    have first := tensorTurn_room sizes turn
    rw [List.map_cons, List.sum_cons] at tight
    -- every turn needs its room and no more is there, so none leaves a gap
    have stop_eq : stop = previousEnd + rowLength row := by omega
    obtain ⟨-, place, tensor, passes, same⟩ := tensorTurn_facts turn
    have sized := same.sized sizes passes
    have start : (Opening.tensorExtent model id).1 = previousEnd := by
      have size := passes.length
      omega
    have here : inspectorTensorRows[id]? = some row := by
      have head := congrArg (fun list => list[0]?) suffix
      simpa using head
    have small : id < tensorCount := by
      rw [← rows_length]
      exact (List.getElem?_eq_some_iff.1 here).1
    have fits := List.all_eq_true.1 rows_fit (row, id) (List.mk_mem_zipIdx_iff_getElem?.2 here)
    have next : inspectorTensorRows.drop (id + 1) = rows := by
      rw [← List.tail_drop, suffix, List.tail_cons]
    obtain ⟨run, others⟩ := ih next rest (by omega)
    have opened : Opening.checkTensor model id previousEnd = .ok stop := by
      rw [stop_eq]
      exact checkTensor_ok length small fits sized passes start (by omega)
    refine ⟨(Opening.bind_ok opened).trans run, fun k found mem => ?_⟩
    cases k with
    | zero =>
      obtain rfl := Option.some.inj mem
      exact ⟨tensor, same⟩
    | succ k =>
      rw [Nat.add_succ, ← Nat.succ_add]
      exact others k found mem

end Turns

section Opens
variable {model : Buffer} {source : Source} {p q : Nat}

/-- The sections that pass are the frozen ones. -/
lemma seven_sections {sections : List SectionFields}
    (rows : sections.map (fun fields => (fields.offset, fields.length)) =
      ((List.finRange 7).drop 0).map frozenExtent) :
    ∃ a b c d e directory data, sections = [a, b, c, d, e, directory, data] ∧
      directory.offset = 3952512 ∧ directory.length = 27936 ∧ data.offset = 3980480 := by
  have size : sections.length = 7 := by
    have size := congrArg List.length rows
    simpa using size
  match sections, size with
  | [a, b, c, d, e, directory, data], _ =>
    have six := congrArg (fun list => list[5]?) rows
    have seven := congrArg (fun list => list[6]?) rows
    have six : (directory.offset, directory.length) = (3952512, 27936) := Option.some.inj six
    have seven : (data.offset, data.length) = (3980480, 422782464) := Option.some.inj seven
    rw [Prod.mk.injEq] at six seven
    exact ⟨a, b, c, d, e, directory, data, rfl, six.1, six.2, seven.1⟩

/-- The tensors that pass are those that the target passes, with the bytes of the source's. -/
lemma inspectTensors_opens {digests : Digests} {tensors : List (String × Tensor)}
    {sections : List SectionFields} {u : Unit}
    (sizes : ∀ row ∈ tensors, row.2.length = SourceReader.sizeOf row.2.dtype row.2.dims.prod)
    (length : model.length = modelBytes)
    (rows : sections.map (fun fields => (fields.offset, fields.length)) =
      ((List.finRange 7).drop 0).map frozenExtent)
    (h : inspectTensors digests model source tensors sections p = (.ok u, q)) :
    Opening.validateTensors model = .ok () ∧
      ∀ id row, inspectorTensorRows[id]? = some row →
        ∃ tensor, RowMatches model source tensors id row tensor := by
  obtain ⟨a, b, c, d, e, directory, data, rfl, offset, size, start⟩ := seven_sections rows
  obtain ⟨entries, r, got, h1⟩ := Fallible.bind_eq_ok h
  have facts := readAt_facts got
  rw [offset, size] at facts
  rw [facts.2.1] at h1
  obtain ⟨stop, r, loop, h2⟩ := Fallible.bind_eq_ok h1
  obtain ⟨ends, -⟩ := require_eq_ok h2
  have ends : stop = modelBytes := (of_decide_eq_true ends).trans length
  rw [start] at loop
  have tight : stop = 3980480 + (inspectorTensorRows.map rowLength).sum := by
    rw [ends, rows_total, modelBytes]
  obtain ⟨run, found⟩ := tensorLoop_opens sizes length (List.drop_zero) loop tight ends
  rw [rows_length] at run
  refine ⟨?_, fun id row mem => ?_⟩
  · refine (Opening.bind_ok run).trans ?_
    exact check_ok (decide_eq_true ends)
  · obtain ⟨tensor, same⟩ := found id row mem
    rw [Nat.zero_add] at same
    exact ⟨tensor, same⟩

/-- What the target makes of a container that belongs to a source. -/
structure OpensWith (model : Buffer) (source : Source) (start : Nat) : Prop where
  /-- Everything before the checks of the tokenizer passes, at every aligned address. -/
  opens : ∀ block, Opening.openDirectories (64 * block) model = .ok frozenSections
  /-- Every tensor has the payload of the source's tensor of its name. -/
  payloads : ∃ tensors stop, SourceReader.sourceTensors source start = (.ok tensors, stop) ∧
    ∀ id < tensorCount, ∃ row tensor view, inspectorTensorRows[id]? = some row ∧
      lookup tensors row.name = some tensor ∧
      (Opening.frozenView model).tensor id = .ok view ∧
      view.data = (source.bytes.drop tensor.offset).take tensor.length

/-- What an end of the inspector promises. -/
def PassedOpens (model : Buffer) (source : Source) (start : Nat) : Except Stop Unit → Prop
  | .ok () => OpensWith model source start
  | .error _ => True

/-- A container that the inspector passes with a source is one that the target opens up to its
tokenizer, and every tensor has the payload of the source's tensor of its name. -/
theorem inspect_opens (digests : Digests) (model : Buffer) (source : Source) (start : Nat) :
    PassedOpens model source start (inspect digests model source start).1 := by
  cases run : inspect digests model source start with
  | mk result stop =>
  cases result with
  | error _ => trivial
  | ok u =>
    obtain ⟨_, h1⟩ := require_bind_eq_ok run
    obtain ⟨_, h2⟩ := require_bind_eq_ok h1
    obtain ⟨_, h3⟩ := require_bind_eq_ok h2
    obtain ⟨_, h4⟩ := require_bind_eq_ok h3
    obtain ⟨tensors, r1, read, h5⟩ := Fallible.bind_eq_ok h4
    obtain ⟨header, r2, got, h6⟩ := Fallible.bind_eq_ok h5
    obtain ⟨-, rfl, rfl⟩ := readAt_facts got
    obtain ⟨content, r3, hash, h7⟩ := Fallible.bind_eq_ok h6
    obtain rfl := hashedRegion_facts hash
    obtain ⟨_, r4, checked, h8⟩ := Fallible.bind_eq_ok h7
    obtain ⟨directory, r5, got, h9⟩ := Fallible.bind_eq_ok h8
    obtain ⟨-, rfl, rfl⟩ := readAt_facts got
    obtain ⟨⟨sections, last⟩, r6, loop, h10⟩ := Fallible.bind_eq_ok h9
    obtain ⟨ends, h11⟩ := require_bind_eq_ok h10
    obtain ⟨_, r7, payloads, h12⟩ := Fallible.bind_eq_ok h11
    obtain ⟨canonical, -⟩ := require_bind_eq_ok h12
    have length : model.length = modelBytes := of_decide_eq_true canonical
    have ends : last = modelBytes := (of_decide_eq_true ends).trans length
    rw [length] at checked
    obtain ⟨-, ⟨result, run_sections⟩, rows⟩ :=
      sectionLoop_opens (Vector.replicate 7 ⟨0, 0⟩) length rfl loop ends
    obtain ⟨valid, found⟩ :=
      inspectTensors_opens (SourceReader.sourceTensors_sizes read) length rows payloads
    have opened : ∀ block, Opening.openDirectories (64 * block) model = .ok result := by
      intro block
      refine (Opening.bind_ok (validateHeader_opens length checked block).2).trans ?_
      refine (Opening.bind_ok run_sections).trans ?_
      refine (Opening.bind_ok (check_ok (decide_eq_true ends))).trans ?_
      exact Opening.bind_ok valid
    obtain ⟨rfl, facts⟩ := Opening.openDirectories_facts (opened 0)
    refine ⟨opened, tensors, _, read, fun id small => ?_⟩
    have here : id < inspectorTensorRows.length := by
      rw [rows_length]
      exact small
    obtain ⟨tensor, same⟩ := found id _ (List.getElem?_eq_getElem here)
    exact ⟨_, tensor, _, List.getElem?_eq_getElem here, same.known, Opening.tensor_ok facts small,
      same.same⟩

end Opens

end Promptboot.ContainerInspect
