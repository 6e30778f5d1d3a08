import Promptboot.Tools.ContainerInspect
import Promptboot.Model.OpenSafe

/-!
# What the container inspector passes in the directories

The header and the sections that the inspector passes are those that the target asks for: each
check of the target follows from one of the inspector's and, for the length of the last section,
from the length of the file.

The helpers `leNumber_four` and `numberAt_slice` bring the inspector's reads and the target's to one
number. There is a lemma for each check (`checkFields_facts`, `sectionFields_facts`), and the
headlines are `validateHeader_opens` and, by induction on the sections, `sectionLoop_opens`.
-/

namespace Promptboot.ContainerInspect
open Buffer Gguf

section Reads
variable {b : Buffer} {p q : Nat}

/-- A piece of what was read is that piece of the container. -/
lemma cut_slice {start count offset width : Nat} (inside : offset + width ≤ count) :
    ((b.slice start count).drop offset).take width = b.slice (start + offset) width := by
  obtain ⟨rest, rfl⟩ := Nat.exists_eq_add_of_le inside
  rw [Nat.add_assoc, slice_add, List.drop_left' (length_slice _ _ _), slice_add,
    List.take_left' (length_slice _ _ _)]

/-- A number read from a slice is read from the buffer. -/
lemma numberAt_slice {start count offset width value : Nat}
    (h : numberAt width (b.slice start count) offset p = (.ok value, q)) :
    offset + width ≤ count ∧ value = leNumber (b.slice (start + offset) width) ∧ q = p := by
  rw [numberAt, length_slice] at h
  split at h
  case isTrue inside =>
    rw [cut_slice inside] at h
    cases h
    exact ⟨inside, rfl, rfl⟩
  case isFalse _ => cases h

/-- A range of a slice is a range of the buffer. -/
lemma rangeOf_slice {start count first stop : Nat} {bytes : List UInt8}
    (h : rangeOf (b.slice start count) first stop p = (.ok bytes, q)) :
    first ≤ stop ∧ stop ≤ count ∧ bytes = b.slice (start + first) (stop - first) ∧ q = p := by
  rw [rangeOf, length_slice] at h
  split at h
  case isTrue inside =>
    rw [cut_slice (by omega)] at h
    cases h
    exact ⟨inside.1, inside.2, rfl, rfl⟩
  case isFalse _ => cases h

/-- A read is within the buffer and leaves the position. -/
lemma readAt_facts {offset length : Nat} {bytes : List UInt8}
    (h : readAt b offset length p = (.ok bytes, q)) :
    offset + length ≤ b.length ∧ bytes = b.slice offset length ∧ q = p := by
  rw [readAt] at h
  split at h
  case isTrue _ => cases h
  case isFalse _ =>
    split at h
    case isTrue _ => cases h
    case isFalse inside =>
      cases h
      exact ⟨Nat.le_of_not_lt inside, rfl, rfl⟩

/-- Two bytes are a half word. -/
lemma leNumber_two (offset : Nat) : leNumber (b.slice offset 2) = u16At b.byte offset := by
  have two : b.slice offset 2 = [b.byte offset, b.byte (offset + 1)] := rfl
  rw [two, u16At]
  simp only [leNumber]
  omega

/-- Four bytes are a word. -/
lemma leNumber_four (offset : Nat) :
    leNumber (b.slice offset 4) = (Memory.u32At b.byte offset).toNat := by
  have four : b.slice offset 4 = [b.byte offset, b.byte (offset + 1), b.byte (offset + 2),
    b.byte (offset + 3)] := rfl
  have lt0 := (b.byte offset).toNat_lt
  have lt1 := (b.byte (offset + 1)).toNat_lt
  have lt2 := (b.byte (offset + 2)).toNat_lt
  have lt3 := (b.byte (offset + 3)).toNat_lt
  rw [four, Memory.u32At, UInt32.toNat_ofNat']
  simp only [leNumber]
  omega

/-- A number of two parts, the second above the first. -/
lemma leNumber_append (front back : List UInt8) :
    leNumber (front ++ back) = leNumber front + 256 ^ front.length * leNumber back := by
  induction front with
  | nil => simp [leNumber]
  | cons byte front ih =>
    rw [List.cons_append, leNumber, ih, leNumber, List.length_cons, Nat.pow_succ, Nat.mul_add,
      ← Nat.mul_assoc, Nat.mul_comm 256 (256 ^ front.length), Nat.add_assoc]

/-- Eight bytes are a double word. -/
lemma leNumber_eight (offset : Nat) : leNumber (b.slice offset 8) = u64At b.byte offset := by
  have split : b.slice offset 8 = b.slice offset 4 ++ b.slice (offset + 4) 4 := slice_add b offset 4 4
  rw [split, leNumber_append, leNumber_four, leNumber_four, length_slice, u64At]
  omega

/-- The bytes of a gap that passes are zero. -/
lemma paddingZero_facts {offset count : Nat} (h : paddingZero b offset count = true) :
    b.slice offset count = List.replicate count 0 ∧ (0 < count → offset + count ≤ b.length) := by
  induction count using Nat.strongRecOn generalizing offset with
  | ind count ih =>
    rw [paddingZero] at h
    split at h
    case isTrue none =>
      rw [none]
      exact ⟨rfl, fun pos => absurd pos (by omega)⟩
    case isFalse more =>
      simp only at h
      split at h
      case isTrue _ => cases h
      case isFalse inside =>
        obtain ⟨zero, rest⟩ := Bool.and_eq_true_iff.1 h
        obtain ⟨rest_zero, rest_inside⟩ := ih _ (by omega) rest
        have total : count = min count (1024 * 1024) + (count - min count (1024 * 1024)) := by
          omega
        have first : b.slice offset (min count (1024 * 1024)) =
            List.replicate (min count (1024 * 1024)) 0 := by
          refine List.eq_replicate_iff.2 ⟨length_slice _ _ _, fun byte mem => ?_⟩
          exact of_decide_eq_true (List.all_eq_true.1 zero byte mem)
        refine ⟨?_, fun _ => by omega⟩
        rw [total, slice_add, first, rest_zero, ← List.replicate_add]

end Reads

section Header
variable {model : Buffer} {p q : Nat}

/-- Bytes that are the expected ones pass the comparison. -/
lemma compareFrom_ok {error : Nat → UInt8 → UInt8 → ModelError} {offset : Nat}
    {expected : List UInt8} (inside : expected ≠ [] → offset + expected.length ≤ model.length)
    (same : model.slice offset expected.length = expected) :
    Opening.compareFrom model error offset expected = .ok () := by
  induction expected generalizing offset with
  | nil => rfl
  | cons byte expected ih =>
    have inside := inside (List.cons_ne_nil _ _)
    rw [List.length_cons] at inside same
    rw [slice_succ] at same
    obtain ⟨head, tail⟩ := List.cons.inj same
    rw [Opening.compareFrom, Opening.bind_ok (Opening.byteIn_ok (by omega)), head,
      decide_eq_true rfl]
    exact ih (fun _ => by omega) tail

/-- A loop whose turns succeed succeeds. -/
lemma forM_ok {α : Type} {f : α → Opening Unit} {l : List α} (each : ∀ a ∈ l, f a = .ok ()) :
    l.forM f = .ok () := by
  induction l with
  | nil => rfl
  | cons a l ih =>
    have rest := ih fun b mem => each b (List.mem_cons_of_mem _ mem)
    exact (Opening.bind_ok (each a List.mem_cons_self)).trans rest

/-- Behind the checks of the header its fields have their values. -/
lemma checkFields_facts {width : Nat} {kind : String} {fields : List (Nat × Nat)} {u : Unit}
    (h : checkFields width (model.slice 0 256) kind fields p = (.ok u, q)) :
    q = p ∧ ∀ field ∈ fields, field.1 + width ≤ 256 ∧
      leNumber (model.slice field.1 width) = field.2 := by
  induction fields generalizing p with
  | nil =>
    cases h
    exact ⟨rfl, fun _ mem => nomatch mem⟩
  | cons first fields ih =>
    obtain ⟨offset, expected⟩ := first
    obtain ⟨actual, r, got, h1⟩ := Fallible.bind_eq_ok h
    obtain ⟨inside, rfl, rfl⟩ := numberAt_slice got
    obtain ⟨same, h2⟩ := require_bind_eq_ok h1
    obtain ⟨rfl, rest⟩ := ih h2
    refine ⟨rfl, fun field mem => ?_⟩
    rcases List.mem_cons.1 mem with rfl | later
    · rw [Nat.zero_add] at same
      exact ⟨inside, of_decide_eq_true same⟩
    · exact rest field later

/-- The words that the inspector expects are those of the reader. -/
lemma header32_eq : header32 = Opening.expected32.map fun field => (field.1, field.2.1) := rfl

/-- A header that passes is one that the target passes, for a file of the right length. -/
lemma validateHeader_opens {digests : Digests} {content : List UInt8} {u : Unit}
    (length : model.length = modelBytes)
    (h : validateHeader digests (model.slice 0 256) modelBytes content p = (.ok u, q))
    (block : Nat) : q = p ∧ Opening.checkHeader (64 * block) model = .ok () := by
  obtain ⟨_, h⟩ := require_bind_eq_ok h
  obtain ⟨start, r, got, h1⟩ := Fallible.bind_eq_ok h
  obtain ⟨-, -, rfl, rfl⟩ := rangeOf_slice got
  obtain ⟨magic, h2⟩ := require_bind_eq_ok h1
  obtain ⟨_, r, run_words, h3⟩ := Fallible.bind_eq_ok h2
  obtain ⟨rfl, words⟩ := checkFields_facts run_words
  obtain ⟨_, r, run_longs, h4⟩ := Fallible.bind_eq_ok h3
  obtain ⟨rfl, longs⟩ := checkFields_facts run_longs
  obtain ⟨hash, r, got, h5⟩ := Fallible.bind_eq_ok h4
  obtain ⟨-, -, hash_eq, rfl⟩ := rangeOf_slice got
  obtain ⟨source, h6⟩ := require_bind_eq_ok h5
  obtain ⟨contentHash, r, got, h7⟩ := Fallible.bind_eq_ok h6
  obtain ⟨-, -, -, rfl⟩ := rangeOf_slice got
  obtain ⟨_, h8⟩ := require_bind_eq_ok h7
  obtain ⟨unused, r, got, h9⟩ := Fallible.bind_eq_ok h8
  obtain ⟨-, -, unused_eq, rfl⟩ := rangeOf_slice got
  obtain ⟨zero, rfl⟩ := require_eq_ok h9
  refine ⟨rfl, ?_⟩
  have magic : model.slice 0 8 = Opening.magic := of_decide_eq_true magic
  have source : model.slice 128 32 = Opening.sourceHash := by
    rw [← of_decide_eq_true source, hash_eq]
  have unused : model.slice 192 64 = List.replicate 64 0 := by
    refine List.eq_replicate_iff.2 ⟨length_slice _ _ _, fun byte mem => ?_⟩
    rw [unused_eq] at zero
    exact of_decide_eq_true (List.all_eq_true.1 zero byte mem)
  have aligned : 64 * block % 64 = 0 := Nat.mul_mod_right _ _
  have inside {stop : Nat} (small : stop ≤ 256) : stop ≤ model.length := by
    unfold modelBytes at length
    omega
  -- the inspector's fields are those of the target, in the same order
  have fields32 : Opening.expected32.forM (Opening.checkField32 model) = .ok () := by
    refine forM_ok fun field mem => ?_
    obtain ⟨offset, expected, kind, status⟩ := field
    have known : (offset, expected) ∈ header32 := by
      rw [header32_eq]
      exact List.mem_map_of_mem (f := fun field => (field.1, field.2.1)) mem
    obtain ⟨bound, value⟩ := words _ known
    rw [leNumber_four] at value
    rw [Opening.checkField32, Opening.bind_ok (Opening.u32In_ok (inside bound)), decide_eq_true value]
    rfl
  have fields64 : Opening.expected64.forM (Opening.checkField64 model) = .ok () := by
    refine forM_ok fun field mem => ?_
    obtain ⟨offset, expected⟩ := field
    obtain ⟨bound, value⟩ := longs _ mem
    rw [leNumber_eight] at value
    rw [Opening.checkField64, Opening.bind_ok (Opening.u64In_ok (inside bound)), decide_eq_true value]
    rfl
  rw [Opening.checkHeader, decide_eq_true length, decide_eq_true aligned]
  refine (Opening.bind_ok (compareFrom_ok (fun _ => inside (by decide)) magic)).trans ?_
  refine (Opening.bind_ok fields32).trans ((Opening.bind_ok fields64).trans ?_)
  refine (Opening.bind_ok (compareFrom_ok (fun _ => inside (by decide)) source)).trans ?_
  exact compareFrom_ok (fun _ => inside (by decide)) unused

end Header

section Sections
variable {model : Buffer} {p q : Nat}

/-- Hashing a region leaves the position. -/
lemma hashedRegion_facts {offset length : Nat} {bytes : List UInt8}
    (h : hashedRegion model offset length p = (.ok bytes, q)) : q = p := by
  rw [hashedRegion] at h
  split at h
  · cases h
    rfl
  · cases h

/-- A checked difference is in order. -/
lemma sub64_facts {a b c : Nat} (h : sub64 a b p = (.ok c, q)) : b ≤ a ∧ c = a - b ∧ q = p := by
  rw [sub64] at h
  split at h
  case isTrue order =>
    cases h
    exact ⟨order, rfl, rfl⟩
  case isFalse _ => cases h

/-- A checked sum fits. -/
lemma add64_facts {a b c : Nat} (h : add64 a b p = (.ok c, q)) :
    a + b < 2 ^ 64 ∧ c = a + b ∧ q = p := by
  rw [add64] at h
  split at h
  case isTrue fits =>
    cases h
    exact ⟨fits, rfl, rfl⟩
  case isFalse _ => cases h

/-- What an entry of the section directory says. -/
structure EntryAt (model : Buffer) (base : Nat) (fields : SectionFields) : Prop where
  id : fields.id = (Memory.u32At model.byte base).toNat
  dtype : fields.dtype = (Memory.u32At model.byte (base + 4)).toNat
  count : fields.count = u64At model.byte (base + 8)
  offset : fields.offset = u64At model.byte (base + 16)
  length : fields.length = u64At model.byte (base + 24)

/-- The fields read are those of the entry. -/
lemma sectionFields_facts {base : Nat} {fields : SectionFields}
    (h : sectionFields (model.slice base 64) p = (.ok fields, q)) :
    q = p ∧ EntryAt model base fields := by
  obtain ⟨id, r, got, h1⟩ := Fallible.bind_eq_ok h
  obtain ⟨-, id_eq, rfl⟩ := numberAt_slice got
  obtain ⟨dtype, r, got, h2⟩ := Fallible.bind_eq_ok h1
  obtain ⟨-, dtype_eq, rfl⟩ := numberAt_slice got
  obtain ⟨count, r, got, h3⟩ := Fallible.bind_eq_ok h2
  obtain ⟨-, count_eq, rfl⟩ := numberAt_slice got
  obtain ⟨offset, r, got, h4⟩ := Fallible.bind_eq_ok h3
  obtain ⟨-, offset_eq, rfl⟩ := numberAt_slice got
  obtain ⟨length, r, got, h5⟩ := Fallible.bind_eq_ok h4
  obtain ⟨-, length_eq, rfl⟩ := numberAt_slice got
  obtain ⟨digest, r, got, h6⟩ := Fallible.bind_eq_ok h5
  obtain ⟨-, -, -, rfl⟩ := rangeOf_slice got
  cases h6
  refine ⟨rfl, id_eq.trans (leNumber_four _), dtype_eq.trans (leNumber_four _),
    count_eq.trans (leNumber_eight _), offset_eq.trans (leNumber_eight _),
    length_eq.trans (leNumber_eight _)⟩

/-- The sections that the inspector expects are those of the reader. -/
lemma expectedSections_eq : ∀ k : Fin 7, expectedSections[(k : Nat)]? =
    if (k : Nat) < 6 then some ((k : Nat) + 1, Opening.ofSection Opening.sectionTypes k,
      Opening.ofSection Opening.sectionCounts k, (Opening.ofSection frozenSections k).length)
    else none := by
  decide

/-- The offsets that the inspector expects are those of the reader. -/
lemma canonicalOffsets_eq : ∀ k : Fin 7,
    canonicalOffsets[(k : Nat)]? = some (Opening.ofSection frozenSections k).offset := by
  decide

/-- A section that passes has the frozen fields; the last has them once it ends with the file. -/
lemma checkSectionSchema_facts {k : Fin 7} {fields : SectionFields} {u : Unit}
    (h : checkSectionSchema k fields p = (.ok u, q)) :
    q = p ∧ fields.id = k + 1 ∧ fields.dtype = Opening.ofSection Opening.sectionTypes k ∧
      ((k : Nat) < 6 → fields.count = Opening.ofSection Opening.sectionCounts k ∧
        fields.length = (Opening.ofSection frozenSections k).length) ∧
      (¬(k : Nat) < 6 → fields.count = fields.length) := by
  rw [checkSectionSchema, expectedSections_eq] at h
  by_cases early : (k : Nat) < 6
  · rw [if_pos early] at h
    obtain ⟨same, rfl⟩ := require_eq_ok h
    have same := of_decide_eq_true same
    simp only [Prod.mk.injEq] at same
    obtain ⟨id, dtype, count, length⟩ := same
    exact ⟨rfl, id, dtype, fun _ => ⟨count, length⟩, fun late => absurd early late⟩
  · rw [if_neg early] at h
    obtain ⟨same, rfl⟩ := require_eq_ok h
    obtain ⟨id, dtype, count⟩ := of_decide_eq_true same
    have last : k = 6 := by
      apply Fin.ext
      have lt := k.isLt
      show (k : Nat) = 6
      omega
    subst last
    exact ⟨rfl, id, dtype, fun now => absurd now early, fun _ => count⟩

/-- The place of a section of the target. -/
abbrev frozenExtent (k : Fin 7) : Nat × Nat :=
  ((Opening.ofSection frozenSections k).offset, (Opening.ofSection frozenSections k).length)

/-- A condition that holds passes its check. -/
lemma check_ok {holds : Bool} {error : ModelError} (held : holds = true) :
    Opening.check holds error = .ok () := by
  rw [held]
  rfl

/-- A field with its expected value passes its check. -/
lemma checkSectionField_ok {ordinal base offset actual expected : Nat} {kind : FieldKind}
    (same : actual = expected) :
    Opening.checkSectionField ordinal base offset actual expected kind = .ok () :=
  check_ok (decide_eq_true same)

/-- A section with the frozen fields behind zeros is one that the target passes. -/
lemma checkSection_ok {k : Fin 7} {previousEnd : Nat} {fields : SectionFields}
    (length : model.length = modelBytes) (entry : EntryAt model (256 + k * 64) fields)
    (id : fields.id = k + 1) (dtype : fields.dtype = Opening.ofSection Opening.sectionTypes k)
    (count : fields.count = Opening.ofSection Opening.sectionCounts k)
    (offset : fields.offset = (Opening.ofSection frozenSections k).offset)
    (size : fields.length = (Opening.ofSection frozenSections k).length)
    (order : previousEnd ≤ fields.offset)
    (zero : model.slice previousEnd (fields.offset - previousEnd) =
      List.replicate (fields.offset - previousEnd) 0) :
    Opening.checkSection model k previousEnd = .ok (Opening.ofSection frozenSections k) := by
  have stop := Opening.section_stop k
  have lt := k.isLt
  have aligned := Opening.section_aligned k
  unfold modelBytes at length stop
  rw [entry.id] at id
  rw [entry.dtype] at dtype
  rw [entry.count] at count
  have fits : fields.offset + fields.length < 2 ^ 64 := by omega
  have gap : Opening.compareFrom model (fun gap _ actual =>
      ⟨.padding, .section, k, gap, 0, actual.toNat, .gapByte, gap - previousEnd⟩) previousEnd
      (List.replicate (fields.offset - previousEnd) 0) = .ok () := by
    refine compareFrom_ok (fun _ => ?_) ?_
    · rw [List.length_replicate]
      omega
    · rw [List.length_replicate]
      exact zero
  rw [entry.offset] at gap offset order fits
  rw [entry.length] at size fits
  rw [Opening.checkSection, Opening.bind_ok (Opening.u32In_ok (by omega)),
    Opening.bind_ok (Opening.u32In_ok (by omega)), Opening.bind_ok (Opening.u64In_ok (by omega)),
    Opening.bind_ok (Opening.u64In_ok (by omega)), Opening.bind_ok (Opening.u64In_ok (by omega)),
    Opening.bind_ok (checkSectionField_ok id), Opening.bind_ok (checkSectionField_ok dtype),
    Opening.bind_ok (checkSectionField_ok count), Opening.bind_ok (checkSectionField_ok size),
    Opening.bind_ok (check_ok (decide_eq_true (offset ▸ aligned))),
    Opening.bind_ok (check_ok (decide_eq_true order)),
    Opening.bind_ok (checkSectionField_ok offset), Opening.bind_ok gap,
    Opening.bind_ok (check_ok (decide_eq_true fits)), offset, size]
  rfl

/-- A turn of the inspector's loop is one of the target's. -/
lemma sectionTurn_opens {digests : Digests} {k : Fin 7} {previousEnd stop gap : Nat}
    {fields : SectionFields} {hashed : List UInt8} {u : Unit} {r t v w : Nat}
    (length : model.length = modelBytes) (entry : EntryAt model (256 + k * 64) fields)
    (layout : validateSectionLayout k fields previousEnd model.length p = (.ok stop, q))
    (between : sub64 fields.offset previousEnd r = (.ok gap, t))
    (evidence : validateSectionEvidence digests k fields hashed (paddingZero model previousEnd gap)
      v = (.ok u, w)) (last : ¬(k : Nat) < 6 → stop = modelBytes) :
    q = p ∧ w = v ∧ stop = (frozenExtent k).1 + (frozenExtent k).2 ∧
      (fields.offset, fields.length) = frozenExtent k ∧
      Opening.checkSection model k previousEnd = .ok (Opening.ofSection frozenSections k) := by
  obtain ⟨_, r, schema, h1⟩ := Fallible.bind_eq_ok layout
  obtain ⟨rfl, id, dtype, early, late⟩ := checkSectionSchema_facts schema
  obtain ⟨sum, r, added, h2⟩ := Fallible.bind_eq_ok h1
  obtain ⟨-, rfl, rfl⟩ := checkedAdd_eq_ok added
  obtain ⟨range, h3⟩ := require_bind_eq_ok h2
  obtain ⟨-, order, -⟩ := of_decide_eq_true range
  obtain ⟨canonical, h4⟩ := require_bind_eq_ok h3
  cases h4
  have offset : fields.offset = (Opening.ofSection frozenSections k).offset := by
    have canonical := of_decide_eq_true canonical
    rw [canonicalOffsets_eq] at canonical
    exact Option.some.inj canonical
  have size : fields.length = (Opening.ofSection frozenSections k).length ∧
      fields.count = Opening.ofSection Opening.sectionCounts k := by
    by_cases now : (k : Nat) < 6
    · exact ⟨(early now).2, (early now).1⟩
    · have six : k = 6 := by
        apply Fin.ext
        have lt := k.isLt
        show (k : Nat) = 6
        omega
      have total := last now
      have count := late now
      rw [offset] at total
      subst six
      have start : (Opening.ofSection frozenSections 6).offset = 3980480 := rfl
      have data : (Opening.ofSection frozenSections 6).length = 422782464 := rfl
      have counted : Opening.ofSection Opening.sectionCounts 6 = 422782464 := rfl
      rw [start, modelBytes] at total
      rw [data, counted, count]
      omega
  obtain ⟨-, rfl, rfl⟩ := sub64_facts between
  obtain ⟨padding, h5⟩ := require_bind_eq_ok evidence
  obtain ⟨-, h6⟩ := require_bind_eq_ok h5
  obtain ⟨-, rfl⟩ := require_eq_ok h6
  refine ⟨rfl, rfl, by rw [offset, size.1], by rw [offset, size.1], ?_⟩
  exact checkSection_ok length entry id dtype size.2 offset size.1 order
    (paddingZero_facts padding).1

/-- Where the inspector's loop passes and the last section ends with the file, the target's loop
passes, from any sections so far. -/
lemma sectionLoop_opens {digests : Digests} {left index previousEnd last : Nat}
    {sections : List SectionFields} (found : Vector Section 7)
    (length : model.length = modelBytes) (total : index + left = 7)
    (h : sectionLoop digests model (model.slice 256 448) left index previousEnd p =
      (.ok (sections, last), q)) (ends : last = modelBytes) :
    q = p ∧ (∃ result, Opening.checkSections model ((List.finRange 7).drop index) found previousEnd =
      .ok (result, last)) ∧
      sections.map (fun fields => (fields.offset, fields.length)) =
        ((List.finRange 7).drop index).map frozenExtent := by
  -- on the sections that are left, with the end of the one before them
  induction left generalizing index previousEnd sections found p with
  | zero =>
    cases h
    have none : (List.finRange 7).drop index = [] := List.drop_eq_nil_of_le (by simp; omega)
    rw [none]
    exact ⟨rfl, ⟨found, rfl⟩, rfl⟩
  | succ left ih =>
    obtain ⟨row, r, got, h1⟩ := Fallible.bind_eq_ok h
    obtain ⟨-, -, rfl, rfl⟩ := rangeOf_slice got
    have width : (index + 1) * 64 - index * 64 = 64 := by omega
    rw [width] at h1
    obtain ⟨fields, r, read, h2⟩ := Fallible.bind_eq_ok h1
    obtain ⟨rfl, entry⟩ := sectionFields_facts read
    obtain ⟨stop, r1, layout, h3⟩ := Fallible.bind_eq_ok h2
    obtain ⟨gap, r2, between, h4⟩ := Fallible.bind_eq_ok h3
    obtain ⟨hashed, r3, hash, h5⟩ := Fallible.bind_eq_ok h4
    obtain ⟨_, r4, evidence, h6⟩ := Fallible.bind_eq_ok h5
    obtain ⟨⟨rest, final⟩, r5, loop, h7⟩ := Fallible.bind_eq_ok h6
    cases h7
    have small : index < 7 := by omega
    -- the last section ends with the file
    have at_last : ¬index < 6 → stop = modelBytes := by
      intro late
      have none : left = 0 := by omega
      subst none
      cases loop
      exact ends
    obtain ⟨rfl, rfl, stop_eq, place, turn⟩ :=
      sectionTurn_opens (k := ⟨index, small⟩) length entry layout between evidence at_last
    obtain ⟨-, -, rfl⟩ := sub64_facts between
    obtain rfl := hashedRegion_facts hash
    have next : (List.finRange 7).drop index =
        ⟨index, small⟩ :: (List.finRange 7).drop (index + 1) := by
      rw [List.drop_eq_getElem_cons (by simpa using small)]
      simp
    obtain ⟨rfl, ⟨result, run⟩, rows⟩ := ih (found.set index frozenSections[index]) (by omega) loop
    refine ⟨rfl, ⟨result, ?_⟩, ?_⟩
    · rw [next, Opening.checkSections, Opening.bind_ok turn]
      rw [stop_eq] at run
      exact run
    · rw [next, List.map_cons, List.map_cons, rows, place]

end Sections

end Promptboot.ContainerInspect
