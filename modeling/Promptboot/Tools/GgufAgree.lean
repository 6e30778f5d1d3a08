import Promptboot.Tools.SourceReader

/-!
# The two GGUF readers agree

Whatever `parse_reader` reads, `source_tensors` reads too, from position to position, and the checks
that `parse_reader` makes at the end imply the counts that `source_tensors` asks for at the start.
Neither of them can panic.

The `noFault_` lemmas go through both readers. On the way to the agreement, `readValue_skips` says
that skipping a value ends where reading it does, and `readMetadata_skips`, `readInfos_agree` and
`placeTensors_agree` are the inductions on the three loops; `validateTensors_facts` and
`tiles_of_spans` are the tiling. The headline is `readersAgree`.
-/

namespace Promptboot

section Bounded
variable {α β : Type} {p q : Nat}

/-- A read succeeds if the bytes are there, whatever its errors would say. -/
lemma boundedRead_eq_ok_iff {errors : ReadErrors} {source : Source} {length : Nat}
    {bytes : List UInt8} :
    boundedRead errors source length p = (.ok bytes, q) ↔
      p + length < 2 ^ 64 ∧ p + length ≤ source.size ∧ p + length ≤ source.bytes.length ∧
        bytes = (source.bytes.drop p).take length ∧ q = p + length := by
  rw [boundedRead]
  constructor
  · intro h
    split_ifs at h
    · cases h
    · cases h
    · cases h
    · cases h
      exact ⟨by omega, by omega, by omega, rfl, rfl⟩
  · rintro ⟨fits, announced, there, rfl, rfl⟩
    rw [if_neg (by omega), if_neg (by omega), if_neg (by omega)]

end Bounded

section NoFault
variable {α β : Type}

/-- A bounded read does not fault. -/
lemma noFault_boundedRead {errors : ReadErrors} {source : Source} {length : Nat} :
    NoFault (boundedRead errors source length) := by
  intro p _
  refine ⟨trivial, fun e h => ?_⟩
  rw [boundedRead] at h
  split_ifs at h <;> cases h <;> exact Stop.noConfusion

/-- A number is unwrapped from as many bytes as were read. -/
lemma noFault_unwrap {errors : Nat → ReadErrors} {source : Source} {width : Nat} {c : Read Nat}
    (run : ∀ p, c p = (boundedRead (errors p) source width >>= unwrapLe width) p) : NoFault c := by
  intro p _
  refine ⟨trivial, ?_⟩
  rw [run]
  rcases got : boundedRead (errors p) source width p with ⟨e | bytes, q⟩
  · rw [Fallible.bind_error got]
    rintro _ ⟨⟩
    exact (noFault_boundedRead p trivial).2 e (by rw [got])
  · rw [Fallible.bind_ok got]
    obtain ⟨_, _, there, rfl, _⟩ := boundedRead_eq_ok_iff.1 got
    have len : ((source.bytes.drop p).take width).length = width := by
      rw [List.length_take, List.length_drop]
      omega
    rw [unwrapLe, if_pos len]
    rintro _ ⟨⟩

/-- A repeated read faults only if the read does. -/
lemma noFault_repeatRead {action : Read α} (h : NoFault action) (count : Nat) :
    NoFault (repeatRead action count) := by
  induction count with
  | zero => exact noFault_pure
  | succ count ih => exact .bind h fun _ => .bind ih fun _ => noFault_pure

end NoFault

namespace Gguf
variable {source : Source} {digestIs : List UInt8 → String → Bool}

/-- A read does not fault. -/
lemma noFault_read {length : Nat} : NoFault (read source length) :=
  fun p _ => noFault_boundedRead p trivial

/-- Reading a byte does not fault. -/
lemma noFault_u8 : NoFault (u8 source) := noFault_unwrap fun _ => rfl

/-- Reading a word does not fault. -/
lemma noFault_u32 : NoFault (u32 source) := noFault_unwrap fun _ => rfl

/-- Reading a double word does not fault. -/
lemma noFault_u64 : NoFault (u64 source) := noFault_unwrap fun _ => rfl

/-- Reading a half word does not fault. -/
lemma noFault_u16 : NoFault (u16 source) := noFault_unwrap fun _ => rfl

/-- Reading a scalar does not fault. -/
lemma noFault_scalarBits {dtype : Nat} : NoFault (scalarBits source dtype) := by
  rw [scalarBits.eq_def]
  split
  · exact noFault_u8
  · exact .bind noFault_u8 fun _ => noFault_pure
  · exact noFault_u16
  · exact .bind noFault_u16 fun _ => noFault_pure
  · exact noFault_u32
  · exact .bind noFault_u32 fun _ => noFault_pure
  · exact noFault_u32
  · exact noFault_u8
  · exact noFault_u64
  · exact noFault_u64
  · exact noFault_u64
  · exact noFault_fileError

/-- Reading a string does not fault. -/
lemma noFault_string {maximum : Nat} : NoFault (string source maximum) := by
  refine .bind noFault_u64 fun length => .bind noFault_require fun _ => ?_
  refine .bind noFault_read fun bytes => ?_
  split
  · exact noFault_pure
  · exact noFault_fileError

/-- Counting the elements does not fault. -/
lemma noFault_elementsOf {dims rest : List Nat} {elements : Nat} :
    NoFault (elementsOf dims rest elements) := by
  induction rest generalizing elements with
  | nil => exact noFault_pure
  | cons dim rest ih => exact .bind noFault_require fun _ => .bind noFault_checkedMul fun _ => ih

/-- The length of a tensor does not fault. -/
lemma noFault_tensorLength {dims : List Nat} {dtype : Nat} : NoFault (tensorLength dims dtype) := by
  refine .bind noFault_elementsOf fun elements => ?_
  split
  · exact noFault_checkedMul
  · split
    · exact noFault_checkedMul
    · exact noFault_fileError
  · split
    · exact noFault_checkedMul
    · exact noFault_fileError
  · exact noFault_fileError

/-- Reading a value does not fault. -/
lemma noFault_readValue {dtype : Nat} : NoFault (readValue source dtype) := by
  rw [readValue.eq_def]
  split
  · exact .bind noFault_string fun _ => noFault_pure
  · refine .bind noFault_u32 fun element => .bind noFault_u64 fun count => ?_
    refine .bind noFault_require fun _ => ?_
    split
    · exact .bind (noFault_repeatRead noFault_string count) fun _ => noFault_pure
    · exact .bind (noFault_repeatRead (.bind noFault_u32 fun _ => noFault_pure) count)
        fun _ => noFault_pure
    · exact .bind (noFault_repeatRead noFault_scalarBits count) fun _ => noFault_fileError
  · exact .bind noFault_scalarBits fun _ => noFault_pure

/-- Reading the metadata does not fault. -/
lemma noFault_readMetadata {count : Nat} {metadata : List (String × Value)} :
    NoFault (readMetadata source count metadata) := by
  induction count generalizing metadata with
  | zero => exact noFault_pure
  | succ count ih =>
    refine .bind noFault_string fun key => .bind noFault_u32 fun dtype => ?_
    exact .bind noFault_readValue fun value => .bind noFault_require fun _ => ih

/-- Reading the tensors' entries does not fault. -/
lemma noFault_readInfos {count : Nat} {infos : List TensorInfo} :
    NoFault (readInfos source count infos) := by
  induction count generalizing infos with
  | zero => exact noFault_pure
  | succ count ih =>
    refine .bind noFault_string fun name => .bind noFault_require fun _ => ?_
    refine .bind noFault_u32 fun rank => .bind noFault_require fun _ => ?_
    refine .bind (noFault_repeatRead noFault_u64 rank) fun dims => .bind noFault_u32 fun dtype => ?_
    exact .bind noFault_u64 fun relative => .bind noFault_tensorLength fun length => ih

/-- Placing the tensors does not fault. -/
lemma noFault_placeTensors {dataStart size : Nat} {infos : List TensorInfo} :
    NoFault (placeTensors dataStart size infos) := by
  induction infos with
  | nil => exact noFault_pure
  | cons info infos ih =>
    refine .bind noFault_checkedAdd fun offset => .bind noFault_checkedAdd fun stop => ?_
    exact .bind noFault_require fun _ => .bind ih fun _ => noFault_pure

/-- The check for overlaps does not fault. -/
lemma noFault_checkOverlap {intervals : List (Nat × Nat × String)} {previous : Nat} :
    NoFault (checkOverlap intervals previous) := by
  induction intervals generalizing previous with
  | nil => exact noFault_pure
  | cons interval intervals ih => exact .bind noFault_require fun _ => ih

/-- The check of an array of strings does not fault. -/
lemma noFault_validateStringArray {value : Option Value} {key expected : String} {count : Nat} :
    NoFault (validateStringArray digestIs value key count expected) := by
  rw [validateStringArray.eq_def]
  split
  · exact .bind noFault_require fun _ => noFault_require
  · exact noFault_fileError

/-- The check of an array of integers does not fault. -/
lemma noFault_validateI32Array {value : Option Value} {key expected : String} {count : Nat} :
    NoFault (validateI32Array digestIs value key count expected) := by
  rw [validateI32Array.eq_def]
  split
  · exact .bind noFault_require fun _ => noFault_require
  · exact noFault_fileError

/-- The check of the template does not fault. -/
lemma noFault_validateTemplate {value : Option Value} :
    NoFault (validateTemplate digestIs value) := by
  rw [validateTemplate.eq_def]
  split
  · exact noFault_require
  · exact noFault_fileError

/-- The checks of the metadata do not fault. -/
lemma noFault_validateMetadata {metadata : List (String × Value)} :
    NoFault (validateMetadata digestIs metadata) := by
  refine .bind noFault_require fun _ => .bind (.forM fun _ _ => noFault_require) fun _ => ?_
  refine .bind (.forM fun _ _ => noFault_require) fun _ => ?_
  refine .bind noFault_validateStringArray fun _ => .bind noFault_validateI32Array fun _ => ?_
  exact .bind noFault_validateStringArray fun _ => noFault_validateTemplate

/-- The schema counts types in an array that is long enough. -/
lemma noFault_checkRows {tensors : List (String × Tensor)} {rows : List TensorRow}
    {counts : List Nat} (within : ∀ row ∈ rows, row.dtype < counts.length) :
    NoFault (checkRows tensors rows counts) := by
  induction rows generalizing counts with
  | nil => exact noFault_pure
  | cons row rows ih =>
    obtain ⟨here, rest⟩ := List.forall_mem_cons.1 within
    rw [checkRows]
    split
    · exact noFault_fileError
    · refine .bind noFault_require fun _ => ?_
      rw [countType, if_pos here]
      exact ih fun row mem => by simpa using rest row mem

/-- The types of a layer's tensors are known. -/
lemma layerRole_dtype_lt : ∀ role ∈ layerRoles, role.2.2.1 < 9 := by decide

/-- The types of the expected tensors are known. -/
lemma dtype_lt_of_mem {row : TensorRow} (mem : row ∈ packTensorRows) : row.dtype < 9 := by
  simp only [packTensorRows, List.mem_append, List.mem_flatMap, List.mem_map, List.mem_cons,
    List.not_mem_nil, or_false] at mem
  rcases mem with (rfl | ⟨layer, _, role, known, rfl⟩) | rfl | rfl
  · decide
  · exact layerRole_dtype_lt role known
  · decide
  · decide

/-- The intervals of the tensors do not fault. -/
lemma noFault_tensorIntervals {tensors : List (String × Tensor)} :
    NoFault (tensorIntervals tensors) := by
  induction tensors with
  | nil => exact noFault_pure
  | cons row tensors ih =>
    exact .bind noFault_checkedAdd fun _ => .bind ih fun _ => noFault_pure

/-- The checks of the tensors do not fault. -/
lemma noFault_validateTensors {tensors : List (String × Tensor)} {dataStart size : Nat}
    (within : dataStart ≤ size) : NoFault (validateTensors tensors dataStart size) := by
  refine .bind noFault_require fun _ => ?_
  refine .bind (noFault_checkRows fun row mem => dtype_lt_of_mem mem) fun counts => ?_
  refine .bind noFault_require fun _ => .bind noFault_tensorIntervals fun intervals => ?_
  refine .bind noFault_require fun _ => ?_
  rw [sub64, if_pos within]
  exact .bind noFault_pure fun _ => noFault_require

/-- `parse_reader` does not panic. -/
lemma noFault_parseReader : NoFault (parseReader digestIs source) := by
  refine .bind noFault_read fun magic => .bind noFault_require fun _ => ?_
  refine .bind noFault_u32 fun version => .bind noFault_require fun _ => ?_
  refine .bind noFault_u64 fun tensorCount => .bind noFault_u64 fun metadataCount => ?_
  refine .bind noFault_require fun _ => .bind noFault_readMetadata fun metadata => ?_
  refine .bind noFault_readInfos fun infos => .bind .get fun infoEnd => ?_
  refine .bind noFault_checkedAdd fun aligned => noFault_require_bind fun within => ?_
  have within := of_decide_eq_true within
  refine .bind noFault_placeTensors fun tensors => .bind noFault_checkOverlap fun _ => ?_
  refine .bind ?_ fun _ => noFault_pure
  refine .bind noFault_require fun _ => .bind noFault_require fun _ => ?_
  exact .bind noFault_validateMetadata fun _ => noFault_validateTensors within

end Gguf

namespace SourceReader
variable {source : Source}

/-- The second reader's reads do not fault. -/
lemma noFault_read {amount : Nat} : NoFault (read source amount) := noFault_boundedRead

/-- Its words do not fault. -/
lemma noFault_u32 : NoFault (u32 source) := noFault_unwrap fun _ => rfl

/-- Its double words do not fault. -/
lemma noFault_u64 : NoFault (u64 source) := noFault_unwrap fun _ => rfl

/-- Its strings do not fault. -/
lemma noFault_string : NoFault (string source) := by
  refine .bind noFault_u64 fun length => .bind noFault_require fun _ => ?_
  refine .bind noFault_read fun bytes => ?_
  split
  · exact noFault_pure
  · exact noFault_fileError

/-- Skipping an element does not fault. -/
lemma noFault_skipElement {element : Nat} : NoFault (skipElement source element) := by
  rw [skipElement]
  split
  · exact .bind noFault_string fun _ => noFault_pure
  · split
    · exact .bind noFault_read fun _ => noFault_pure
    · exact noFault_fileError

/-- Skipping a value does not fault. -/
lemma noFault_skipValue {dtype : Nat} : NoFault (skipValue source dtype) := by
  rw [skipValue.eq_def]
  split
  · exact .bind noFault_string fun _ => noFault_pure
  · refine .bind noFault_u32 fun element => .bind noFault_u64 fun count => ?_
    refine .bind noFault_require fun _ => ?_
    exact .bind (noFault_repeatRead noFault_skipElement count) fun _ => noFault_pure
  · split
    · exact .bind noFault_read fun _ => noFault_pure
    · exact noFault_fileError

/-- Skipping the metadata does not fault. -/
lemma noFault_skipMetadata {count : Nat} {keys : List String} :
    NoFault (skipMetadata source count keys) := by
  induction count generalizing keys with
  | zero => exact noFault_pure
  | succ count ih =>
    refine .bind noFault_string fun key => .bind noFault_require fun _ => ?_
    exact .bind noFault_u32 fun dtype => .bind noFault_skipValue fun _ => ih

/-- Reading the dimensions does not fault. -/
lemma noFault_readDims {rank count : Nat} : NoFault (readDims source rank count) := by
  induction rank generalizing count with
  | zero => exact noFault_pure
  | succ rank ih =>
    refine .bind noFault_u64 fun dim => .bind noFault_require fun _ => ?_
    exact .bind noFault_checkedMul fun count => .bind ih fun _ => noFault_pure

/-- The bytes of a tensor do not fault. -/
lemma noFault_tensorBytes {dtype count : Nat} : NoFault (tensorBytes dtype count) := by
  rw [tensorBytes]
  split
  · exact noFault_checkedMul
  · split
    · exact noFault_checkedMul
    · split
      · exact noFault_checkedMul
      · exact noFault_fileError

/-- Its entries do not fault. -/
lemma noFault_readInfos {count : Nat} {infos : List Gguf.TensorInfo} :
    NoFault (readInfos source count infos) := by
  induction count generalizing infos with
  | zero => exact noFault_pure
  | succ count ih =>
    refine .bind noFault_string fun name => .bind noFault_require fun _ => ?_
    refine .bind noFault_u32 fun rank => .bind noFault_require fun _ => ?_
    refine .bind noFault_readDims fun dims => .bind noFault_u32 fun dtype => ?_
    exact .bind noFault_u64 fun relative => .bind noFault_tensorBytes fun length => ih

/-- Its placement does not fault. -/
lemma noFault_placeTensors {dataStart size : Nat} {infos : List Gguf.TensorInfo} :
    NoFault (placeTensors dataStart size infos) := by
  induction infos with
  | nil => exact noFault_pure
  | cons info infos ih =>
    refine .bind noFault_checkedAdd fun offset => .bind noFault_checkedAdd fun stop => ?_
    exact .bind noFault_require fun _ => .bind ih fun _ => noFault_pure

/-- `source_tensors` does not panic: its one unchecked sum comes behind the check of the position. -/
lemma noFault_sourceTensors : NoFault (sourceTensors source) := by
  refine .bind noFault_read fun magic => .bind noFault_require fun _ => ?_
  refine .bind noFault_u32 fun version => .bind noFault_require fun _ => ?_
  refine .bind noFault_u64 fun tensorCount => .bind noFault_u64 fun metadataCount => ?_
  refine .bind noFault_require fun _ => .bind noFault_skipMetadata fun _ => ?_
  refine .bind noFault_readInfos fun infos => .bind .get fun position => ?_
  refine noFault_require_bind fun exact => ?_
  have exact := of_decide_eq_true exact
  rw [add64, if_pos (by omega)]
  refine .bind noFault_pure fun aligned => .bind noFault_placeTensors fun tensors => ?_
  exact .bind noFault_require fun _ => noFault_pure

end SourceReader

section Agree
variable {source : Source} {p q : Nat}

/-- A word that one reader reads the other reads too. -/
lemma u32_agree {value : Nat} (h : Gguf.u32 source p = (.ok value, q)) :
    SourceReader.u32 source p = (.ok value, q) := by
  obtain ⟨bytes, r, got, rest⟩ := Fallible.bind_eq_ok h
  exact (Fallible.bind_ok (boundedRead_eq_ok_iff.2 (boundedRead_eq_ok_iff.1 got))).trans rest

/-- A double word that one reader reads the other reads too. -/
lemma u64_agree {value : Nat} (h : Gguf.u64 source p = (.ok value, q)) :
    SourceReader.u64 source p = (.ok value, q) := by
  obtain ⟨bytes, r, got, rest⟩ := Fallible.bind_eq_ok h
  exact (Fallible.bind_ok (boundedRead_eq_ok_iff.2 (boundedRead_eq_ok_iff.1 got))).trans rest

/-- The inspector allows longer strings. -/
lemma string_agree {maximum : Nat} (le : maximum ≤ 16 * 1024 * 1024) {value : String}
    (h : Gguf.string source maximum p = (.ok value, q)) :
    SourceReader.string source p = (.ok value, q) := by
  obtain ⟨length, r, number, h⟩ := Fallible.bind_eq_ok h
  obtain ⟨bounded, h⟩ := require_bind_eq_ok h
  obtain ⟨bytes, t, got, h⟩ := Fallible.bind_eq_ok h
  have bounded := of_decide_eq_true bounded
  have got' : SourceReader.read source length r = (.ok bytes, t) :=
    boundedRead_eq_ok_iff.2 (boundedRead_eq_ok_iff.1 got)
  rw [SourceReader.string, Fallible.bind_ok (u64_agree number),
    require_bind (decide_eq_true (by omega)), Fallible.bind_ok got']
  cases text : Gguf.fromUtf8 bytes with
  | none =>
    rw [text] at h
    cases h
  | some value' =>
    rw [text] at h
    exact h

/-- Reading a scalar moves the position as skipping its bytes does. -/
lemma scalar_skips {size : Nat} {c : Read Nat} {errors : Nat → ReadErrors} {value : Nat}
    (run : ∀ p, c p = (boundedRead (errors p) source size >>= unwrapLe size) p)
    (h : c p = (.ok value, q)) : ∃ bytes, SourceReader.read source size p = (.ok bytes, q) := by
  rw [run] at h
  obtain ⟨bytes, r, got, rest⟩ := Fallible.bind_eq_ok h
  have there := boundedRead_eq_ok_iff.1 got
  rw [unwrapLe] at rest
  split at rest
  case isTrue _ =>
    cases rest
    exact ⟨bytes, boundedRead_eq_ok_iff.2 there⟩
  case isFalse _ => cases rest

/-- A number that is read and mapped can be skipped. -/
lemma skips_of_bind {size : Nat} {c : Read Nat} {f : Nat → Nat} {value : Nat}
    (skips : ∀ {value q}, c p = (.ok value, q) →
      ∃ bytes, SourceReader.read source size p = (.ok bytes, q))
    (h : (c >>= fun value => pure (f value)) p = (.ok value, q)) :
    ∃ bytes, SourceReader.read source size p = (.ok bytes, q) := by
  obtain ⟨_, r, got, rest⟩ := Fallible.bind_eq_ok h
  cases rest
  exact skips got

/-- Each scalar type has its size. -/
lemma scalarBits_skips {dtype value : Nat} (h : Gguf.scalarBits source dtype p = (.ok value, q)) :
    ∃ size bytes, SourceReader.scalarSize dtype = some size ∧
      SourceReader.read source size p = (.ok bytes, q) := by
  have u8 : ∀ {value q}, Gguf.u8 source p = (.ok value, q) →
      ∃ bytes, SourceReader.read source 1 p = (.ok bytes, q) := scalar_skips fun _ => rfl
  have u16 : ∀ {value q}, Gguf.u16 source p = (.ok value, q) →
      ∃ bytes, SourceReader.read source 2 p = (.ok bytes, q) := scalar_skips fun _ => rfl
  have u32 : ∀ {value q}, Gguf.u32 source p = (.ok value, q) →
      ∃ bytes, SourceReader.read source 4 p = (.ok bytes, q) := scalar_skips fun _ => rfl
  have u64 : ∀ {value q}, Gguf.u64 source p = (.ok value, q) →
      ∃ bytes, SourceReader.read source 8 p = (.ok bytes, q) := scalar_skips fun _ => rfl
  rw [Gguf.scalarBits.eq_def] at h
  split at h
  · exact ⟨1, (u8 h).elim fun bytes got => ⟨bytes, rfl, got⟩⟩
  · exact ⟨1, (skips_of_bind u8 h).elim fun bytes got => ⟨bytes, rfl, got⟩⟩
  · exact ⟨2, (u16 h).elim fun bytes got => ⟨bytes, rfl, got⟩⟩
  · exact ⟨2, (skips_of_bind u16 h).elim fun bytes got => ⟨bytes, rfl, got⟩⟩
  · exact ⟨4, (u32 h).elim fun bytes got => ⟨bytes, rfl, got⟩⟩
  · exact ⟨4, (skips_of_bind u32 h).elim fun bytes got => ⟨bytes, rfl, got⟩⟩
  · exact ⟨4, (u32 h).elim fun bytes got => ⟨bytes, rfl, got⟩⟩
  · exact ⟨1, (u8 h).elim fun bytes got => ⟨bytes, rfl, got⟩⟩
  · exact ⟨8, (u64 h).elim fun bytes got => ⟨bytes, rfl, got⟩⟩
  · exact ⟨8, (u64 h).elim fun bytes got => ⟨bytes, rfl, got⟩⟩
  · exact ⟨8, (u64 h).elim fun bytes got => ⟨bytes, rfl, got⟩⟩
  · cases h

/-- An action that follows another step by step follows it through a loop. -/
lemma repeatRead_follows {α β : Type} {action : Read α} {action' : Read β}
    (follows : ∀ {p q value}, action p = (.ok value, q) → ∃ value', action' p = (.ok value', q))
    {count : Nat} {values : List α} (h : repeatRead action count p = (.ok values, q)) :
    ∃ values', repeatRead action' count p = (.ok values', q) := by
  induction count generalizing p q values with
  | zero =>
    cases h
    exact ⟨[], rfl⟩
  | succ count ih =>
    obtain ⟨value, r, first, h⟩ := Fallible.bind_eq_ok h
    obtain ⟨rest, t, later, h⟩ := Fallible.bind_eq_ok h
    cases h
    obtain ⟨value', first'⟩ := follows first
    obtain ⟨rest', later'⟩ := ih later
    exact ⟨value' :: rest', by rw [repeatRead, Fallible.bind_ok first', Fallible.bind_ok later']; rfl⟩

/-- A string that one reader reads the other skips. -/
lemma skipElement_string {value : String} {maximum : Nat} (le : maximum ≤ 16 * 1024 * 1024)
    (h : Gguf.string source maximum p = (.ok value, q)) :
    ∃ u, SourceReader.skipElement source 8 p = (.ok u, q) := by
  refine ⟨(), ?_⟩
  rw [SourceReader.skipElement, if_pos rfl, Fallible.bind_ok (string_agree le h)]
  rfl

/-- An integer that one reader reads the other skips. -/
lemma skipElement_i32 {value : Int} (h : Gguf.i32 source p = (.ok value, q)) :
    ∃ u, SourceReader.skipElement source 5 p = (.ok u, q) := by
  obtain ⟨number, r, got, h⟩ := Fallible.bind_eq_ok h
  cases h
  have run : ∀ p, Gguf.u32 source p = (boundedRead _ source 4 >>= unwrapLe 4) p := fun _ => rfl
  obtain ⟨bytes, skips⟩ := scalar_skips run got
  refine ⟨(), ?_⟩
  rw [SourceReader.skipElement, if_neg (by decide)]
  exact Fallible.bind_ok skips

/-- A value that the packer reads is one that the inspector skips. -/
lemma readValue_skips {dtype : Nat} {value : Gguf.Value}
    (h : Gguf.readValue source dtype p = (.ok value, q)) :
    SourceReader.skipValue source dtype p = (.ok (), q) := by
  rw [Gguf.readValue.eq_def] at h
  split at h
  · obtain ⟨text, r, got, h⟩ := Fallible.bind_eq_ok h
    cases h
    rw [SourceReader.skipValue]
    exact Fallible.bind_ok (string_agree (Nat.le_refl _) got)
  · obtain ⟨element, r, first, h⟩ := Fallible.bind_eq_ok h
    obtain ⟨count, t, second, h⟩ := Fallible.bind_eq_ok h
    obtain ⟨bounded, h⟩ := require_bind_eq_ok h
    have bounded := of_decide_eq_true bounded
    rw [SourceReader.skipValue, Fallible.bind_ok (u32_agree first),
      Fallible.bind_ok (u64_agree second), require_bind (decide_eq_true bounded)]
    split at h
    · obtain ⟨values, u, got, h⟩ := Fallible.bind_eq_ok h
      cases h
      obtain ⟨skipped, skips⟩ := repeatRead_follows (skipElement_string (by decide)) got
      exact Fallible.bind_ok skips
    · obtain ⟨values, u, got, h⟩ := Fallible.bind_eq_ok h
      cases h
      obtain ⟨skipped, skips⟩ := repeatRead_follows skipElement_i32 got
      exact Fallible.bind_ok skips
    · obtain ⟨_, u, _, h⟩ := Fallible.bind_eq_ok h
      cases h
  · rename_i not_string not_array
    obtain ⟨bits, r, got, h⟩ := Fallible.bind_eq_ok h
    cases h
    obtain ⟨size, bytes, known, skips⟩ := scalarBits_skips got
    rw [SourceReader.skipValue.eq_3 _ _ not_string not_array, known]
    exact Fallible.bind_ok skips

/-- A key is among the rows or among their keys. -/
lemma any_key_iff {α : Type} {rows : List (String × α)} {key : String} :
    (rows.any fun row => row.1 = key) = (rows.map Prod.fst).contains key := by
  rw [Bool.eq_iff_iff, List.any_eq_true, List.contains_iff_mem, List.mem_map]
  simp only [decide_eq_true_eq]

/-- The metadata loops go together; the packer's adds one entry with a new key each time. -/
lemma readMetadata_skips {count : Nat} {metadata result : List (String × Gguf.Value)}
    (nodup : (metadata.map Prod.fst).Nodup)
    (h : Gguf.readMetadata source count metadata p = (.ok result, q)) :
    SourceReader.skipMetadata source count (metadata.map Prod.fst) p = (.ok (), q) ∧
      (result.map Prod.fst).Nodup ∧ result.length = metadata.length + count := by
  induction count generalizing metadata p with
  | zero =>
    cases h
    exact ⟨rfl, nodup, rfl⟩
  | succ count ih =>
    obtain ⟨key, r, first, h⟩ := Fallible.bind_eq_ok h
    obtain ⟨dtype, t, second, h⟩ := Fallible.bind_eq_ok h
    obtain ⟨value, u, third, h⟩ := Fallible.bind_eq_ok h
    obtain ⟨fresh, h⟩ := require_bind_eq_ok h
    rw [any_key_iff] at fresh
    have new : key ∉ metadata.map Prod.fst := by simpa using fresh
    have nodup' : ((metadata ++ [(key, value)]).map Prod.fst).Nodup := by
      rw [List.map_append]
      exact List.nodup_append.2 ⟨nodup, by simp, by
        rintro a mem b only rfl
        simp only [List.map_cons, List.map_nil, List.mem_singleton] at only
        exact new (only ▸ mem)⟩
    obtain ⟨skips, distinct, length⟩ := ih nodup' h
    refine ⟨?_, distinct, ?_⟩
    · rw [SourceReader.skipMetadata, Fallible.bind_ok (string_agree (by decide) first),
        require_bind fresh, Fallible.bind_ok (u32_agree second),
        Fallible.bind_ok (readValue_skips third)]
      rw [List.map_append] at skips
      exact skips
    · rw [length, List.length_append, List.length_singleton]
      omega

/-- Dimensions that are read and then multiplied are dimensions multiplied as they are read. -/
lemma dims_agree {rank start product r t : Nat} {dims all : List Nat}
    (h : repeatRead (Gguf.u64 source) rank p = (.ok dims, q))
    (multiplied : Gguf.elementsOf all dims start r = (.ok product, t)) :
    SourceReader.readDims source rank start p = (.ok (dims, product), q) ∧ t = r := by
  induction rank generalizing p start dims with
  | zero =>
    cases h
    cases multiplied
    exact ⟨rfl, rfl⟩
  | succ rank ih =>
    obtain ⟨dim, u, first, h⟩ := Fallible.bind_eq_ok h
    obtain ⟨rest, v, later, h⟩ := Fallible.bind_eq_ok h
    cases h
    obtain ⟨nonzero, behind⟩ := require_bind_eq_ok multiplied
    obtain ⟨count, w, step, remaining⟩ := Fallible.bind_eq_ok behind
    obtain ⟨fits, rfl, rfl⟩ := checkedMul_eq_ok step
    obtain ⟨rest_agree, same⟩ := ih later remaining
    refine ⟨?_, same⟩
    rw [SourceReader.readDims, Fallible.bind_ok (u64_agree first), require_bind nonzero,
      Fallible.bind_ok (checkedMul_ok fits), Fallible.bind_ok rest_agree]
    rfl

/-- The inspector has one message for every bad type or length. -/
lemma tensorLength_agree {dims : List Nat} {dtype length : Nat}
    (h : Gguf.tensorLength dims dtype p = (.ok length, q)) :
    ∃ product r, Gguf.elementsOf dims dims 1 p = (.ok product, r) ∧
      SourceReader.tensorBytes dtype product r = (.ok length, q) := by
  obtain ⟨product, r, multiplied, h⟩ := Fallible.bind_eq_ok h
  refine ⟨product, r, multiplied, ?_⟩
  have scaled : ∀ {a b : Nat} {message message' : String},
      checkedMul a b message r = (.ok length, q) → checkedMul a b message' r = (.ok length, q) := by
    intro a b message message' step
    obtain ⟨fits, rfl, rfl⟩ := checkedMul_eq_ok step
    exact checkedMul_ok fits
  rw [SourceReader.tensorBytes]
  split at h
  · exact scaled h
  · split at h
    case isTrue divisible =>
      rw [if_neg (by decide), if_pos ⟨rfl, divisible⟩]
      exact scaled h
    case isFalse _ => cases h
  · split at h
    case isTrue divisible =>
      rw [if_neg (by decide), if_neg (by simp), if_pos ⟨rfl, divisible⟩]
      exact scaled h
    case isFalse _ => cases h
  · cases h

/-- The loops over the tensor infos go together. -/
lemma readInfos_agree {count : Nat} {infos result : List Gguf.TensorInfo}
    (nodup : (infos.map Gguf.TensorInfo.name).Nodup)
    (h : Gguf.readInfos source count infos p = (.ok result, q)) :
    SourceReader.readInfos source count infos p = (.ok result, q) ∧
      (result.map Gguf.TensorInfo.name).Nodup ∧ result.length = infos.length + count := by
  induction count generalizing infos p with
  | zero =>
    cases h
    exact ⟨rfl, nodup, rfl⟩
  | succ count ih =>
    obtain ⟨name, p1, first, h⟩ := Fallible.bind_eq_ok h
    obtain ⟨fresh, h⟩ := require_bind_eq_ok h
    obtain ⟨rank, p2, second, h⟩ := Fallible.bind_eq_ok h
    obtain ⟨bounded, h⟩ := require_bind_eq_ok h
    obtain ⟨dims, p3, third, h⟩ := Fallible.bind_eq_ok h
    obtain ⟨dtype, p4, fourth, h⟩ := Fallible.bind_eq_ok h
    obtain ⟨relative, p5, fifth, h⟩ := Fallible.bind_eq_ok h
    obtain ⟨length, p6, sixth, later⟩ := Fallible.bind_eq_ok h
    obtain ⟨product, p7, multiplied, bytes⟩ := tensorLength_agree sixth
    obtain ⟨dims_read, rfl⟩ := dims_agree third multiplied
    have new : ∀ info ∈ infos, info.name ≠ name := by simpa using fresh
    let info : Gguf.TensorInfo := ⟨name, dims, dtype, relative, length⟩
    have nodup' : ((infos ++ [info]).map Gguf.TensorInfo.name).Nodup := by
      rw [List.map_append]
      refine List.nodup_append.2 ⟨nodup, by simp, ?_⟩
      rintro a mem b only rfl
      obtain ⟨other, known, rfl⟩ := List.mem_map.1 mem
      simp only [List.map_cons, List.map_nil, List.mem_singleton] at only
      exact new other known only
    obtain ⟨rest, distinct, total⟩ := ih nodup' later
    refine ⟨?_, distinct, ?_⟩
    · rw [SourceReader.readInfos, Fallible.bind_ok (string_agree (by decide) first),
        require_bind fresh, Fallible.bind_ok (u32_agree second), require_bind bounded,
        Fallible.bind_ok dims_read]
      simp only
      rw [Fallible.bind_ok (u32_agree fourth), Fallible.bind_ok (u64_agree fifth),
        Fallible.bind_ok bytes, rest]
    · rw [total, List.length_append, List.length_singleton]
      omega

/-- The tensors' ranges of bytes. -/
def ranges (tensors : List (String × Tensor)) : List (Nat × Nat) :=
  tensors.map fun (_, tensor) => (tensor.offset, tensor.offset + tensor.length)

/-- Tensors that one reader places the other places too. -/
lemma placeTensors_agree {dataStart size : Nat} {infos : List Gguf.TensorInfo}
    {tensors : List (String × Tensor)}
    (h : Gguf.placeTensors dataStart size infos p = (.ok tensors, q)) :
    SourceReader.placeTensors dataStart size infos p = (.ok tensors, q) ∧ q = p ∧
      tensors.map Prod.fst = infos.map Gguf.TensorInfo.name := by
  induction infos generalizing tensors with
  | nil =>
    cases h
    exact ⟨rfl, rfl, rfl⟩
  | cons info infos ih =>
    obtain ⟨offset, r, first, h1⟩ := Fallible.bind_eq_ok h
    obtain ⟨fits, rfl, rfl⟩ := checkedAdd_eq_ok first
    obtain ⟨stop, t, second, h2⟩ := Fallible.bind_eq_ok h1
    obtain ⟨stop_fits, rfl, rfl⟩ := checkedAdd_eq_ok second
    obtain ⟨within, h3⟩ := require_bind_eq_ok h2
    obtain ⟨rest, u, later, h4⟩ := Fallible.bind_eq_ok h3
    cases h4
    obtain ⟨agree, rfl, names⟩ := ih later
    refine ⟨?_, rfl, by rw [List.map_cons, names, List.map_cons]⟩
    rw [SourceReader.placeTensors, Fallible.bind_ok (checkedAdd_ok fits),
      Fallible.bind_ok (checkedAdd_ok stop_fits), require_bind within, Fallible.bind_ok agree]
    rfl

/-- The intervals are the ranges of the tensors. -/
lemma tensorIntervals_eq {tensors : List (String × Tensor)} {intervals : List (Nat × Nat)}
    (h : Gguf.tensorIntervals tensors p = (.ok intervals, q)) : intervals = ranges tensors := by
  induction tensors generalizing intervals with
  | nil =>
    cases h
    rfl
  | cons row tensors ih =>
    obtain ⟨stop, r, first, h1⟩ := Fallible.bind_eq_ok h
    obtain ⟨_, rfl, rfl⟩ := checkedAdd_eq_ok first
    obtain ⟨rest, t, later, h2⟩ := Fallible.bind_eq_ok h1
    cases h2
    rw [ih later]
    rfl

end Agree

section Tiling

/-- The ranges lie between `start` and `stop` and every byte there is in exactly one of them. -/
structure Tiles (ranges : List (Nat × Nat)) (start stop : Nat) : Prop where
  within : ∀ range ∈ ranges, start ≤ range.1 ∧ range.2 ≤ stop
  once : ∀ x, start ≤ x → x < stop → ranges.countP (fun range => range.1 ≤ x ∧ x < range.2) = 1

/-- A tiling in another order. -/
lemma Tiles.perm {ranges ranges' : List (Nat × Nat)} {start stop : Nat}
    (h : Tiles ranges start stop) (perm : ranges.Perm ranges') : Tiles ranges' start stop where
  within range mem := h.within range (perm.mem_iff.2 mem)
  once x above below := (perm.countP_eq _).symm.trans (h.once x above below)

/-- Ranges span an interval when the first starts it and the rest goes on. -/
lemma spans_cons_cons {a b : Nat × Nat} {rest : List (Nat × Nat)} {start stop : Nat} :
    Gguf.spans (a :: b :: rest) start stop = true ↔
      a.1 = start ∧ Gguf.spans (b :: rest) a.2 stop = true := by
  simp [Gguf.spans]
  grind

/-- Ranges that follow each other cover each byte between their ends once, and no other. -/
lemma spans_cover {ranges : List (Nat × Nat)} {start stop : Nat}
    (ordered : ∀ range ∈ ranges, range.1 ≤ range.2)
    (h : Gguf.spans ranges start stop = true) :
    start ≤ stop ∧ (∀ range ∈ ranges, start ≤ range.1 ∧ range.2 ≤ stop) ∧
      ∀ x, ranges.countP (fun range => range.1 ≤ x ∧ x < range.2) =
        if start ≤ x ∧ x < stop then 1 else 0 := by
  induction ranges generalizing start with
  | nil => simp [Gguf.spans] at h
  | cons a rest ih =>
    have first := ordered a List.mem_cons_self
    cases rest with
    | nil =>
      obtain ⟨rfl, rfl⟩ : a.1 = start ∧ a.2 = stop := by simpa [Gguf.spans] using h
      exact ⟨first, by simp, fun x => by simp [List.countP_cons]⟩
    | cons b rest =>
      obtain ⟨rfl, follows⟩ := spans_cons_cons.1 h
      obtain ⟨le, within, once⟩ :=
        ih (fun range mem => ordered range (List.mem_cons_of_mem _ mem)) follows
      refine ⟨by omega, ?_, fun x => ?_⟩
      · rintro range (_ | ⟨_, mem⟩)
        · exact ⟨Nat.le_refl _, le⟩
        · have inside := within range mem
          exact ⟨by omega, inside.2⟩
      · rw [List.countP_cons, once x]
        simp only [decide_eq_true_eq]
        split_ifs <;> omega

/-- Ranges that span an interval in order tile it. -/
lemma tiles_of_spans {ranges : List (Nat × Nat)} {start stop : Nat}
    (ordered : ∀ range ∈ ranges, range.1 ≤ range.2)
    (h : Gguf.spans (ranges.mergeSort Gguf.before) start stop = true) :
    Tiles ranges start stop := by
  have perm := List.mergeSort_perm ranges Gguf.before
  obtain ⟨_, within, once⟩ := spans_cover
    (fun range mem => ordered range (perm.mem_iff.1 mem)) h
  have sorted : Tiles (ranges.mergeSort Gguf.before) start stop :=
    ⟨within, fun x above below => by rw [once, if_pos ⟨above, below⟩]⟩
  exact sorted.perm perm

end Tiling

section Counts
variable {p q : Nat}

/-- No key is expected twice. -/
lemma expectedKeys_nodup : Gguf.expectedKeys.Nodup := by decide +kernel

/-- As many keys are expected as the source counts. -/
lemma expectedKeys_length : Gguf.expectedKeys.length = 26 := rfl

/-- There is a row for every tensor. -/
lemma packTensorRows_length : Gguf.packTensorRows.length = 291 := by
  simp only [Gguf.packTensorRows, List.length_append, List.length_flatMap, List.length_map]
  decide

/-- Metadata with the frozen set of keys, each once, have 26 entries. -/
lemma metadata_length {digestIs : List UInt8 → String → Bool}
    {metadata : List (String × Gguf.Value)} {u : Unit} (nodup : (metadata.map Prod.fst).Nodup)
    (h : Gguf.validateMetadata digestIs metadata p = (.ok u, q)) : metadata.length = 26 := by
  obtain ⟨keys, _⟩ := require_bind_eq_ok h
  obtain ⟨known, present⟩ := (Bool.and_eq_true _ _).mp keys
  have same : ∀ key, key ∈ metadata.map Prod.fst ↔ key ∈ Gguf.expectedKeys := by
    intro key
    constructor
    · intro mem
      obtain ⟨row, there, rfl⟩ := List.mem_map.1 mem
      exact List.contains_iff_mem.1 (List.all_eq_true.1 known row there)
    · intro mem
      have found := List.all_eq_true.1 present key mem
      rw [any_key_iff] at found
      exact List.contains_iff_mem.1 found
  have perm := (List.perm_ext_iff_of_nodup nodup expectedKeys_nodup).2 same
  rw [← List.length_map (f := Prod.fst), perm.length_eq, expectedKeys_length]

/-- Behind the checks there are all tensors, and they span the data. -/
lemma validateTensors_facts {tensors : List (String × Tensor)} {dataStart size : Nat} {u : Unit}
    (h : Gguf.validateTensors tensors dataStart size p = (.ok u, q)) :
    tensors.length = 291 ∧
      Gguf.spans ((ranges tensors).mergeSort Gguf.before) dataStart size = true := by
  obtain ⟨names, h⟩ := require_bind_eq_ok h
  obtain ⟨count, _⟩ := (Bool.and_eq_true _ _).mp names
  obtain ⟨counts, r, _, h⟩ := Fallible.bind_eq_ok h
  obtain ⟨_, h⟩ := require_bind_eq_ok h
  obtain ⟨intervals, t, gathered, h⟩ := Fallible.bind_eq_ok h
  obtain ⟨spanned, _⟩ := require_bind_eq_ok h
  rw [tensorIntervals_eq gathered] at spanned
  rw [← packTensorRows_length]
  exact ⟨of_decide_eq_true count, spanned⟩

end Counts

/-- The two readers of one source: neither panics, and what `parse_reader` accepts is accepted by
`source_tensors`, with the same tensors by name, which tile the bytes from the aligned end of the
infos to the end of the source. -/
structure ReadersAgree (digestIs : List UInt8 → String → Bool) (source : Source) : Prop where
  parse_noFault : NoFault (Gguf.parseReader digestIs source)
  inspect_noFault : NoFault (SourceReader.sourceTensors source)
  accepted : ∀ gguf stop, Gguf.parseReader digestIs source 0 = (.ok gguf, stop) →
    ∃ infoEnd, SourceReader.sourceTensors source 0 = (.ok gguf.tensors, infoEnd) ∧
      (gguf.tensors.map Prod.fst).Nodup ∧
      Tiles (ranges gguf.tensors) (Gguf.alignDown32 (infoEnd + 31)) source.size

section Readers
variable {digestIs : List UInt8 → String → Bool} {source : Source} {p q : Nat}

/-- A tensor's range is in order. -/
lemma ranges_ordered {tensors : List (String × Tensor)} :
    ∀ range ∈ ranges tensors, range.1 ≤ range.2 := by
  intro range mem
  obtain ⟨row, _, rfl⟩ := List.mem_map.1 mem
  exact Nat.le_add_right _ _

/-- The final checks fix the counts and the position that `source_tensors` asks for. -/
lemma validateExact_facts {metadata : List (String × Gguf.Value)} {tensors : List (String × Tensor)}
    {infoEnd dataStart size : Nat} {u : Unit} (nodup : (metadata.map Prod.fst).Nodup)
    (h : Gguf.validateExact digestIs metadata tensors infoEnd dataStart size p = (.ok u, q)) :
    infoEnd = 5947741 ∧ metadata.length = 26 ∧ tensors.length = 291 ∧
      Gguf.spans ((ranges tensors).mergeSort Gguf.before) dataStart size = true := by
  obtain ⟨_, h⟩ := require_bind_eq_ok h
  obtain ⟨offsets, h⟩ := require_bind_eq_ok h
  obtain ⟨_, r, rows, h⟩ := Fallible.bind_eq_ok h
  obtain ⟨total, spanned⟩ := validateTensors_facts h
  exact ⟨(of_decide_eq_true offsets).1, metadata_length nodup rows, total, spanned⟩

/-- The inspector takes every step of the packer. -/
lemma parseReader_agree {gguf : GgufFile}
    (h : Gguf.parseReader digestIs source p = (.ok gguf, q)) :
    ∃ infoEnd, SourceReader.sourceTensors source p = (.ok gguf.tensors, infoEnd) ∧
      (gguf.tensors.map Prod.fst).Nodup ∧
      Tiles (ranges gguf.tensors) (Gguf.alignDown32 (infoEnd + 31)) source.size := by
  -- the reads of the packer's reader, in their order
  obtain ⟨magic, p1, read_magic, h⟩ := Fallible.bind_eq_ok h
  obtain ⟨is_gguf, h⟩ := require_bind_eq_ok h
  obtain ⟨version, p2, read_version, h⟩ := Fallible.bind_eq_ok h
  obtain ⟨is_three, h⟩ := require_bind_eq_ok h
  obtain ⟨tensorCount, p3, read_tensors, h⟩ := Fallible.bind_eq_ok h
  obtain ⟨metadataCount, p4, read_rows, h⟩ := Fallible.bind_eq_ok h
  obtain ⟨_, h⟩ := require_bind_eq_ok h
  obtain ⟨metadata, p5, read_metadata, h⟩ := Fallible.bind_eq_ok h
  obtain ⟨infos, infoEnd, read_infos, h⟩ := Fallible.bind_eq_ok h
  obtain ⟨_, p7, position, h⟩ := Fallible.bind_eq_ok h
  obtain ⟨aligned, p8, add, placing⟩ := Fallible.bind_eq_ok h
  cases position
  obtain ⟨fits, rfl, rfl⟩ := checkedAdd_eq_ok add
  obtain ⟨within, placing⟩ := require_bind_eq_ok placing
  obtain ⟨tensors, p9, place, placing⟩ := Fallible.bind_eq_ok placing
  obtain ⟨_, p10, overlap, placing⟩ := Fallible.bind_eq_ok placing
  obtain ⟨_, p11, validate, result⟩ := Fallible.bind_eq_ok placing
  cases result
  -- each part of them is what the inspector's reader does there
  obtain ⟨skips, keys, rows⟩ := readMetadata_skips (by simp) read_metadata
  rw [List.map_nil] at skips
  obtain ⟨infos_agree, names, infos_count⟩ := readInfos_agree (by simp) read_infos
  obtain ⟨placed, rfl, named⟩ := placeTensors_agree place
  obtain ⟨at_end, total_rows, total, spanned⟩ := validateExact_facts keys validate
  have metadataCount_eq : metadataCount = 26 := by simpa [total_rows] using rows.symm
  have tensorCount_eq : tensorCount = 291 := by
    rw [← total, ← List.length_map (f := Prod.fst), named, List.length_map, infos_count]
    simp
  have magic_agree : SourceReader.read source 4 p = (.ok magic, p1) :=
    boundedRead_eq_ok_iff.2 (boundedRead_eq_ok_iff.1 read_magic)
  refine ⟨_, ?_, named ▸ names, tiles_of_spans ranges_ordered spanned⟩
  rw [SourceReader.sourceTensors, Fallible.bind_ok magic_agree, require_bind is_gguf,
    Fallible.bind_ok (u32_agree read_version), require_bind is_three,
    Fallible.bind_ok (u64_agree read_tensors), Fallible.bind_ok (u64_agree read_rows),
    require_bind (decide_eq_true ⟨tensorCount_eq, metadataCount_eq⟩), Fallible.bind_ok skips,
    Fallible.bind_ok infos_agree, Fallible.bind_ok (Fallible.get_apply _),
    require_bind (decide_eq_true at_end), add64, if_pos (by omega)]
  exact (Fallible.bind_ok placed).trans (require_bind spanned)

/-- The packer's reader and the inspector's agree on every source, whatever the digests say. -/
theorem readersAgree (digestIs : List UInt8 → String → Bool) (source : Source) :
    ReadersAgree digestIs source where
  parse_noFault := Gguf.noFault_parseReader
  inspect_noFault := SourceReader.noFault_sourceTensors
  accepted _ _ h := parseReader_agree h

end Readers

end Promptboot
