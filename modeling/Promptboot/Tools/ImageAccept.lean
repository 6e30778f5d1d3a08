import Promptboot.Tools.ImageLayout

/-!
# When the image builder succeeds

Behind a successful allocation nothing can stop the builder: every chain fits the table, every
size fits its entry and every cluster number is one of the data area.

`distributionRows_ok` and `allocate_ok` run the allocation on files that are placed one behind the
other. `Total` is what a step that cannot fail keeps, with its rules; `chainFat_ok` and `buildFat_ok`
are the table, `total_writeDistribution` the directories and files of the distribution. The headline
is `buildFatImage_ok`.
-/

namespace Promptboot.Image
open Buffer

section Total
variable {σ α β : Type}

/-- A computation that succeeds from every state. -/
def Total (c : Fallible σ Stop α) : Prop := ∀ s, ∃ a t, c s = (.ok a, t)

/-- A value succeeds from every state. -/
lemma Total.pure {a : α} : Total (Pure.pure a : Fallible σ Stop α) := fun s => ⟨a, s, rfl⟩

/-- A change succeeds from every state. -/
lemma Total.modify {f : σ → σ} : Total (Fallible.modify f : Fallible σ Stop Unit) :=
  fun s => ⟨(), f s, rfl⟩

/-- Parts that succeed succeed one behind the other. -/
lemma Total.bind {c : Fallible σ Stop α} {f : α → Fallible σ Stop β} (first : Total c)
    (second : ∀ a, Total (f a)) : Total (c >>= f) := by
  intro s
  obtain ⟨a, t, run⟩ := first s
  rw [Fallible.bind_ok run]
  exact second a t

/-- What succeeds from every state succeeds from one. -/
lemma Total.ok {c : Fallible σ Stop Unit} (h : Total c) (s : σ) : ∃ t, c s = (.ok (), t) := by
  obtain ⟨_, t, run⟩ := h s
  exact ⟨t, run⟩

end Total

section Success
variable {p : Buffer}

/-- The clusters of a payload are counted. -/
lemma clusters_ok {size : Nat} (pos : 0 < size) (fits : size < 2 ^ 32) :
    clusters size p = (.ok (clusterCount size), p) := by
  have small : size + (clusterBytes - 1) < 2 ^ 64 := by
    simp only [clusterBytes]
    omega
  rw [clusters, if_neg (by omega), if_pos small]
  rfl

/-- A copy within the buffer succeeds. -/
lemma copySlice_ok {buffer : Buffer} {offset : Nat} {bytes : List UInt8}
    (fits : offset + bytes.length ≤ buffer.length) :
    copySlice buffer offset bytes p = (.ok (buffer.put offset bytes), p) := by
  rw [copySlice, if_pos fits]
  rfl

/-- The rest of a chain is linked within the table. -/
lemma chainFrom_ok {fat : Buffer} {first count left index : Nat} (total : index + left = count)
    (fits : first + count ≤ 65536) (length : fat.length = 131072) :
    ∃ fat', chainFrom fat first count left index p = (.ok fat', p) := by
  induction left generalizing fat index with
  | zero => exact ⟨fat, rfl⟩
  | succ left ih =>
    have inside : (first + index) * 2 + 2 ≤ fat.length := by omega
    rw [chainFrom, Fallible.bind_ok (checkedAdd_ok (by omega)),
      require_bind (decide_eq_true (by omega)), Fallible.bind_ok (copySlice_ok inside)]
    exact ih (by omega) ((length_put_of_fits inside).trans length)

/-- A chain is linked within the table. -/
lemma chainFat_ok {fat : Buffer} {first count : Nat} (fits : first + count ≤ 65536)
    (length : fat.length = 131072) :
    ∃ fat', chainFat fat first count p = (.ok fat', p) ∧ fat'.length = 131072 := by
  obtain ⟨fat', run⟩ := chainFrom_ok (p := p) (Nat.zero_add count) fits length
  exact ⟨fat', run, (chainFat_facts run).2.1.trans length⟩

/-- The chains of the rows are linked within the table. -/
lemma chainRows_ok {fat : Buffer} {rows : List DistributionRow}
    (fits : ∀ row ∈ rows, 0 < row.size ∧ row.size < 2 ^ 32 ∧
      row.first + clusterCount row.size ≤ 65536) (length : fat.length = 131072) :
    ∃ fat', chainRows fat rows p = (.ok fat', p) := by
  induction rows generalizing fat with
  | nil => exact ⟨fat, rfl⟩
  | cons row rows ih =>
    obtain ⟨pos, small, stop⟩ := fits row List.mem_cons_self
    obtain ⟨next, run, length'⟩ := chainFat_ok (p := p) stop length
    rw [chainRows, Fallible.bind_ok (clusters_ok pos small), Fallible.bind_ok run]
    exact ih (fun other mem => fits other (List.mem_cons_of_mem _ mem)) length'

end Success

section Build
variable {layout : Layout} {efi manifest model : List UInt8}
  {root : Option (String → Option (List UInt8))} {p : Buffer}

/-- A payload within the image has a size of 32 bits. -/
lemma size_lt {first size : Nat} (stop : first + clusterCount size ≤ 65503) : size < 2 ^ 32 := by
  have whole := le_clusterCount size
  omega

/-- The bounds of the files that are not of the distribution. -/
lemma Allocated.file_stops {efiSize manifestSize modelSize : Nat}
    (h : Allocated efiSize manifestSize modelSize root layout) :
    layout.efiFirst + clusterCount efiSize ≤ 65503 ∧
      layout.manifestFirst + clusterCount manifestSize ≤ 65503 := by
  have efi := h.efi_first
  have manifest := h.manifest_first
  have model := h.model_first
  have stop := h.model_end
  omega

/-- Every row ends within the data area. -/
lemma Allocated.row_stop {efiSize manifestSize modelSize : Nat}
    (h : Allocated efiSize manifestSize modelSize root layout) :
    ∀ row ∈ layout.distribution, row.first + clusterCount row.size ≤ 65503 := by
  intro row mem
  cases root with
  | none =>
    rw [(h.alone rfl).1] at mem
    cases mem
  | some files =>
    obtain ⟨⟨stop, le, placed⟩, _⟩ := h.distributed files rfl
    have bound := (placed.laid.bounds _ (List.mem_map_of_mem mem)).2
    exact Nat.le_trans bound le

/-- The licenses directory is within the data area. -/
lemma Allocated.licenses_lt {efiSize manifestSize modelSize : Nat}
    (h : Allocated efiSize manifestSize modelSize root layout) : layout.licensesFirst < 65503 := by
  cases root with
  | none =>
    rw [(h.alone rfl).2]
    decide
  | some files =>
    obtain ⟨_, _, row, third, first⟩ := h.distributed files rfl
    have stop := h.row_stop row (List.mem_of_getElem? third)
    omega

/-- The table is built for an allocated layout. -/
lemma buildFat_ok (h : Allocated efi.length manifest.length model.length root layout) :
    ∃ fat, buildFat layout efi.length manifest.length p = (.ok fat, p) := by
  obtain ⟨efi_stop, manifest_stop⟩ := h.file_stops
  have model_stop := h.model_end
  have efi_fits : layout.efiFirst + clusterCount efi.length ≤ 65536 := by omega
  have manifest_fits : layout.manifestFirst + clusterCount manifest.length ≤ 65536 := by omega
  have model_fits : layout.modelFirst + modelClusters ≤ 65536 := by omega
  have start_length : reservedTable.length = 131072 := rfl
  obtain ⟨fat1, run1, length1⟩ := chainFat_ok (p := p) efi_fits start_length
  obtain ⟨fat2, run2, length2⟩ := chainFat_ok (p := p) manifest_fits length1
  obtain ⟨fat3, run3, length3⟩ := chainFat_ok (p := p) model_fits length2
  unfold reservedTable at run1
  rw [buildFat, Fallible.bind_ok (clusters_ok h.efi_pos (size_lt efi_stop)), Fallible.bind_ok run1,
    Fallible.bind_ok (clusters_ok h.manifest_pos (size_lt manifest_stop)), Fallible.bind_ok run2,
    Fallible.bind_ok run3]
  split
  · exact ⟨fat3, rfl⟩
  · have licenses := h.licenses_lt
    have two : (le16 0xffff).length = 2 := rfl
    have inside : layout.licensesFirst * 2 + (le16 0xffff).length ≤ fat3.length := by omega
    rw [Fallible.bind_ok (copySlice_ok inside)]
    refine chainRows_ok (fun row mem => ?_) ((length_put_of_fits inside).trans length3)
    have stop := h.row_stop row mem
    exact ⟨(h.sizes row mem).2, size_lt stop, by omega⟩

/-- A small number is converted. -/
lemma toU16_ok {value : Nat} {message : String} (fits : value < 65536) :
    toU16 value message p = (.ok value, p) := by
  rw [toU16, if_pos (show value < 2 ^ 16 from fits)]
  rfl

/-- A small sum is taken. -/
lemma checkedAdd16_ok {a b : Nat} {message : String} (fits : a + b < 65536) :
    checkedAdd16 a b message p = (.ok (a + b), p) := by
  rw [checkedAdd16, if_pos (show a + b < 2 ^ 16 from fits)]
  rfl

/-- Rows that are placed are rows that the builder places. -/
lemma distributionLoop_ok {root : String → Option (List UInt8)} {index first stop : Nat}
    {names : List (String × List UInt8)} {rows : List DistributionRow}
    (placed : Placed index first rows stop) (small : stop ≤ 65503)
    (named : rows.map (fun row => (row.short, some row.payload)) =
      names.map fun name => (name.2, root name.1)) :
    distributionLoop root index names first p = (.ok rows, p) := by
  induction rows generalizing index first names with
  | nil =>
    cases names with
    | nil => rfl
    | cons name names => cases named
  | cons row rows ih =>
    cases names with
    | nil => cases named
    | cons name names =>
      obtain ⟨name, short⟩ := name
      obtain ⟨head, rest⟩ := List.cons.inj named
      obtain ⟨short_eq, payload_eq⟩ := Prod.mk.inj head
      obtain ⟨first_eq, size_eq, pos, later⟩ := placed
      have bound := later.le
      have skip : skipDirectory index first p = (.ok row.first, p) := by
        rw [skipDirectory]
        split
        case isTrue third =>
          rw [if_pos third] at first_eq
          rw [first_eq, checkedAdd16_ok (by omega)]
        case isFalse other =>
          rw [if_neg other] at first_eq
          rw [first_eq]
          rfl
      have found : root name = some row.payload := payload_eq.symm
      rw [distributionLoop, Fallible.bind_ok skip]
      simp only [found]
      rw [← size_eq, require_bind (decide_eq_true (by omega)),
        Fallible.bind_ok (clusters_ok pos (size_lt (Nat.le_trans bound small))),
        Fallible.bind_ok (toU16_ok (by omega)), Fallible.bind_ok (checkedAdd16_ok (by omega)),
        Fallible.bind_ok (ih later rest)]
      obtain ⟨short', payload', first', size'⟩ := row
      simp only at short_eq
      rw [← short_eq]
      rfl

/-- Rows that are placed are the distribution of their root. -/
lemma distributionRows_ok {root : String → Option (List UInt8)} {first stop : Nat}
    {rows : List DistributionRow} {row : DistributionRow}
    (placed : Placed 0 first rows stop) (small : stop ≤ 65503)
    (named : rows.map (fun row => (row.short, some row.payload)) =
      distributionNames.map fun name => (name.2, root name.1))
    (third : rows[2]? = some row) (pos : 0 < row.first) :
    distributionRows (some root) first p = (.ok (rows, row.first - 1), p) := by
  rw [distributionRows, Fallible.bind_ok (distributionLoop_ok placed small named)]
  simp only [third]
  rw [if_neg (by omega)]
  rfl

/-- The allocation for files that follow each other below the end of the data area. -/
lemma allocate_ok {efiSize manifestSize afterModel stop licensesFirst : Nat}
    {root : Option (String → Option (List UInt8))} {rows : List DistributionRow}
    (efi_pos : 0 < efiSize) (manifest_pos : 0 < manifestSize)
    (after_eq : afterModel =
      4 + clusterCount efiSize + clusterCount manifestSize + modelClusters)
    (placed : Placed 0 afterModel rows stop) (small : stop ≤ 65503)
    (spread : distributionRows root afterModel p = (.ok (rows, licensesFirst), p)) :
    allocate efiSize manifestSize modelBytes root p =
      (.ok ⟨4, 4 + clusterCount efiSize, 4 + clusterCount efiSize + clusterCount manifestSize, rows,
        licensesFirst⟩, p) := by
  have bound := placed.le
  have efi_fits : efiSize < 2 ^ 32 := by
    have whole := le_clusterCount efiSize
    omega
  have manifest_fits : manifestSize < 2 ^ 32 := by
    have whole := le_clusterCount manifestSize
    omega
  have model_count : clusters modelBytes p = (.ok modelClusters, p) :=
    clusters_ok (by decide) (by decide)
  have ended : allocationEnd rows afterModel p = (.ok stop, p) := by
    rw [allocationEnd]
    cases last : rows.getLast? with
    | none =>
      rw [List.getLast?_eq_none_iff.1 last] at placed
      have same : stop = afterModel := placed
      rw [same]
      rfl
    | some row =>
      have stop_eq := placed.last last
      have row_pos := (placed.sizes row (List.mem_of_getLast? last)).2
      have row_stop : row.first + clusterCount row.size ≤ 65503 := by omega
      have counted := clusters_ok (p := p) row_pos (size_lt row_stop)
      have unwrapped : unwrap (clusters row.size) p = (.ok (clusterCount row.size), p) := by
        rw [unwrap, counted]
      simp only
      rw [Fallible.bind_ok unwrapped, stop_eq]
      rfl
  subst after_eq
  rw [allocate, require_bind (by decide), Fallible.bind_ok (clusters_ok efi_pos efi_fits),
    Fallible.bind_ok (toU16_ok (by omega)), Fallible.bind_ok (checkedAdd16_ok (by omega)),
    Fallible.bind_ok (clusters_ok manifest_pos manifest_fits), Fallible.bind_ok (toU16_ok (by omega)),
    Fallible.bind_ok (checkedAdd16_ok (by omega)), Fallible.bind_ok model_count,
    require_bind (by decide), Fallible.bind_ok (checkedAdd16_ok (by omega)),
    Fallible.bind_ok spread]
  simp only
  rw [Fallible.bind_ok ended, require_bind (decide_eq_true small)]
  rfl

/-- Without a distribution the allocation succeeds for all payloads that leave room for the
model. -/
lemma allocate_none (p : Buffer) (efiSize manifestSize : Nat) (efi_pos : 0 < efiSize)
    (manifest_pos : 0 < manifestSize)
    (fits : clusterCount efiSize + clusterCount manifestSize ≤ 13403) :
    ∃ layout, allocate efiSize manifestSize modelBytes none p = (.ok layout, p) := by
  have small : 4 + clusterCount efiSize + clusterCount manifestSize + modelClusters ≤ 65503 := by
    simp only [modelClusters]
    omega
  have placed : Placed 0 (4 + clusterCount efiSize + clusterCount manifestSize + modelClusters) []
      (4 + clusterCount efiSize + clusterCount manifestSize + modelClusters) := rfl
  exact ⟨_, allocate_ok efi_pos manifest_pos rfl placed small rfl⟩

/-- A write succeeds. -/
lemma total_writeAt {offset : Nat} {bytes : List UInt8} : Total (writeAt offset bytes) := .modify

/-- An entry with a size of 32 bits is written. -/
lemma total_writeEntry {offset first size : Nat} {name : List UInt8} {attributes : UInt8}
    (fits : size < 2 ^ 32) : Total (writeEntry offset name attributes first size) := by
  rw [writeEntry, entry, if_pos fits]
  exact total_writeAt

/-- A payload of its size is copied. -/
lemma total_copyInto {payload : List UInt8} {first size : Nat} (le : 2 ≤ first)
    (same : payload.length = size) : Total (copyInto payload first size) := by
  intro s
  rw [copyInto, clusterOffset_eq le, require_bind (decide_eq_true same)]
  exact total_writeAt s

/-- The entries of the licenses directory are written. -/
lemma total_writeLicenses {directory index : Nat} {rows : List DistributionRow}
    (fits : ∀ row ∈ rows, row.size < 2 ^ 32) : Total (writeLicenses directory index rows) := by
  induction rows generalizing index with
  | nil => exact .pure
  | cons row rows ih =>
    exact .bind (total_writeEntry (fits row List.mem_cons_self)) fun _ =>
      ih fun other mem => fits other (List.mem_cons_of_mem _ mem)

/-- The payloads of the rows are copied. -/
lemma total_copyRows {rows : List DistributionRow}
    (fits : ∀ row ∈ rows, 2 ≤ row.first ∧ row.payload.length = row.size) :
    Total (copyRows rows) := by
  induction rows with
  | nil => exact .pure
  | cons row rows ih =>
    obtain ⟨le, same⟩ := fits row List.mem_cons_self
    exact .bind (total_copyInto le same) fun _ =>
      ih fun other mem => fits other (List.mem_cons_of_mem _ mem)

/-- The distribution's entries in the root are written. -/
lemma total_writeDistributionRoot (fits : ∀ row ∈ layout.distribution, row.size < 2 ^ 32)
    (several : layout.distribution = [] ∨ 2 ≤ layout.distribution.length) :
    Total (writeDistributionRoot layout) := by
  rw [writeDistributionRoot]
  rcases rows : layout.distribution with _ | ⟨license, _ | ⟨source, rest⟩⟩ <;>
    rw [rows] at fits several
  · exact .pure
  · rcases several with nil | two
    · cases nil
    · cases two with
      | step two => cases two
  · exact .bind (total_writeEntry (fits license List.mem_cons_self)) fun _ =>
      .bind (total_writeEntry (fits source (List.mem_cons_of_mem _ List.mem_cons_self))) fun _ =>
        total_writeEntry (by decide)

/-- The distribution is written. -/
lemma total_writeDistribution
    (h : Allocated efi.length manifest.length model.length root layout) :
    Total (writeDistribution layout) := by
  obtain ⟨rows_le, licenses_le⟩ := h.two_le
  rw [writeDistribution]
  split
  case isTrue _ => exact .pure
  case isFalse some =>
    have nonempty : layout.distribution ≠ [] := fun nil => some (List.isEmpty_iff.2 nil)
    rw [clusterOffset_eq (licenses_le nonempty), Fallible.pure_bind]
    refine .bind (total_writeEntry (by decide)) fun _ => .bind (total_writeEntry (by decide)) fun _ =>
      .bind (total_writeLicenses fun row mem => ?_) fun _ => total_copyRows fun row mem => ?_
    · exact size_lt (h.row_stop row (List.drop_subset 2 _ mem))
    · exact ⟨rows_le row mem, (h.sizes row mem).1.symm⟩

/-- A distribution has several rows, or there is none. -/
lemma Allocated.several {efiSize manifestSize modelSize : Nat}
    (h : Allocated efiSize manifestSize modelSize root layout) :
    layout.distribution = [] ∨ 2 ≤ layout.distribution.length := by
  cases root with
  | none => exact .inl (h.alone rfl).1
  | some files =>
    have eight := (h.distributed files rfl).length
    exact .inr (by omega)

/-- Behind the allocation the builder cannot fail. -/
theorem buildFatImage_ok {s : Buffer}
    (planned : allocate efi.length manifest.length model.length root p = (.ok layout, s)) :
    ∃ image, buildFatImage efi manifest model root p = (.ok (), image) := by
  obtain ⟨rfl, h⟩ := allocate_facts planned
  obtain ⟨efi_stop, manifest_stop⟩ := h.file_stops
  have model_size : model.length < 2 ^ 32 := by
    rw [h.model_size]
    decide
  have efi_le : 2 ≤ layout.efiFirst := by rw [h.efi_first]; decide
  have manifest_le : 2 ≤ layout.manifestFirst := by rw [h.manifest_first]; omega
  have model_le : 2 ≤ layout.modelFirst := by rw [h.model_first]; omega
  obtain ⟨fat, made⟩ := buildFat_ok (p := (Buffer.zeros imageBytes).put 0 boot) h
  have zeroed : (Fallible.modify fun _ => Buffer.zeros imageBytes : Make Unit) s =
      (.ok (), Buffer.zeros imageBytes) := rfl
  have booted : writeAt 0 boot (Buffer.zeros imageBytes) =
      (.ok (), (Buffer.zeros imageBytes).put 0 boot) := rfl
  rw [buildFatImage, Fallible.bind_ok planned, Fallible.bind_ok zeroed, Fallible.bind_ok booted,
    Fallible.bind_ok made]
  simp only [clusterOffset_two, clusterOffset_three, Fallible.pure_bind]
  refine Total.ok ?_ _
  refine .bind total_writeAt fun _ => .bind total_writeAt fun _ =>
    .bind (total_writeEntry (by decide)) fun _ => .bind (total_writeEntry (by decide)) fun _ =>
    .bind (total_writeEntry model_size) fun _ =>
    .bind (total_writeDistributionRoot (fun row mem => size_lt (h.row_stop row mem)) h.several)
      fun _ => ?_
  refine .bind (total_writeEntry (by decide)) fun _ => .bind (total_writeEntry (by decide)) fun _ =>
    .bind (total_writeEntry (by decide)) fun _ => .bind (total_writeEntry (by decide)) fun _ =>
    .bind (total_writeEntry (by decide)) fun _ => ?_
  exact .bind (total_writeEntry (size_lt efi_stop)) fun _ =>
    .bind (total_writeEntry (size_lt manifest_stop)) fun _ =>
    .bind (total_copyInto efi_le rfl) fun _ => .bind (total_copyInto manifest_le rfl) fun _ =>
    .bind (total_copyInto model_le rfl) fun _ => total_writeDistribution h

end Build

end Promptboot.Image
