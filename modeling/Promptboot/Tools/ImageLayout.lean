import Promptboot.Tools.ImageFat

/-!
# Where the image builder puts everything

The allocation hands out clusters one after another, with the licenses directory between the
second and the third file of the distribution. The bytes that the builder writes lie one
behind another in the same order, so its image is what they lay down over zeros.

`allocate_facts` is the invariant of the allocation (`Allocated`), `buildFatImage_writes` lists what
a successful build writes, and `imageWrites_perm` puts the list into the order of the places. The
headline `apart_imageWrites` follows: no two writes meet.
-/

namespace Promptboot.Image
open Buffer

section Allocation
variable {p q : Buffer}

/-- The rows lie one behind another from `first` on; the third leaves a cluster before it. -/
def Placed : Nat → Nat → List DistributionRow → Nat → Prop
  | _, first, [], stop => stop = first
  | index, first, row :: rows, stop =>
    row.first = (if index = 2 then first + 1 else first) ∧ row.size = row.payload.length ∧
      0 < row.size ∧ Placed (index + 1) (row.first + clusterCount row.size) rows stop

/-- The rows of the distribution are placed one after another. -/
lemma distributionLoop_facts {root : String → Option (List UInt8)} {index first : Nat}
    {names : List (String × List UInt8)} {rows : List DistributionRow}
    (h : distributionLoop root index names first p = (.ok rows, q)) :
    q = p ∧ (∃ stop, Placed index first rows stop) ∧
      rows.map (fun row => (row.short, some row.payload)) =
        names.map fun name => (name.2, root name.1) := by
  induction names generalizing index first rows with
  | nil =>
    cases h
    exact ⟨rfl, ⟨first, rfl⟩, rfl⟩
  | cons name names ih =>
    obtain ⟨name, short⟩ := name
    rw [distributionLoop] at h
    obtain ⟨here, r, bumped, h1⟩ := Fallible.bind_eq_ok h
    -- the third file makes room for the directory of the licenses
    have moved : here = (if index = 2 then first + 1 else first) ∧ r = p := by
      rw [skipDirectory] at bumped
      split at bumped
      case isTrue third =>
        obtain ⟨_, rfl, rfl⟩ := checkedAdd16_eq_ok bumped
        rw [if_pos third]
        exact ⟨rfl, rfl⟩
      case isFalse other =>
        cases bumped
        rw [if_neg other]
        exact ⟨rfl, rfl⟩
    obtain ⟨here_eq, rfl⟩ := moved
    cases found : root name with
    | none =>
      simp only [found] at h1
      cases h1
    | some payload =>
      simp only [found] at h1
      obtain ⟨nonempty, h2⟩ := require_bind_eq_ok h1
      obtain ⟨count, s, counted, h3⟩ := Fallible.bind_eq_ok h2
      obtain ⟨pos, rfl, rfl⟩ := clusters_eq_ok counted
      obtain ⟨count, s, fits, h4⟩ := Fallible.bind_eq_ok h3
      obtain ⟨_, rfl, rfl⟩ := toU16_eq_ok fits
      obtain ⟨next, s, added, h5⟩ := Fallible.bind_eq_ok h4
      obtain ⟨_, rfl, rfl⟩ := checkedAdd16_eq_ok added
      obtain ⟨rest, s, later, h6⟩ := Fallible.bind_eq_ok h5
      cases h6
      obtain ⟨rfl, ⟨stop, placed⟩, named⟩ := ih later
      refine ⟨rfl, ⟨stop, here_eq, rfl, pos, placed⟩, ?_⟩
      rw [List.map_cons, List.map_cons, named, found]

/-- The distribution of a layout, if there is one, begins at `first`. -/
structure Distributed (root : String → Option (List UInt8)) (layout : Layout) (first : Nat) :
    Prop where
  placed : ∃ stop, stop ≤ 65503 ∧ Placed 0 first layout.distribution stop
  named : layout.distribution.map (fun row => (row.short, some row.payload)) =
    distributionNames.map fun name => (name.2, root name.1)
  licenses : ∃ row, layout.distribution[2]? = some row ∧ row.first = layout.licensesFirst + 1

structure Allocated (efiSize manifestSize modelSize : Nat)
    (root : Option (String → Option (List UInt8))) (layout : Layout) : Prop where
  model_size : modelSize = modelBytes
  efi_pos : 0 < efiSize
  manifest_pos : 0 < manifestSize
  efi_first : layout.efiFirst = 4
  manifest_first : layout.manifestFirst = 4 + clusterCount efiSize
  model_first : layout.modelFirst = layout.manifestFirst + clusterCount manifestSize
  model_end : layout.modelFirst + modelClusters ≤ 65503
  alone : root = none → layout.distribution = [] ∧ layout.licensesFirst = 0
  distributed : ∀ files, root = some files →
    Distributed files layout (layout.modelFirst + modelClusters)

/-- The placement ends where its last row does. -/
lemma Placed.last {index first stop : Nat} {rows : List DistributionRow} {row : DistributionRow}
    (h : Placed index first rows stop) (last : rows.getLast? = some row) :
    stop = row.first + clusterCount row.size := by
  induction rows generalizing index first with
  | nil => cases last
  | cons head rows ih =>
    cases rows with
    | nil =>
      cases last
      exact h.2.2.2
    | cons next rows =>
      rw [List.getLast?_cons_cons] at last
      exact ih h.2.2.2 last

/-- An unwrapped success is the success. -/
lemma unwrap_eq_ok {α : Type} {c : Make α} {a : α} (h : unwrap c p = (.ok a, q)) :
    c p = (.ok a, q) := by
  rw [unwrap] at h
  split at h
  case h_1 value image run =>
    cases h
    exact run
  case h_2 => cases h

/-- A placement ends behind its start. -/
lemma Placed.le {index first stop : Nat} {rows : List DistributionRow}
    (h : Placed index first rows stop) : first ≤ stop := by
  induction rows generalizing index first with
  | nil => exact Nat.le_of_eq h.symm
  | cons row rows ih =>
    have rest := ih h.2.2.2
    have here := h.1
    split_ifs at here <;> omega

/-- What a successful allocation says. -/
lemma allocate_facts {efiSize manifestSize modelSize : Nat}
    {root : Option (String → Option (List UInt8))} {layout : Layout}
    (h : allocate efiSize manifestSize modelSize root p = (.ok layout, q)) :
    q = p ∧ Allocated efiSize manifestSize modelSize root layout := by
  obtain ⟨model_size, h1⟩ := require_bind_eq_ok h
  obtain ⟨count, s, counted, h2⟩ := Fallible.bind_eq_ok h1
  obtain ⟨efi_pos, rfl, rfl⟩ := clusters_eq_ok counted
  obtain ⟨count, s, fits, h3⟩ := Fallible.bind_eq_ok h2
  obtain ⟨_, rfl, rfl⟩ := toU16_eq_ok fits
  obtain ⟨manifestFirst, s, added, h4⟩ := Fallible.bind_eq_ok h3
  obtain ⟨_, rfl, rfl⟩ := checkedAdd16_eq_ok added
  obtain ⟨count, s, counted, h5⟩ := Fallible.bind_eq_ok h4
  obtain ⟨manifest_pos, rfl, rfl⟩ := clusters_eq_ok counted
  obtain ⟨count, s, fits, h6⟩ := Fallible.bind_eq_ok h5
  obtain ⟨_, rfl, rfl⟩ := toU16_eq_ok fits
  obtain ⟨modelFirst, s, added, h7⟩ := Fallible.bind_eq_ok h6
  obtain ⟨_, rfl, rfl⟩ := checkedAdd16_eq_ok added
  obtain ⟨count, s, counted, h8⟩ := Fallible.bind_eq_ok h7
  obtain ⟨_, rfl, rfl⟩ := clusters_eq_ok counted
  obtain ⟨_, h9⟩ := require_bind_eq_ok h8
  obtain ⟨afterModel, s, added, h10⟩ := Fallible.bind_eq_ok h9
  obtain ⟨_, rfl, rfl⟩ := checkedAdd16_eq_ok added
  obtain ⟨⟨rows, licensesFirst⟩, s, spread, h11⟩ := Fallible.bind_eq_ok h10
  simp only at h11
  obtain ⟨allocated, t, ended, h12⟩ := Fallible.bind_eq_ok h11
  obtain ⟨bound, h13⟩ := require_bind_eq_ok h12
  cases h13
  have bound := of_decide_eq_true bound
  have model_size := of_decide_eq_true model_size
  -- without distribution files the layout ends with the model
  cases root with
  | none =>
    cases spread
    cases ended
    exact ⟨rfl, model_size, efi_pos, manifest_pos, rfl, rfl, rfl, bound, fun _ => ⟨rfl, rfl⟩,
      nofun⟩
  | some files =>
    obtain ⟨rows', u, looped, h14⟩ := Fallible.bind_eq_ok spread
    obtain ⟨rfl, ⟨stop, placed⟩, named⟩ := distributionLoop_facts looped
    cases third : rows'[2]? with
    | none =>
      simp only [third] at h14
      cases h14
    | some row =>
      simp only [third] at h14
      split at h14
      case isTrue _ => cases h14
      case isFalse nonzero =>
        cases h14
        cases last : rows.getLast? with
        | none =>
          rw [List.getLast?_eq_none_iff.1 last] at third
          cases third
        | some final =>
          simp only [allocationEnd, last] at ended
          obtain ⟨count, v, unwrapped, h15⟩ := Fallible.bind_eq_ok ended
          obtain ⟨_, rfl, rfl⟩ := clusters_eq_ok (unwrap_eq_ok unwrapped)
          cases h15
          have stop_eq := placed.last last
          have stop_le : stop ≤ 65503 := by omega
          refine ⟨rfl, model_size, efi_pos, manifest_pos, rfl, rfl, rfl, ?_, nofun, ?_⟩
          · exact Nat.le_trans placed.le stop_le
          · rintro _ ⟨⟩
            exact ⟨⟨stop, stop_le, placed⟩, named, row, third, (Nat.sub_add_cancel (by omega)).symm⟩

end Allocation

section Writes

/-- Where a cluster begins. -/
def offsetOf (cluster : Nat) : Nat := 279040 + (cluster - 2) * 8192

/-- A cluster of the data area has its offset. -/
lemma clusterOffset_eq {cluster : Nat} (le : 2 ≤ cluster) :
    clusterOffset cluster = pure (offsetOf cluster) :=
  if_neg (by omega)

def licenseWrites (directory : Nat) : Nat → List DistributionRow → List Write
  | _, [] => []
  | index, row :: rows =>
    (directory + (index + 2) * 32, entryBytes row.short 0x20 row.first row.size) ::
      licenseWrites directory (index + 1) rows

def payloadWrites (rows : List DistributionRow) : List Write :=
  rows.map fun row => (offsetOf row.first, row.payload)

/-- The entries of the licenses directory. -/
def directoryWrites (layout : Layout) : List Write :=
  [(offsetOf layout.licensesFirst, entryBytes (ascii ".          ") 0x10 layout.licensesFirst 0),
    (offsetOf layout.licensesFirst + 32, entryBytes (ascii "..         ") 0x10 0 0)] ++
    licenseWrites (offsetOf layout.licensesFirst) 0 (layout.distribution.drop 2)

def distributionWrites (layout : Layout) : List Write :=
  if layout.distribution = [] then []
  else directoryWrites layout ++ payloadWrites layout.distribution

/-- The root entries of the distribution. -/
def rootWrites (layout : Layout) : List Write :=
  match layout.distribution with
  | license :: source :: _ =>
    [(262752, entryBytes license.short 0x20 license.first license.size),
      (262784, entryBytes source.short 0x20 source.first source.size),
      (262816, entryBytes (ascii "LICENSES   ") 0x10 layout.licensesFirst 0)]
  | _ => []

/-- Everything before the clusters but the root entries of the distribution. -/
def headWrites (layout : Layout) (fat : List UInt8) (modelSize : Nat) : List Write :=
  [(0, boot), (512, fat), (131584, fat),
    (262656, entryBytes (ascii "PROMPTBOOT ") 0x08 0 0),
    (262688, entryBytes (ascii "EFI        ") 0x10 2 0),
    (262720, entryBytes (ascii "MODEL   PBT") 0x20 layout.modelFirst modelSize)]

def efiDirWrites : List Write :=
  [(279040, entryBytes (ascii ".          ") 0x10 2 0),
    (279072, entryBytes (ascii "..         ") 0x10 0 0),
    (279104, entryBytes (ascii "BOOT       ") 0x10 3 0)]

def bootDirWrites (layout : Layout) (efiSize manifestSize : Nat) : List Write :=
  [(287232, entryBytes (ascii ".          ") 0x10 3 0),
    (287264, entryBytes (ascii "..         ") 0x10 2 0),
    (287296, entryBytes (ascii "BOOTX64 EFI") 0x20 layout.efiFirst efiSize),
    (287328, entryBytes (ascii "BUILD   JSN") 0x20 layout.manifestFirst manifestSize)]

def fileWrites (layout : Layout) (efi manifest model : List UInt8) : List Write :=
  [(offsetOf layout.efiFirst, efi), (offsetOf layout.manifestFirst, manifest),
    (offsetOf layout.modelFirst, model)]

/-- All writes of the builder, in its order. -/
def imageWrites (layout : Layout) (fat efi manifest model : List UInt8) : List Write :=
  headWrites layout fat model.length ++ (rootWrites layout ++ (efiDirWrites ++
    (bootDirWrites layout efi.length manifest.length ++ (fileWrites layout efi manifest model ++
      distributionWrites layout))))

/-- A write is one write. -/
lemma emits_writeAt {offset : Nat} {bytes : List UInt8} :
    Emits (writeAt offset bytes) [(offset, bytes)] := .write

/-- An entry is one write. -/
lemma emits_writeEntry {offset first size : Nat} {name : List UInt8} {attributes : UInt8} :
    Emits (writeEntry offset name attributes first size)
      [(offset, entryBytes name attributes first size)] := by
  rw [writeEntry, entry]
  split
  · exact .write
  · exact fun _ _ _ h => nomatch h

/-- A payload is one write. -/
lemma emits_copyInto {payload : List UInt8} {first size : Nat} (le : 2 ≤ first) :
    Emits (copyInto payload first size) [(offsetOf first, payload)] := by
  rw [copyInto, clusterOffset_eq le]
  intro b a t h
  obtain ⟨_, h⟩ := require_bind_eq_ok h
  exact emits_writeAt b a t h

/-- The entries of the licenses directory are written in turn. -/
lemma emits_writeLicenses {directory index : Nat} {rows : List DistributionRow} :
    Emits (writeLicenses directory index rows) (licenseWrites directory index rows) := by
  induction rows generalizing index with
  | nil => exact .pure
  | cons row rows ih => exact .bind emits_writeEntry fun _ => ih

/-- The payloads of the rows are written in turn. -/
lemma emits_copyRows {rows : List DistributionRow} (le : ∀ row ∈ rows, 2 ≤ row.first) :
    Emits (copyRows rows) (payloadWrites rows) := by
  induction rows with
  | nil => exact .pure
  | cons row rows ih =>
    exact .bind (emits_copyInto (le row List.mem_cons_self)) fun _ =>
      ih fun other mem => le other (List.mem_cons_of_mem _ mem)

/-- The distribution's entries in the root are written. -/
lemma emits_writeDistributionRoot {layout : Layout} :
    Emits (writeDistributionRoot layout) (rootWrites layout) := by
  rw [writeDistributionRoot, rootWrites]
  rcases layout.distribution with _ | ⟨license, _ | ⟨source, rest⟩⟩
  · exact .pure
  · exact fun _ _ _ h => nomatch h
  · exact .cons emits_writeEntry fun _ => .cons emits_writeEntry fun _ => emits_writeEntry

/-- The distribution is written in its order. -/
lemma emits_writeDistribution {layout : Layout}
    (le : ∀ row ∈ layout.distribution, 2 ≤ row.first)
    (licenses_le : layout.distribution ≠ [] → 2 ≤ layout.licensesFirst) :
    Emits (writeDistribution layout) (distributionWrites layout) := by
  rw [writeDistribution, distributionWrites]
  split
  case isTrue empty =>
    rw [if_pos (List.isEmpty_iff.1 empty)]
    exact .pure
  case isFalse some =>
    have nonempty : layout.distribution ≠ [] := fun nil => some (List.isEmpty_iff.2 nil)
    rw [if_neg nonempty, clusterOffset_eq (licenses_le nonempty), Fallible.pure_bind,
      directoryWrites]
    exact .cons emits_writeEntry fun _ => .cons emits_writeEntry fun _ =>
      .bind emits_writeLicenses fun _ => emits_copyRows le

/-- Every row is placed behind the start. -/
lemma Placed.first_le {index first stop : Nat} {rows : List DistributionRow}
    (h : Placed index first rows stop) : ∀ row ∈ rows, first ≤ row.first := by
  induction rows generalizing index first with
  | nil => exact fun _ mem => nomatch mem
  | cons head rows ih =>
    intro row mem
    have here := h.1
    rcases List.mem_cons.1 mem with rfl | mem
    · split_ifs at here <;> omega
    · have rest := ih h.2.2.2 row mem
      split_ifs at here <;> omega

/-- The distribution comes behind the model. -/
lemma Allocated.four_le {efiSize manifestSize modelSize : Nat}
    {root : Option (String → Option (List UInt8))} {layout : Layout}
    (h : Allocated efiSize manifestSize modelSize root layout) :
    (∀ row ∈ layout.distribution, 5 ≤ row.first) ∧
      (layout.distribution ≠ [] → 4 ≤ layout.licensesFirst) := by
  cases root with
  | none =>
    rw [(h.alone rfl).1]
    exact ⟨fun _ mem => (nomatch mem), fun nonempty => absurd rfl nonempty⟩
  | some files =>
    obtain ⟨⟨stop, _, placed⟩, _, row, third, licenses⟩ := h.distributed files rfl
    have above : ∀ row ∈ layout.distribution, 5 ≤ row.first := by
      intro row mem
      have first := placed.first_le row mem
      have size : modelClusters = 52096 := rfl
      omega
    have licenses_row := above row (List.mem_of_getElem? third)
    exact ⟨above, fun _ => by omega⟩

/-- Everything is placed in the data area. -/
lemma Allocated.two_le {efiSize manifestSize modelSize : Nat}
    {root : Option (String → Option (List UInt8))} {layout : Layout}
    (h : Allocated efiSize manifestSize modelSize root layout) :
    (∀ row ∈ layout.distribution, 2 ≤ row.first) ∧
      (layout.distribution ≠ [] → 2 ≤ layout.licensesFirst) :=
  ⟨fun row mem => Nat.le_trans (by decide) (h.four_le.1 row mem),
    fun nonempty => Nat.le_trans (by decide) (h.four_le.2 nonempty)⟩

/-- The offset of the first directory. -/
lemma clusterOffset_two : clusterOffset 2 = pure 279040 := rfl

/-- The offset of the second directory. -/
lemma clusterOffset_three : clusterOffset 3 = pure 287232 := rfl

/-- The image is what the writes lay down over zeros. -/
lemma buildFatImage_writes {efi manifest model : List UInt8}
    {root : Option (String → Option (List UInt8))} {p image : Buffer} {u : Unit}
    (h : buildFatImage efi manifest model root p = (.ok u, image)) :
    ∃ layout fat, (∃ s, allocate efi.length manifest.length model.length root p = (.ok layout, s)) ∧
      Allocated efi.length manifest.length model.length root layout ∧
      (∃ s, buildFat layout efi.length manifest.length s = (.ok fat, s)) ∧
      image = (Buffer.zeros imageBytes).layDown
        (imageWrites layout (fat.slice 0 fat.length) efi manifest model) := by
  obtain ⟨layout, s, planned, h1⟩ := Fallible.bind_eq_ok h
  obtain ⟨rfl, allocated⟩ := allocate_facts planned
  obtain ⟨_, t, created, h2⟩ := Fallible.bind_eq_ok h1
  obtain ⟨_, t', booted, h3⟩ := Fallible.bind_eq_ok h2
  have boot_eq := emits_writeAt _ _ _ booted
  obtain ⟨fat, t'', built, h4⟩ := Fallible.bind_eq_ok h3
  obtain ⟨rfl, _, _⟩ := buildFat_entries built
  obtain ⟨rows_le, licenses_le⟩ := allocated.two_le
  have efi_le : 2 ≤ layout.efiFirst := by rw [allocated.efi_first]; decide
  have manifest_le : 2 ≤ layout.manifestFirst := by rw [allocated.manifest_first]; omega
  have model_le : 2 ≤ layout.modelFirst := by rw [allocated.model_first]; omega
  refine ⟨layout, fat, ⟨_, planned⟩, allocated, ⟨_, built⟩, ?_⟩
  simp only [clusterOffset_two, clusterOffset_three, Fallible.pure_bind] at h4
  have emitted := Emits.cons emits_writeAt (fun _ => .cons emits_writeAt fun _ =>
    .cons emits_writeEntry fun _ => .cons emits_writeEntry fun _ => .cons emits_writeEntry fun _ =>
    .bind emits_writeDistributionRoot fun _ =>
    .cons emits_writeEntry fun _ => .cons emits_writeEntry fun _ => .cons emits_writeEntry fun _ =>
    .cons emits_writeEntry fun _ => .cons emits_writeEntry fun _ =>
    .cons emits_writeEntry fun _ => .cons emits_writeEntry fun _ =>
    .cons (emits_copyInto efi_le) fun _ => .cons (emits_copyInto manifest_le) fun _ =>
    .cons (emits_copyInto model_le) fun _ => emits_writeDistribution rows_le licenses_le) _ _ _ h4
  have created_eq : t = Buffer.zeros imageBytes := (congrArg Prod.snd created).symm
  rw [emitted, boot_eq, created_eq, ← layDown_append]
  rfl

end Writes

section Order
variable {layout : Layout} {efi manifest model fat : List UInt8}
  {root : Option (String → Option (List UInt8))}

/-- A payload fits its clusters. -/
lemma le_clusterCount (size : Nat) : size ≤ clusterCount size * 8192 := by
  unfold clusterCount
  omega

/-- A cluster further on is further on in the image. -/
lemma offsetOf_add {first count : Nat} (le : 2 ≤ first) :
    offsetOf (first + count) = offsetOf first + count * 8192 := by
  unfold offsetOf
  rw [Nat.sub_add_comm le]
  omega

/-- Clusters in order are in order in the image. -/
lemma offsetOf_le {a b : Nat} (le : a ≤ b) : offsetOf a ≤ offsetOf b := by
  unfold offsetOf
  omega

/-- Writes that lie in the clusters of their extents lie one behind another as these do. -/
lemma laid_blocks {blocks : List (Extent × List Write)} {start stop : Nat}
    (h : Laid start (blocks.map Prod.fst) stop)
    (inside : ∀ b ∈ blocks, Laid (offsetOf b.1.1) (b.2.map place) (offsetOf (b.1.1 + b.1.2))) :
    Laid (offsetOf start) ((blocks.flatMap Prod.snd).map place) (offsetOf stop) := by
  induction blocks generalizing start with
  | nil => exact offsetOf_le h
  | cons b blocks ih =>
    rw [List.flatMap_cons, List.map_append]
    have later := ih h.2 fun c mem => inside c (List.mem_cons_of_mem _ mem)
    exact ((inside b List.mem_cons_self).mono (offsetOf_le h.1) (Nat.le_refl _)).append later

/-- A payload lies in its clusters. -/
lemma laid_payload {first : Nat} {payload : List UInt8} (le : 2 ≤ first) :
    Laid (offsetOf first) ([(offsetOf first, payload)].map place)
      (offsetOf (first + clusterCount payload.length)) := by
  have whole := le_clusterCount payload.length
  rw [offsetOf_add le]
  exact ⟨Nat.le_refl _, Nat.add_le_add_left whole _⟩

/-- An entry has 32 bytes. -/
lemma length_entryBytes {name : List UInt8} {attributes : UInt8} {first size : Nat}
    (eleven : name.length = 11) : (entryBytes name attributes first size).length = 32 := by
  simp [entryBytes, le16, le32, eleven]

/-- The boot sector has 512 bytes. -/
lemma length_boot : boot.length = 512 := by decide +kernel

/-- A write and what is laid behind it. -/
lemma laid_write {offset size stop : Nat} {bytes : List UInt8} {ws : List Write}
    (length : bytes.length = size) (rest : Laid (offset + size) (ws.map place) stop) :
    Laid offset (((offset, bytes) :: ws).map place) stop := by
  subst length
  exact ⟨Nat.le_refl _, rest⟩

/-- An entry and what is laid behind it. -/
lemma laid_entry {offset first size : Nat} {name : List UInt8} {attributes : UInt8}
    {ws : List Write} {stop : Nat} (eleven : name.length = 11)
    (rest : Laid (offset + 32) (ws.map place) stop) :
    Laid offset (((offset, entryBytes name attributes first size) :: ws).map place) stop :=
  laid_write (length_entryBytes eleven) rest

/-- The entries of the licenses directory lie side by side. -/
lemma laid_licenseWrites {directory index : Nat} {rows : List DistributionRow}
    (eleven : ∀ row ∈ rows, row.short.length = 11) :
    Laid (directory + (index + 2) * 32) ((licenseWrites directory index rows).map place)
      (directory + (index + 2 + rows.length) * 32) := by
  induction rows generalizing index with
  | nil => exact Nat.le_refl _
  | cons row rows ih =>
    have rest : Laid (directory + (index + 1 + 2) * 32) _ _ :=
      ih fun other mem => eleven other (List.mem_cons_of_mem _ mem)
    refine laid_entry (eleven row List.mem_cons_self) (rest.mono (by omega) ?_)
    rw [List.length_cons]
    omega

/-- The distribution's names have eleven bytes. -/
lemma names_eleven : ∀ name ∈ distributionNames, name.2.length = 11 := by decide +kernel

/-- The names of the rows have eleven bytes. -/
lemma Distributed.eleven {files : String → Option (List UInt8)} {first : Nat}
    (h : Distributed files layout first) : ∀ row ∈ layout.distribution, row.short.length = 11 := by
  intro row mem
  have there : (row.short, some row.payload) ∈
      distributionNames.map fun name => (name.2, files name.1) :=
    h.named ▸ List.mem_map_of_mem mem
  obtain ⟨name, known, same⟩ := List.mem_map.1 there
  rw [← (Prod.mk.inj same).1]
  exact names_eleven name known

/-- A distribution has eight rows. -/
lemma Distributed.length {files : String → Option (List UInt8)} {first : Nat}
    (h : Distributed files layout first) : layout.distribution.length = 8 := by
  have same := congrArg List.length h.named
  rwa [List.length_map, List.length_map] at same

/-- The extents of placed rows are laid. -/
lemma Placed.laid {index first stop : Nat} {rows : List DistributionRow}
    (h : Placed index first rows stop) : Laid first (rows.map DistributionRow.extent) stop := by
  induction rows generalizing index first with
  | nil => exact Nat.le_of_eq h.symm
  | cons row rows ih =>
    refine ⟨?_, ih h.2.2.2⟩
    have here := h.1
    change first ≤ row.first
    split_ifs at here <;> omega

/-- The licenses directory fills the gap in the distribution. -/
lemma Distributed.laid {files : String → Option (List UInt8)} {first : Nat}
    (h : Distributed files layout first) :
    Laid first ((layout.distribution.take 2).map DistributionRow.extent ++
      ((layout.licensesFirst, 1) :: (layout.distribution.drop 2).map DistributionRow.extent))
      65503 := by
  obtain ⟨⟨stop, stop_le, placed⟩, _, row, third, licenses⟩ := h
  rcases rows : layout.distribution with _ | ⟨a, _ | ⟨b, _ | ⟨c, rest⟩⟩⟩ <;> rw [rows] at third placed
  · cases third
  · cases third
  · cases third
  · cases third
    obtain ⟨a_first, _, _, b_first, _, _, c_first, _, _, placed⟩ := placed
    have a_first : a.first = first := a_first
    have b_first : b.first = a.first + clusterCount a.size := b_first
    have c_first : row.first = b.first + clusterCount b.size + 1 := c_first
    have later := placed.laid
    refine ⟨Nat.le_of_eq a_first.symm, Nat.le_of_eq b_first.symm, ?_, ?_, later.mono (Nat.le_refl _) stop_le⟩
    · change b.first + clusterCount b.size ≤ layout.licensesFirst
      omega
    · change layout.licensesFirst + 1 ≤ row.first
      omega

/-- The extents of the files and of the directories, in the order of their clusters. -/
def extents (layout : Layout) (efiSize manifestSize : Nat) : List Extent :=
  [(2, 1), (3, 1), (layout.efiFirst, clusterCount efiSize),
    (layout.manifestFirst, clusterCount manifestSize), (layout.modelFirst, modelClusters)] ++
    (layout.distribution.take 2).map DistributionRow.extent ++
    (if layout.distribution = [] then [] else [(layout.licensesFirst, 1)]) ++
    (layout.distribution.drop 2).map DistributionRow.extent

/-- All extents are laid in the data area. -/
lemma Allocated.laid {efiSize manifestSize modelSize : Nat}
    (h : Allocated efiSize manifestSize modelSize root layout) :
    Laid 2 (extents layout efiSize manifestSize) 65503 := by
  have efi := h.efi_first
  have manifest := h.manifest_first
  have model := h.model_first
  have front : Laid 2 [(2, 1), (3, 1), (layout.efiFirst, clusterCount efiSize),
      (layout.manifestFirst, clusterCount manifestSize), (layout.modelFirst, modelClusters)]
      (layout.modelFirst + modelClusters) :=
    ⟨Nat.le_refl _, Nat.le_refl _, Nat.le_of_eq efi.symm, by simp only; omega, by simp only; omega,
      Nat.le_refl _⟩
  cases root with
  | none =>
    simp only [extents, (h.alone rfl).1, List.take_nil, List.drop_nil, List.map_nil, if_true,
      List.append_nil]
    exact front.mono (Nat.le_refl _) h.model_end
  | some files =>
    have back := h.distributed files rfl
    have nonempty : layout.distribution ≠ [] := by
      intro nil
      have eight := back.length
      rw [nil] at eight
      cases eight
    simp only [extents, if_neg nonempty, List.append_assoc]
    exact front.append back.laid

def rowBlock (row : DistributionRow) : Extent × List Write :=
  (row.extent, [(offsetOf row.first, row.payload)])

/-- The extents with what is written in them. -/
def blocks (layout : Layout) (efi manifest model : List UInt8) : List (Extent × List Write) :=
  [((2, 1), efiDirWrites), ((3, 1), bootDirWrites layout efi.length manifest.length),
    ((layout.efiFirst, clusterCount efi.length), [(offsetOf layout.efiFirst, efi)]),
    ((layout.manifestFirst, clusterCount manifest.length),
      [(offsetOf layout.manifestFirst, manifest)]),
    ((layout.modelFirst, modelClusters), [(offsetOf layout.modelFirst, model)])] ++
    (layout.distribution.take 2).map rowBlock ++
    (if layout.distribution = [] then []
      else [((layout.licensesFirst, 1), directoryWrites layout)]) ++
    (layout.distribution.drop 2).map rowBlock

/-- The blocks have the extents of the layout. -/
lemma blocks_extents :
    (blocks layout efi manifest model).map Prod.fst =
      extents layout efi.length manifest.length := by
  have rows : ∀ rows : List DistributionRow,
      (rows.map rowBlock).map Prod.fst = rows.map DistributionRow.extent :=
    fun rows => List.map_map
  simp only [blocks, extents, List.map_append, rows]
  split_ifs <;> rfl

/-- A placed row has the size of its payload, which is not empty. -/
lemma Placed.sizes {index first stop : Nat} {rows : List DistributionRow}
    (h : Placed index first rows stop) :
    ∀ row ∈ rows, row.size = row.payload.length ∧ 0 < row.size := by
  induction rows generalizing index first with
  | nil => exact fun _ mem => nomatch mem
  | cons head rows ih =>
    intro row mem
    rcases List.mem_cons.1 mem with rfl | mem
    · exact ⟨h.2.1, h.2.2.1⟩
    · exact ih h.2.2.2 row mem

/-- Every row has the size of its payload, which is not empty. -/
lemma Allocated.sizes {efiSize manifestSize modelSize : Nat}
    (h : Allocated efiSize manifestSize modelSize root layout) :
    ∀ row ∈ layout.distribution, row.size = row.payload.length ∧ 0 < row.size := by
  cases root with
  | none =>
    rw [(h.alone rfl).1]
    exact fun _ mem => nomatch mem
  | some files =>
    obtain ⟨⟨_, _, placed⟩, _⟩ := h.distributed files rfl
    exact placed.sizes

/-- A row's payload lies in its clusters. -/
lemma laid_rowBlock {row : DistributionRow} (size : row.size = row.payload.length)
    (le : 2 ≤ row.first) :
    Laid (offsetOf (rowBlock row).1.1) ((rowBlock row).2.map place)
      (offsetOf ((rowBlock row).1.1 + (rowBlock row).1.2)) := by
  change Laid (offsetOf row.first) _ (offsetOf (row.first + clusterCount row.size))
  rw [size]
  exact laid_payload le

/-- The entries of the licenses directory lie side by side from its start. -/
lemma laid_directoryWrites (eleven : ∀ row ∈ layout.distribution, row.short.length = 11)
    (eight : layout.distribution.length = 8) :
    Laid (offsetOf layout.licensesFirst) ((directoryWrites layout).map place)
      (offsetOf layout.licensesFirst + 256) := by
  have six : (layout.distribution.drop 2).length = 6 := by rw [List.length_drop, eight]
  have entries : Laid (offsetOf layout.licensesFirst + (0 + 2) * 32) _ _ :=
    laid_licenseWrites fun row mem => eleven row (List.drop_subset 2 _ mem)
  rw [six] at entries
  exact laid_entry (by decide) (laid_entry (by decide) entries)

/-- The entries of the EFI directory lie side by side from its start. -/
lemma laid_efiDirWrites : Laid 279040 (efiDirWrites.map place) 279136 := by
  have stop : Laid 279136 [] 279136 := show 279136 ≤ 279136 by decide
  exact laid_entry (by decide) (laid_entry (by decide) (laid_entry (by decide) stop))

/-- The entries of the boot directory lie side by side from its start. -/
lemma laid_bootDirWrites {efiSize manifestSize : Nat} :
    Laid 287232 ((bootDirWrites layout efiSize manifestSize).map place) 287360 := by
  have stop : Laid 287360 [] 287360 := show 287360 ≤ 287360 by decide
  exact laid_entry (by decide) (laid_entry (by decide) (laid_entry (by decide)
    (laid_entry (by decide) stop)))

/-- What is written in a block lies in its clusters. -/
lemma Allocated.block_laid
    (h : Allocated efi.length manifest.length model.length root layout) :
    ∀ b ∈ blocks layout efi manifest model,
      Laid (offsetOf b.1.1) (b.2.map place) (offsetOf (b.1.1 + b.1.2)) := by
  obtain ⟨rows_le, licenses_le⟩ := h.two_le
  have efi_le : 2 ≤ layout.efiFirst := by rw [h.efi_first]; decide
  have manifest_le : 2 ≤ layout.manifestFirst := by rw [h.manifest_first]; omega
  have model_le : 2 ≤ layout.modelFirst := by rw [h.model_first]; omega
  have model_count : clusterCount model.length = modelClusters := by rw [h.model_size]; rfl
  have row_laid : ∀ rows : List DistributionRow, (∀ row ∈ rows, row ∈ layout.distribution) →
      ∀ b ∈ rows.map rowBlock, Laid (offsetOf b.1.1) (b.2.map place) (offsetOf (b.1.1 + b.1.2)) := by
    intro rows known b mem
    obtain ⟨row, there, rfl⟩ := List.mem_map.1 mem
    exact laid_rowBlock (h.sizes row (known row there)).1 (rows_le row (known row there))
  intro b mem
  simp only [blocks, List.mem_append] at mem
  rcases mem with ((mem | mem) | mem) | mem
  · simp only [List.mem_cons, List.not_mem_nil, or_false] at mem
    rcases mem with rfl | rfl | rfl | rfl | rfl
    · have start : offsetOf 2 = 279040 := rfl
      have stop : offsetOf (2 + 1) = 287232 := rfl
      simp only [start, stop]
      exact laid_efiDirWrites.mono (Nat.le_refl _) (by decide)
    · have start : offsetOf 3 = 287232 := rfl
      have stop : offsetOf (3 + 1) = 295424 := rfl
      simp only [start, stop]
      exact laid_bootDirWrites.mono (Nat.le_refl _) (by decide)
    · exact laid_payload efi_le
    · exact laid_payload manifest_le
    · have whole : Laid _ ([(offsetOf layout.modelFirst, model)].map place) _ :=
        laid_payload model_le
      rwa [model_count] at whole
  · exact row_laid _ (fun row there => List.take_subset 2 _ there) b mem
  · split at mem
    case isTrue _ => cases mem
    case isFalse nonempty =>
      rw [List.mem_singleton] at mem
      subst mem
      cases root with
      | none => exact absurd (h.alone rfl).1 nonempty
      | some files =>
        have back := h.distributed files rfl
        have next : offsetOf (layout.licensesFirst + 1) = offsetOf layout.licensesFirst + 8192 :=
          offsetOf_add (licenses_le nonempty)
        have laid := laid_directoryWrites back.eleven back.length
        exact laid.mono (Nat.le_refl _) (by simp only [next]; omega)
  · exact row_laid _ (fun row there => List.drop_subset 2 _ there) b mem

/-- The writes of the data area are laid in it. -/
lemma Allocated.laid_blocks
    (h : Allocated efi.length manifest.length model.length root layout) :
    Laid 279040 (((blocks layout efi manifest model).flatMap Prod.snd).map place)
      (offsetOf 65503) := by
  have laid := h.laid
  have same : (blocks layout efi manifest model).map Prod.fst = _ := blocks_extents
  rw [← same] at laid
  exact Image.laid_blocks laid h.block_laid

/-- The boot sector, the tables and the first entries are laid in front. -/
lemma laid_headWrites {modelSize : Nat} (whole : fat.length = 131072) :
    Laid 0 ((headWrites layout fat modelSize).map place) 262752 := by
  have entries : Laid 262656 ([(262656, entryBytes (ascii "PROMPTBOOT ") 0x08 0 0),
      (262688, entryBytes (ascii "EFI        ") 0x10 2 0),
      (262720, entryBytes (ascii "MODEL   PBT") 0x20 layout.modelFirst modelSize)].map place)
      262752 := by
    refine laid_entry (by decide) ?_
    refine laid_entry (by decide) ?_
    refine laid_entry (by decide) ?_
    change 262720 + 32 ≤ 262752
    decide
  exact laid_write length_boot (laid_write whole (laid_write whole entries))

/-- The distribution's entries are laid in the root directory. -/
lemma laid_rootWrites (eleven : ∀ row ∈ layout.distribution, row.short.length = 11) :
    Laid 262752 ((rootWrites layout).map place) 279040 := by
  have slack : Laid 262848 [] 279040 := show 262848 ≤ 279040 by decide
  have none : Laid 262752 [] 279040 := show 262752 ≤ 279040 by decide
  rw [rootWrites]
  rcases rows : layout.distribution with _ | ⟨license, _ | ⟨source, rest⟩⟩ <;> rw [rows] at eleven
  · exact none
  · exact none
  · exact laid_entry (eleven license List.mem_cons_self) (laid_entry
      (eleven source (List.mem_cons_of_mem _ List.mem_cons_self))
      (laid_entry (by decide) slack))

/-- The names of the rows have eleven bytes. -/
lemma Allocated.eleven {efiSize manifestSize modelSize : Nat}
    (h : Allocated efiSize manifestSize modelSize root layout) :
    ∀ row ∈ layout.distribution, row.short.length = 11 := by
  cases root with
  | none =>
    rw [(h.alone rfl).1]
    exact fun _ mem => nomatch mem
  | some files => exact (h.distributed files rfl).eleven

/-- The writes in the order of their places. -/
def orderedWrites (layout : Layout) (fat efi manifest model : List UInt8) : List Write :=
  headWrites layout fat model.length ++ (rootWrites layout ++
    (blocks layout efi manifest model).flatMap Prod.snd)

/-- All writes are laid in the image. -/
lemma laid_orderedWrites (h : Allocated efi.length manifest.length model.length root layout)
    (whole : fat.length = 131072) :
    Laid 0 ((orderedWrites layout fat efi manifest model).map place) imageBytes := by
  rw [orderedWrites, List.map_append, List.map_append]
  have within : offsetOf 65503 ≤ imageBytes := by decide
  exact (laid_headWrites whole).append ((laid_rootWrites h.eleven).append
    (h.laid_blocks.mono (Nat.le_refl _) within))

/-- The writes of the row blocks are the payloads. -/
lemma flatMap_rowBlock (rows : List DistributionRow) :
    (rows.map rowBlock).flatMap Prod.snd = payloadWrites rows := by
  induction rows with
  | nil => rfl
  | cons row rows ih =>
    rw [List.map_cons, List.flatMap_cons, ih]
    rfl

/-- The builder writes the licenses directory early. -/
lemma imageWrites_perm :
    (imageWrites layout fat efi manifest model).Perm
      (orderedWrites layout fat efi manifest model) := by
  refine List.Perm.append_left _ (List.Perm.append_left _ ?_)
  simp only [blocks, List.flatMap_append, flatMap_rowBlock, List.append_assoc]
  refine List.Perm.append_left _ (List.Perm.append_left _ (List.Perm.append_left [_, _, _] ?_))
  rw [distributionWrites]
  split_ifs with empty
  · rw [empty]
    rfl
  · have split : payloadWrites layout.distribution =
        payloadWrites (layout.distribution.take 2) ++ payloadWrites (layout.distribution.drop 2) :=
      (congrArg payloadWrites (List.take_append_drop 2 _).symm).trans List.map_append
    rw [split]
    simp only [List.flatMap_cons, List.flatMap_nil, List.append_nil]
    exact List.perm_append_comm_assoc _ _ _

/-- All writes of an image are apart. -/
lemma apart_imageWrites (h : Allocated efi.length manifest.length model.length root layout)
    (whole : fat.length = 131072) :
    (imageWrites layout fat efi manifest model).Pairwise Apart :=
  ((imageWrites_perm.pairwise_iff Apart.symm).2 (laid_orderedWrites h whole).apart)

/-- All writes of an image are within it. -/
lemma imageWrites_within (h : Allocated efi.length manifest.length model.length root layout)
    (whole : fat.length = 131072) :
    ∀ w ∈ imageWrites layout fat efi manifest model, w.1 + w.2.length ≤ imageBytes := by
  intro w mem
  have there := List.mem_map_of_mem (f := place) (imageWrites_perm.mem_iff.1 mem)
  exact ((laid_orderedWrites h whole).bounds _ there).2

end Order

end Promptboot.Image
