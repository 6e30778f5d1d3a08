import Promptboot.Tools.InspectCanonical

/-!
# What lies around the writes in an accepted image

Slack and free clusters of an accepted image are zero, and its tables have the entries that the
builder gives them; so it is the image that the builder makes.

`Accepted.zero` is everything outside the writes and `Accepted.table` the entries of the tables;
`Accepted.rebuilt` puts them together with the writes. The headline `rebuilt_iff_canonical` says for
which accepted images the builder gives back the very same bytes.
-/

namespace Promptboot.Image
open Buffer

section Free
variable {image : Buffer} {spread : Bool}

/-- All that the builder writes for the payloads of an image. -/
abbrev writesOf (image : Buffer) (spread : Bool) : List Write :=
  imageWrites (layoutOf image spread) (tableOf image) (embeddedAt image 287296)
    (embeddedAt image 287328) (embeddedAt image 262720)

/-- A byte that no write reaches is before or behind each of them. -/
lemma outside_write {offset size i : Nat} {bytes : List UInt8}
    (length : bytes.length = size) (outside : ¬Within (place (offset, bytes)) i) :
    i < offset ∨ offset + size ≤ i := by
  simp only [Within, place, length] at outside
  omega

/-- Behind a file's bytes its clusters are zero. -/
lemma FileAt.zero {first size i cluster : Nat} {payload : List UInt8}
    (h : FileAt image first size) (length : payload.length = size)
    (outside : ¬Within (place (offsetOf first, payload)) i)
    (mem : cluster ∈ clustersOf first size) (above : offsetOf cluster ≤ i)
    (below : i < offsetOf cluster + 8192) : image.byte i = 0 := by
  obtain ⟨lower, upper⟩ := List.mem_range'_1.1 mem
  obtain ⟨k, rfl⟩ := Nat.exists_eq_add_of_le lower
  rw [offsetOf_add h.le] at above below
  have away := outside_write length outside
  exact (h.slack i (by omega) (by omega)).2

/-- The root directory is zero outside the writes. -/
lemma Accepted.zero_root (h : Accepted image spread) {i : Nat} (below : i < 279040)
    (outside : ∀ w ∈ writesOf image spread, ¬Within (place w) i) : image.byte i = 0 := by
  have head : ∀ w ∈ headWrites (layoutOf image spread) (tableOf image)
      (embeddedAt image 262720).length, ¬Within (place w) i :=
    fun w mem => outside w (List.mem_append_left _ mem)
  simp only [headWrites, List.forall_mem_cons] at head
  obtain ⟨boot, table, copy, volume, efi, model, _⟩ := head
  have boot := outside_write length_boot boot
  have table := outside_write (length_slice image 512 131072) table
  have copy := outside_write (length_slice image 512 131072) copy
  have volume := outside_write (length_entryBytes (by decide)) volume
  have efi := outside_write (length_entryBytes (by decide)) efi
  have model := outside_write (length_entryBytes (by decide)) model
  cases spread with
  | false => exact (h.root_slack i (by simp only [Bool.false_eq_true, if_false]; omega) below).2
  | true =>
    have roots : ∀ w ∈ rootWrites (layoutOf image true), ¬Within (place w) i :=
      fun w mem => outside w (List.mem_append_right _ (List.mem_append_left _ mem))
    have eight : (imageRows image).length = 8 := by
      rw [imageRows, List.length_map, List.length_zipIdx]
      rfl
    rcases rows : imageRows image with _ | ⟨license, _ | ⟨source, rest⟩⟩ <;> rw [rows] at eight
    · cases eight
    · cases eight
    · have several : (layoutOf image true).distribution = license :: source :: rest := rows
      have license_mem : license ∈ imageRows image := by rw [rows]; exact List.mem_cons_self
      have source_mem : source ∈ imageRows image := by
        rw [rows]
        exact List.mem_cons_of_mem _ List.mem_cons_self
      simp only [rootWrites, several, List.forall_mem_cons] at roots
      obtain ⟨first, second, third, _⟩ := roots
      have first := outside_write (length_entryBytes (imageRows_eleven license license_mem)) first
      have second := outside_write (length_entryBytes (imageRows_eleven source source_mem)) second
      have third := outside_write (length_entryBytes (by decide)) third
      exact (h.root_slack i (by simp only [if_true]; omega) below).2

/-- The directories are zero outside the writes. -/
lemma Accepted.zero_directories (h : Accepted image spread) {i : Nat} (above : 279040 ≤ i)
    (below : i < 295424) (outside : ∀ w ∈ writesOf image spread, ¬Within (place w) i) :
    image.byte i = 0 := by
  have efi_dir : ∀ w ∈ efiDirWrites, ¬Within (place w) i := fun w mem =>
    outside w (List.mem_append_right _ (List.mem_append_right _ (List.mem_append_left _ mem)))
  have boot_dir : ∀ w ∈ bootDirWrites (layoutOf image spread) (embeddedAt image 287296).length
      (embeddedAt image 287328).length, ¬Within (place w) i := fun w mem =>
    outside w (List.mem_append_right _ (List.mem_append_right _ (List.mem_append_right _
      (List.mem_append_left _ mem))))
  simp only [efiDirWrites, List.forall_mem_cons] at efi_dir
  simp only [bootDirWrites, List.forall_mem_cons] at boot_dir
  obtain ⟨dot, dotdot, boot, _⟩ := efi_dir
  obtain ⟨boot_dot, boot_dotdot, efi, manifest, _⟩ := boot_dir
  have dot := outside_write (length_entryBytes (by decide)) dot
  have dotdot := outside_write (length_entryBytes (by decide)) dotdot
  have boot := outside_write (length_entryBytes (by decide)) boot
  have boot_dot := outside_write (length_entryBytes (by decide)) boot_dot
  have boot_dotdot := outside_write (length_entryBytes (by decide)) boot_dotdot
  have efi := outside_write (length_entryBytes (by decide)) efi
  have manifest := outside_write (length_entryBytes (by decide)) manifest
  by_cases first : i < 287232
  · exact (h.directories.slack i (by omega) first).2
  · exact (h.directories.boot_slack i (by omega) below).2

/-- The licenses directory is zero behind its entries. -/
lemma DistributionAt.zero_directory {first i : Nat} (h : DistributionAt image first)
    (above : offsetOf (firstAt image 262816) ≤ i)
    (below : i < offsetOf (firstAt image 262816) + 8192)
    (outside : ∀ w ∈ directoryWrites (layoutOf image true), ¬Within (place w) i) :
    image.byte i = 0 := by
  by_cases behind : offsetOf (firstAt image 262816) + 256 ≤ i
  · exact (h.slack i behind below).2
  · exfalso
    have all : (layoutOf image true).distribution = imageRows image := rfl
    have eight : (imageRows image).length = 8 := by
      rw [imageRows, List.length_map, List.length_zipIdx]
      rfl
    rw [directoryWrites, all] at outside
    have dots := fun w mem => outside w (List.mem_append_left _ mem)
    simp only [List.forall_mem_cons] at dots
    obtain ⟨dot, dotdot, _⟩ := dots
    have dot := outside_write (length_entryBytes (by decide)) dot
    have dotdot := outside_write (length_entryBytes (by decide)) dotdot
    have licenses : (layoutOf image true).licensesFirst = firstAt image 262816 := rfl
    rw [licenses] at dot dotdot
    obtain ⟨k, place_eq, k_lt⟩ : ∃ k, i = offsetOf (firstAt image 262816) + (0 + k + 2) * 32 +
        (i - offsetOf (firstAt image 262816)) % 32 ∧ k < 6 :=
      ⟨(i - offsetOf (firstAt image 262816)) / 32 - 2, by omega, by omega⟩
    have bound : k + 2 < (imageRows image).length := by omega
    have at_k : ((imageRows image).drop 2)[k]? = some ((imageRows image)[k + 2]) := by
      rw [List.getElem?_drop, Nat.add_comm]
      exact List.getElem?_eq_getElem bound
    have row := outside _ (List.mem_append_right _ (mem_licenseWrites at_k))
    have row := outside_write (length_entryBytes (imageRows_eleven _ (List.getElem_mem bound))) row
    rw [licenses] at row
    omega

/-- What no write reaches in an accepted image is zero. -/
lemma Accepted.zero (h : Accepted image spread) {i : Nat} (below : i < imageBytes)
    (outside : ∀ w ∈ writesOf image spread, ¬Within (place w) i) : image.byte i = 0 := by
  by_cases root : i < 279040
  · exact h.zero_root root outside
  by_cases directories : i < 295424
  · exact h.zero_directories (by omega) directories outside
  by_cases free : ∀ c ∈ usedClusters image spread, ¬(offsetOf c ≤ i ∧ i < offsetOf c + 8192)
  · exact h.gaps i (by omega) below free
  simp only [not_forall, not_not] at free
  obtain ⟨c, used, from_c, to_c⟩ := free
  have file : ∀ w ∈ fileWrites (layoutOf image spread) (embeddedAt image 287296)
      (embeddedAt image 287328) (embeddedAt image 262720), ¬Within (place w) i := fun w mem =>
    outside w (List.mem_append_right _ (List.mem_append_right _ (List.mem_append_right _
      (List.mem_append_right _ (List.mem_append_left _ mem)))))
  have distribution : ∀ w ∈ distributionWrites (layoutOf image spread), ¬Within (place w) i :=
    fun w mem => outside w (List.mem_append_right _ (List.mem_append_right _
      (List.mem_append_right _ (List.mem_append_right _ (List.mem_append_right _ mem)))))
  simp only [fileWrites, List.forall_mem_cons] at file
  obtain ⟨efi, manifest, model, _⟩ := file
  have model_first : (layoutOf image spread).modelFirst = firstAt image 262720 := by
    rw [h.model_first, h.manifest_first]
    rfl
  have manifest_first : (layoutOf image spread).manifestFirst = firstAt image 287328 :=
    h.manifest_first.symm
  have efi_first : (layoutOf image spread).efiFirst = firstAt image 287296 := h.efi_first.symm
  rw [efi_first] at efi
  rw [manifest_first] at manifest
  rw [model_first] at model
  have model_length : (embeddedAt image 262720).length = modelBytes :=
    (length_slice _ _ _).trans h.model_size
  -- behind the directories a used cluster belongs to a file, which fills it but for its slack
  simp only [usedClusters, List.mem_append] at used
  rcases used with (((fixed | used) | used) | used) | used
  · simp only [List.mem_cons, List.not_mem_nil, or_false] at fixed
    rcases fixed with rfl | rfl
    · simp only [offsetOf] at to_c
      omega
    · simp only [offsetOf] at to_c
      omega
  · exact h.efi.zero (length_slice _ _ _) efi used from_c to_c
  · exact h.manifest.zero (length_slice _ _ _) manifest used from_c to_c
  · exact h.model.zero model_length model used from_c to_c
  · cases spread with
    | false => cases used
    | true =>
      have there := h.distribution rfl
      have all : (layoutOf image true).distribution = imageRows image := rfl
      have nonempty : (layoutOf image true).distribution ≠ [] := by
        rw [all]
        intro nil
        obtain ⟨row, third, _⟩ := there.licenses
        rw [nil] at third
        cases third
      rw [distributionWrites, if_neg nonempty] at distribution
      rcases List.mem_cons.1 used with rfl | used
      · exact there.zero_directory from_c to_c fun w mem =>
          distribution w (List.mem_append_left _ mem)
      · obtain ⟨row, known, mem⟩ := List.mem_flatMap.1 used
        have payload : (offsetOf row.first, row.payload) ∈
            payloadWrites (layoutOf image true).distribution := List.mem_map_of_mem known
        have length : row.payload.length = row.size := by
          rw [imageRows_payload row known, length_slice]
        exact (there.file row known).zero length
          (distribution _ (List.mem_append_right _ payload)) mem from_c to_c

end Free

section Tables
variable {image fat : Buffer} {spread : Bool}

/-- A word of a table below the first file is one of the reserved ones. -/
lemma Accepted.low_entry (h : Accepted image spread) {cluster : Nat} (low : cluster < 4) :
    fatAt image cluster = u16At reservedTable (cluster * 2) := by
  have bytes : ∀ i < 8, image.byte (512 + i) = Image.reserved.getD i 0 := by
    intro i lt
    rw [← h.reserved, take_slice _ (by decide), getD_slice lt]
  have first := bytes (cluster * 2) (by omega)
  have second := bytes (cluster * 2 + 1) (by omega)
  rw [fatAt, u16At, u16At, first, Nat.add_assoc, second]
  obtain rfl | rfl | rfl | rfl : cluster = 0 ∨ cluster = 1 ∨ cluster = 2 ∨ cluster = 3 := by omega
  all_goals rfl

/-- The builder's extents for the payloads of an accepted image are chained in it. -/
lemma Accepted.linked (h : Accepted image spread) :
    ∀ e ∈ fileExtents (layoutOf image spread) (sizeAt image 287296) (sizeAt image 287328),
      ∀ cluster, Within e cluster → fatAt image cluster = link e cluster := by
  have efi := h.efi.linked
  have manifest := h.manifest.linked
  have model := h.model.linked
  rw [h.model_first, h.manifest_first] at model
  rw [h.manifest_first] at manifest
  rw [h.efi_first] at efi
  intro e mem
  rcases List.mem_append.1 mem with three | other
  · simp only [List.mem_cons, List.not_mem_nil, or_false] at three
    rcases three with rfl | rfl | rfl
    · exact efi
    · exact manifest
    · exact model
  · cases spread with
    | false => cases other
    | true =>
      obtain ⟨row, known, rfl⟩ := List.mem_map.1 other
      exact ((h.distribution rfl).file row known).linked

/-- A cluster of no extent and of no directory is free in an accepted image. -/
lemma Accepted.unused (h : Accepted image spread) {cluster : Nat} (above : 4 ≤ cluster)
    (small : cluster < 65536)
    (outside : ∀ e ∈ fileExtents (layoutOf image spread) (sizeAt image 287296)
      (sizeAt image 287328), ¬Within e cluster)
    (elsewhere : spread = true → cluster ≠ firstAt image 262816) : fatAt image cluster = 0 := by
  refine h.orphans cluster above small fun used => ?_
  have away {first size : Nat} (mem : cluster ∈ clustersOf first size) :
      Within (first, clusterCount size) cluster := List.mem_range'_1.1 mem
  have front : ∀ e ∈ [(4, clusterCount (sizeAt image 287296)),
      (4 + clusterCount (sizeAt image 287296), clusterCount (sizeAt image 287328)),
      (4 + clusterCount (sizeAt image 287296) + clusterCount (sizeAt image 287328),
        modelClusters)], ¬Within e cluster :=
    fun e mem => outside e (List.mem_append_left _ mem)
  simp only [List.forall_mem_cons] at front
  obtain ⟨efi, manifest, model, _⟩ := front
  simp only [usedClusters, List.mem_append] at used
  rcases used with (((fixed | used) | used) | used) | used
  · simp only [List.mem_cons, List.not_mem_nil, or_false] at fixed
    omega
  · rw [h.efi_first] at used
    exact efi (away used)
  · rw [h.manifest_first] at used
    exact manifest (away used)
  · rw [h.model_first, h.manifest_first] at used
    exact model (away used)
  · cases spread with
    | false => cases used
    | true =>
      rcases List.mem_cons.1 used with same | used
      · exact elsewhere rfl same
      · obtain ⟨row, known, mem⟩ := List.mem_flatMap.1 used
        exact outside row.extent (List.mem_append_right _ (List.mem_map_of_mem known)) (away mem)

/-- The builder's table is the table of an accepted image. -/
lemma Accepted.table (h : Accepted image spread) (c : Canonical image spread)
    (facts : FatFacts (layoutOf image spread) (sizeAt image 287296) (sizeAt image 287328) fat)
    {cluster : Nat} (small : cluster < 65536) :
    u16At fat (cluster * 2) = fatAt image cluster := by
  by_cases low : cluster < 4
  · rw [facts.low cluster low, h.low_entry low]
  by_cases outside : ∀ e ∈ fileExtents (layoutOf image spread) (sizeAt image 287296)
      (sizeAt image 287328), ¬Within e cluster
  · rw [facts.other cluster (by omega) outside]
    cases spread with
    | false =>
      rw [if_neg fun both => both.1 rfl]
      exact (h.unused (by omega) small outside nofun).symm
    | true =>
      have nonempty : (layoutOf image true).distribution ≠ [] := by
        intro nil
        obtain ⟨row, third, _⟩ := (h.distribution rfl).licenses
        have all : imageRows image = [] := nil
        rw [all] at third
        cases third
      by_cases licenses : cluster = firstAt image 262816
      · rw [if_pos ⟨nonempty, licenses⟩, licenses]
        exact (c.licenses_end rfl).symm
      · rw [if_neg fun both => licenses both.2]
        exact (h.unused (by omega) small outside fun _ => licenses).symm
  · simp only [not_forall, not_not] at outside
    obtain ⟨e, mem, inside⟩ := outside
    rw [facts.chained e mem cluster inside, h.linked e mem cluster inside]

/-- Tables with the same words have the same bytes. -/
lemma slice_of_words (length : fat.length = 131072)
    (words : ∀ cluster < 65536, u16At fat (cluster * 2) = fatAt image cluster) :
    fat.slice 0 fat.length = tableOf image := by
  rw [length]
  refine List.map_congr_left fun i mem => ?_
  have lt := List.mem_range.1 mem
  have word := words (i / 2) (by omega)
  have low := (fat.byte (i / 2 * 2)).toNat_lt
  have high := (fat.byte (i / 2 * 2 + 1)).toNat_lt
  have low' := (image.byte (512 + i / 2 * 2)).toNat_lt
  have high' := (image.byte (512 + i / 2 * 2 + 1)).toNat_lt
  simp only [fatAt, u16At] at word
  apply UInt8.toNat_inj.1
  rcases Nat.mod_two_eq_zero_or_one i with even | odd
  · rw [show 0 + i = i / 2 * 2 by omega, show 512 + i = 512 + i / 2 * 2 by omega]
    omega
  · rw [show 0 + i = i / 2 * 2 + 1 by omega, show 512 + i = 512 + i / 2 * 2 + 1 by omega]
    omega

end Tables

section Canonical
variable {image made : Buffer} {spread : Bool} {external : External}

/-- The image of the builder for the payloads in an image is that image. -/
def Rebuilt (image : Buffer) (spread : Bool) : Prop :=
  ∃ made, buildFatImage (embeddedAt image 287296) (embeddedAt image 287328)
      (embeddedAt image 262720) (embeddedRoot image spread) (Buffer.zeros 0) = (.ok (), made) ∧
    made.length = image.length ∧ ∀ i < image.length, made.byte i = image.byte i

/-- A canonical image that is accepted is the builder's. -/
lemma Accepted.rebuilt (h : Accepted image spread) (c : Canonical image spread) :
    Rebuilt image spread := by
  obtain ⟨made, run⟩ := buildFatImage_ok (h.allocate (p := Buffer.zeros 0))
  obtain ⟨layout, fat, ⟨s, planned⟩, built⟩ := buildFatImage_built run
  rw [h.allocate] at planned
  cases planned
  have table := built.table
  simp only [embeddedAt, length_slice] at table
  have fat_eq : fat.slice 0 fat.length = tableOf image :=
    slice_of_words table.length fun cluster small => h.table c table small
  refine ⟨made, run, built.length_image.trans h.length.symm, fun i lt => ?_⟩
  rw [h.length] at lt
  have image_eq := built.image_eq
  rw [fat_eq] at image_eq
  have apart := apart_imageWrites built.allocated (length_slice image 512 131072)
  by_cases written : ∃ w ∈ writesOf image spread, Within (place w) i
  · obtain ⟨w, mem, inside⟩ := written
    have held := slice_eq_iff.1 (h.holds c w mem) (i - w.1) (by
      have upper := inside.2
      simp only [place] at upper
      have lower := inside.1
      simp only [place] at lower
      omega)
    have lower : w.1 ≤ i := inside.1
    rw [Nat.add_sub_cancel' lower] at held
    rw [image_eq, byte_layDown_of_mem apart mem inside, held]
  · have outside : ∀ w ∈ writesOf image spread, ¬Within (place w) i :=
      fun w mem inside => written ⟨w, mem, inside⟩
    rw [image_eq, byte_layDown_of_outside outside, h.zero lt outside]
    rfl

/-- Ranges of two buffers whose bytes agree there. -/
lemma slice_congr {offset count : Nat}
    (same : ∀ i, offset ≤ i → i < offset + count → made.byte i = image.byte i) :
    made.slice offset count = image.slice offset count :=
  List.map_congr_left fun _ mem =>
    same _ (Nat.le_add_right _ _) (Nat.add_lt_add_left (List.mem_range.1 mem) _)

/-- What the builder makes is canonical. -/
lemma Rebuilt.canonical (length : image.length = imageBytes) (h : Rebuilt image spread) :
    Canonical image spread := by
  obtain ⟨made, run, _, same⟩ := h
  rw [length] at same
  obtain ⟨layout, fat, _, built⟩ := buildFatImage_built run
  have words (offset : Nat) (inside : offset + 2 ≤ imageBytes) :
      u16At made offset = u16At image offset := by
    rw [u16At, u16At, same _ (by omega), same _ (by omega)]
  have model : made.slice 262732 14 = stamp := by
    have mem : (262720, entryBytes (ascii "MODEL   PBT") 0x20 layout.modelFirst
        (embeddedAt image 262720).length) ∈ imageWrites layout (fat.slice 0 fat.length)
          (embeddedAt image 287296) (embeddedAt image 287328) (embeddedAt image 262720) :=
      List.mem_append_left _ (by simp [headWrites])
    exact stamp_of_entry (by decide) (built.slice_write mem)
  have nonempty (on : spread = true) : layout.distribution ≠ [] := by
    intro nil
    subst on
    have eight := (built.allocated.distributed _ rfl).length
    rw [nil] at eight
    cases eight
  have first_eq : firstAt made 262816 = firstAt image 262816 := words 262842 (by decide)
  refine ⟨?_, fun on => ?_, fun on => ?_, fun on => ?_⟩
  · rw [← model]
    exact (slice_congr fun i _ _ => same i (by simp only [imageBytes]; omega)).symm
  · have raw := stamp_of_entry (by decide) (built.slice_write (built.mem_licenses_root (nonempty on)))
    rw [← raw]
    exact (slice_congr fun i _ _ => same i (by simp only [imageBytes]; omega)).symm
  · have size := (built.licenses_facts (nonempty on)).2
    rw [← size, sizeAt, sizeAt, words _ (by decide), words _ (by decide)]
  · have licenses := built.licenses (nonempty on)
    have above := built.allocated.four_le.2 (nonempty on)
    have small := built.allocated.licenses_lt
    have mark := built.table.other layout.licensesFirst above built.allocated.licenses_apart
    rw [if_pos ⟨nonempty on, rfl⟩, ← built.fatAt_eq (by omega)] at mark
    rw [← first_eq, licenses, ← mark, fatAt, fatAt]
    exact (words _ (by simp only [imageBytes]; omega)).symm

/-- An accepted image is the builder's image of its payloads if and only if what the inspector does
not look at is as the builder makes it. -/
theorem rebuilt_iff_canonical {u : Unit} {after : Buffer}
    (h : inspectImage external image = (.ok u, after)) :
    Rebuilt image external.distribution.isSome ↔
      Canonical image external.distribution.isSome := by
  obtain ⟨_, accepted⟩ := inspectImage_accepted h
  exact ⟨fun rebuilt => rebuilt.canonical accepted.length, fun c => accepted.rebuilt c⟩

end Canonical

end Promptboot.Image
