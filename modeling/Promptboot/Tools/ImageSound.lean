import Promptboot.Tools.ImageAccept

/-!
# Reading the image back

A reader of the image goes from a directory entry to the first cluster and follows the table
until the end mark. From every image that the builder makes it gets the payloads that the builder
was given.

`Built` is a finished image and `Stored` what a file in it needs to be read. The helpers
`entry_facts` and `chain_eq` are the directory entry and the chain of a file, `read_eq` is the
reader, and the headline `roundTrip_buildFatImage` is about every accepted set of payloads, with a
distribution or without.
-/

namespace Promptboot.Image
open Buffer

section Reader

/-- The first cluster that a directory entry names. -/
def firstAt (image : Buffer) (entry : Nat) : Nat := u16At image (entry + 26)

/-- The size that a directory entry records. -/
def sizeAt (image : Buffer) (entry : Nat) : Nat :=
  u16At image (entry + 28) + 2 ^ 16 * u16At image (entry + 30)

/-- An entry of the first table. -/
def fatAt (image : Buffer) (cluster : Nat) : Nat := u16At image (512 + cluster * 2)

/-- The clusters from one on, up to the end mark. -/
def chainOf (image : Buffer) : Nat → Nat → List Nat
  | 0, _ => []
  | fuel + 1, cluster =>
    cluster :: if fatAt image cluster = 0xffff then [] else chainOf image fuel (fatAt image cluster)

/-- The chain of a directory entry; no chain without a cycle is longer than the table. -/
def fileChain (image : Buffer) (entry : Nat) : List Nat :=
  chainOf image 65536 (firstAt image entry)

/-- The bytes of a file: its clusters, cut at its size. -/
def readFile (image : Buffer) (entry : Nat) : List UInt8 :=
  ((fileChain image entry).flatMap fun cluster => image.slice (offsetOf cluster) 8192).take
    (sizeAt image entry)

/-- A payload and the place of the directory entry that leads to it. -/
structure EmbeddedFile where
  entry : Nat
  payload : List UInt8

def EmbeddedFile.extent (image : Buffer) (file : EmbeddedFile) : Extent :=
  (firstAt image file.entry, clusterCount file.payload.length)

/-- The first two files are in the root directory, the others in the licenses directory. -/
def distributionEntry (licenses index : Nat) : Nat :=
  if index < 2 then 262752 + index * 32 else offsetOf licenses + index * 32

def distributionFiles (image : Buffer) (payloads : List (List UInt8)) : List EmbeddedFile :=
  payloads.zipIdx.map fun (payload, index) =>
    ⟨distributionEntry (firstAt image 262816) index, payload⟩

/-- The payloads of the distribution, when there is one. -/
def distributionPayloads (root : Option (String → Option (List UInt8))) : List (List UInt8) :=
  match root with
  | none => []
  | some files => distributionNames.map fun name => (files name.1).getD []

def embeddedFiles (efi manifest model : List UInt8)
    (root : Option (String → Option (List UInt8))) (image : Buffer) : List EmbeddedFile :=
  [⟨287296, efi⟩, ⟨287328, manifest⟩, ⟨262720, model⟩] ++
    distributionFiles image (distributionPayloads root)

/-- The clusters of the directories; the licenses directory comes with a distribution. -/
def directories (root : Option (String → Option (List UInt8))) (image : Buffer) : List Nat :=
  if root.isSome then [2, 3, firstAt image 262816] else [2, 3]

/-- What a FAT16 image of these files and directories is. -/
structure RoundTrip (image : Buffer) (directories : List Nat) (files : List EmbeddedFile) :
    Prop where
  length : image.length = imageBytes
  copies : ∀ i < 131072, image.byte (512 + i) = image.byte (131584 + i)
  clear : (directories.map (·, 1) ++ files.map (EmbeddedFile.extent image)).Pairwise Clear
  inside : ∀ e ∈ directories.map (·, 1) ++ files.map (EmbeddedFile.extent image),
    2 ≤ e.1 ∧ 279040 + (e.1 - 2 + e.2) * 8192 ≤ imageBytes
  chain : ∀ file ∈ files, fileChain image file.entry =
    List.range' (firstAt image file.entry) (clusterCount file.payload.length)
  final : ∀ file ∈ files, 0 < clusterCount file.payload.length ∧
    fatAt image (firstAt image file.entry + clusterCount file.payload.length - 1) = 0xffff
  other : ∀ cluster, 4 ≤ cluster → cluster < 65536 →
    (∀ file ∈ files, ¬Within (file.extent image) cluster) →
    fatAt image cluster = if cluster ∈ directories then 0xffff else 0
  size : ∀ file ∈ files, sizeAt image file.entry = file.payload.length
  read : ∀ file ∈ files, readFile image file.entry = file.payload

end Reader

section Chains
variable {image : Buffer}

/-- A chain whose entries link its clusters is these clusters. -/
lemma chainOf_eq_range {first count left : Nat} {fuel : Nat} (pos : 0 < left) (le : left ≤ count)
    (enough : left ≤ fuel) (small : first + count ≤ 65503)
    (linked : ∀ cluster, Within (first, count) cluster →
      fatAt image cluster = link (first, count) cluster) :
    chainOf image fuel (first + (count - left)) = List.range' (first + (count - left)) left := by
  induction left generalizing fuel with
  | zero => exact absurd pos (by omega)
  | succ left ih =>
    obtain ⟨fuel, rfl⟩ : ∃ n, fuel = n + 1 := ⟨fuel - 1, by omega⟩
    have here : fatAt image (first + (count - (left + 1))) =
        link (first, count) (first + (count - (left + 1))) := by
      refine linked _ ?_
      unfold Within
      omega
    rw [chainOf, List.range'_succ, here]
    rcases Nat.eq_zero_or_pos left with rfl | more
    · have last : link (first, count) (first + (count - (0 + 1))) = 0xffff :=
        if_pos (by simp only; omega)
      rw [if_pos last]
      rfl
    · have next : first + (count - (left + 1)) + 1 = first + (count - left) := by omega
      have goes : link (first, count) (first + (count - (left + 1))) = first + (count - left) :=
        (if_neg (by simp only; omega)).trans next
      rw [goes, if_neg (by omega), next, ih more (by omega) (by omega)]

/-- The clusters of a run hold its bytes in order. -/
lemma flatMap_clusters {first count : Nat} (le : 2 ≤ first) :
    (List.range' first count).flatMap (fun cluster => image.slice (offsetOf cluster) 8192) =
      image.slice (offsetOf first) (count * 8192) := by
  induction count generalizing first with
  | zero => simp [Buffer.slice]
  | succ count ih =>
    have next : offsetOf (first + 1) = offsetOf first + 8192 := offsetOf_add le
    have total : (count + 1) * 8192 = 8192 + count * 8192 := by omega
    rw [List.range'_succ, List.flatMap_cons, ih (by omega), next, total, slice_add]

end Chains

section Entries
variable {image : Buffer} {entry first size : Nat} {name : List UInt8} {attributes : UInt8}

/-- The bytes of an entry behind its name. -/
lemma byte_entry (eleven : name.length = 11)
    (h : image.slice entry (entryBytes name attributes first size).length =
      entryBytes name attributes first size) (i : Nat) (lt : i < 21) :
    image.byte (entry + (11 + i)) =
      ([attributes, 0, 0] ++ le16 0 ++ le16 0x21 ++ le16 0x21 ++ [0, 0] ++ le16 0 ++
        le16 0x21 ++ le16 first ++ le32 size).getD i 0 := by
  have bytes := slice_eq_iff.1 h (11 + i) (by rw [length_entryBytes eleven]; omega)
  rw [bytes, entryBytes]
  simp only [List.append_assoc]
  rw [List.getD_append_right _ _ _ _ (by omega), eleven, Nat.add_sub_cancel_left]

/-- The first cluster is read back from an entry. -/
lemma firstAt_entry (eleven : name.length = 11) (fits : first < 65536)
    (h : image.slice entry (entryBytes name attributes first size).length =
      entryBytes name attributes first size) : firstAt image entry = first := by
  have low : image.byte (entry + 26) = UInt8.ofNat first := byte_entry eleven h 15 (by decide)
  have high : image.byte (entry + 26 + 1) = UInt8.ofNat (first / 2 ^ 8) :=
    byte_entry eleven h 16 (by decide)
  rw [firstAt, u16At, low, high, UInt8.toNat_ofNat', UInt8.toNat_ofNat']
  omega

/-- The size is read back from an entry. -/
lemma sizeAt_entry (eleven : name.length = 11) (fits : size < 2 ^ 32)
    (h : image.slice entry (entryBytes name attributes first size).length =
      entryBytes name attributes first size) : sizeAt image entry = size := by
  have b0 : image.byte (entry + 28) = UInt8.ofNat size := byte_entry eleven h 17 (by decide)
  have b1 : image.byte (entry + 28 + 1) = UInt8.ofNat (size / 2 ^ 8) :=
    byte_entry eleven h 18 (by decide)
  have b2 : image.byte (entry + 30) = UInt8.ofNat (size / 2 ^ 16) :=
    byte_entry eleven h 19 (by decide)
  have b3 : image.byte (entry + 30 + 1) = UInt8.ofNat (size / 2 ^ 24) :=
    byte_entry eleven h 20 (by decide)
  rw [sizeAt, u16At, u16At, b0, b1, b2, b3]
  simp only [UInt8.toNat_ofNat']
  omega

end Entries

section Built
variable {layout : Layout} {fat image : Buffer} {efi manifest model : List UInt8}
  {root : Option (String → Option (List UInt8))}

/-- An image with the layout and the table it was built from. -/
structure Built (efi manifest model : List UInt8)
    (root : Option (String → Option (List UInt8))) (layout : Layout) (fat image : Buffer) :
    Prop where
  allocated : Allocated efi.length manifest.length model.length root layout
  table : FatFacts layout efi.length manifest.length fat
  image_eq : image = (Buffer.zeros imageBytes).layDown
    (imageWrites layout (fat.slice 0 fat.length) efi manifest model)

/-- The extents of the directories. -/
def directoryExtents (layout : Layout) : List Extent :=
  [(2, 1), (3, 1)] ++ if layout.distribution = [] then [] else [(layout.licensesFirst, 1)]

/-- The extents are those of the directories and the files. -/
lemma extents_perm {efiSize manifestSize : Nat} :
    (extents layout efiSize manifestSize).Perm
      (directoryExtents layout ++ fileExtents layout efiSize manifestSize) := by
  have rows : layout.distribution.map DistributionRow.extent =
      (layout.distribution.take 2).map DistributionRow.extent ++
        (layout.distribution.drop 2).map DistributionRow.extent := by
    rw [← List.map_append, List.take_append_drop]
  rw [extents, directoryExtents, fileExtents, rows]
  generalize (layout.distribution.take 2).map DistributionRow.extent = front
  generalize (layout.distribution.drop 2).map DistributionRow.extent = back
  generalize (if layout.distribution = [] then [] else [(layout.licensesFirst, 1)]) = licenses
  -- the licenses directory moves before the files
  have moved : ∀ files : List Extent,
      (files ++ front ++ licenses ++ back).Perm (licenses ++ (files ++ (front ++ back))) := by
    intro files
    have swap : ((files ++ front) ++ licenses).Perm (licenses ++ (files ++ front)) :=
      List.perm_append_comm
    have swap := swap.append_right back
    simpa only [List.append_assoc] using swap
  simpa only [List.cons_append, List.nil_append, List.append_assoc] using
    (moved [(layout.efiFirst, clusterCount efiSize),
      (layout.manifestFirst, clusterCount manifestSize),
      (layout.modelFirst, modelClusters)]).append_left [(2, 1), (3, 1)]

/-- All extents of a layout are clear of each other. -/
lemma Allocated.clear {efiSize manifestSize modelSize : Nat}
    (h : Allocated efiSize manifestSize modelSize root layout) :
    (directoryExtents layout ++ fileExtents layout efiSize manifestSize).Pairwise Clear :=
  (extents_perm.pairwise_iff Clear.symm).1 h.laid.clear

/-- All extents of a layout are in the data area. -/
lemma Allocated.bounds {efiSize manifestSize modelSize : Nat}
    (h : Allocated efiSize manifestSize modelSize root layout) :
    ∀ e ∈ directoryExtents layout ++ fileExtents layout efiSize manifestSize,
      2 ≤ e.1 ∧ e.1 + e.2 ≤ 65503 :=
  fun e mem => h.laid.bounds e (extents_perm.mem_iff.2 mem)

/-- No file has the cluster of the licenses directory. -/
lemma Allocated.licenses_apart {efiSize manifestSize modelSize : Nat}
    (h : Allocated efiSize manifestSize modelSize root layout) :
    ∀ e ∈ fileExtents layout efiSize manifestSize, ¬Within e layout.licensesFirst := by
  intro e mem
  obtain ⟨_, _, between⟩ := List.pairwise_append.1 h.clear
  by_cases empty : layout.distribution = []
  -- without a distribution the number is zero
  · have above := (h.bounds e (List.mem_append_right _ mem)).1
    cases root with
    | none =>
      rw [(h.alone rfl).2]
      unfold Within
      omega
    | some files =>
      have eight := (h.distributed files rfl).length
      rw [empty] at eight
      cases eight
  · have there : (layout.licensesFirst, 1) ∈ directoryExtents layout := by
      simp [directoryExtents, empty]
    exact Clear.not_within (between _ there e mem) ⟨Nat.le_refl _, Nat.lt_succ_self _⟩

/-- Behind the two directories everything is at least at cluster four. -/
lemma Allocated.above {efiSize manifestSize modelSize : Nat}
    (h : Allocated efiSize manifestSize modelSize root layout) :
    ∀ e ∈ fileExtents layout efiSize manifestSize, 4 ≤ e.1 := by
  have efi := h.efi_first
  have manifest := h.manifest_first
  have model := h.model_first
  intro e mem
  rcases List.mem_append.1 mem with three | other
  · simp only [List.mem_cons, List.not_mem_nil, or_false] at three
    rcases three with rfl | rfl | rfl <;> simp only <;> omega
  · obtain ⟨row, known, rfl⟩ := List.mem_map.1 other
    exact Nat.le_of_succ_le (h.four_le.1 row known)

/-- A successful build has a layout, a table and their writes. -/
lemma buildFatImage_built {p : Buffer} {u : Unit}
    (h : buildFatImage efi manifest model root p = (.ok u, image)) :
    ∃ layout fat, (∃ s, allocate efi.length manifest.length model.length root p = (.ok layout, s)) ∧
      Built efi manifest model root layout fat image := by
  obtain ⟨layout, fat, planned, allocated, ⟨s, made⟩, image_eq⟩ := buildFatImage_writes h
  obtain ⟨_, clear, _⟩ := List.pairwise_append.1 allocated.clear
  obtain ⟨_, table⟩ := buildFat_facts clear allocated.licenses_apart allocated.above
    allocated.four_le.2 made
  exact ⟨layout, fat, planned, allocated, table, image_eq⟩

namespace Built
variable (h : Built efi manifest model root layout fat image)
include h

/-- Every write is there in the image. -/
lemma slice_write {w : Write}
    (mem : w ∈ imageWrites layout (fat.slice 0 fat.length) efi manifest model) :
    image.slice w.1 w.2.length = w.2 := by
  rw [h.image_eq]
  exact slice_layDown (apart_imageWrites h.allocated (by rw [length_slice, h.table.length])) mem

/-- The image has its length. -/
lemma length_image : image.length = imageBytes := by
  rw [h.image_eq]
  exact length_layDown
    (imageWrites_within h.allocated (by rw [length_slice, h.table.length]))

/-- Both tables of the image are the table that was built. -/
lemma byte_table {i : Nat} (lt : i < 131072) :
    image.byte (512 + i) = fat.byte i ∧ image.byte (131584 + i) = fat.byte i := by
  have first := h.slice_write (w := (512, fat.slice 0 fat.length))
    (List.mem_append_left _ (by simp [headWrites]))
  have second := h.slice_write (w := (131584, fat.slice 0 fat.length))
    (List.mem_append_left _ (by simp [headWrites]))
  have there : i < (fat.slice 0 fat.length).length := by rw [length_slice, h.table.length]; exact lt
  have value : (fat.slice 0 fat.length).getD i 0 = fat.byte i := by
    rw [List.getD_eq_getElem _ _ there]
    simp [Buffer.slice]
  exact ⟨(slice_eq_iff.1 first i there).trans value, (slice_eq_iff.1 second i there).trans value⟩

/-- An entry of the table in the image is that of the table built. -/
lemma fatAt_eq {cluster : Nat} (lt : cluster < 65536) :
    fatAt image cluster = u16At fat (cluster * 2) := by
  have low := (h.byte_table (i := cluster * 2) (by omega)).1
  have high := (h.byte_table (i := cluster * 2 + 1) (by omega)).1
  rw [fatAt, u16At, u16At, low, Nat.add_assoc, high]

/-- An entry that was written is read back. -/
lemma entry_facts {offset first size : Nat} {name : List UInt8} {attributes : UInt8}
    (mem : (offset, entryBytes name attributes first size) ∈
      imageWrites layout (fat.slice 0 fat.length) efi manifest model)
    (eleven : name.length = 11) (fits : first < 65536) (size_fits : size < 2 ^ 32) :
    firstAt image offset = first ∧ sizeAt image offset = size :=
  ⟨firstAt_entry eleven fits (h.slice_write mem), sizeAt_entry eleven size_fits (h.slice_write mem)⟩

/-- An extent of a file bounds its cluster numbers and its size. -/
lemma file_bounds {e : Extent} (mem : e ∈ fileExtents layout efi.length manifest.length)
    {size : Nat} (count : e.2 = clusterCount size) :
    2 ≤ e.1 ∧ e.1 + e.2 ≤ 65503 ∧ size < 2 ^ 32 := by
  obtain ⟨le, stop⟩ := h.allocated.bounds e (List.mem_append_right _ mem)
  have whole := le_clusterCount size
  exact ⟨le, stop, by omega⟩

/-- The licenses directory has its entry in the root. -/
lemma mem_licenses_root (nonempty : layout.distribution ≠ []) :
    (262816, entryBytes (ascii "LICENSES   ") 0x10 layout.licensesFirst 0) ∈
      imageWrites layout (fat.slice 0 fat.length) efi manifest model := by
  refine List.mem_append_right _ (List.mem_append_left _ ?_)
  rw [rootWrites]
  cases root with
  | none => exact absurd (h.allocated.alone rfl).1 nonempty
  | some files =>
    have eight := (h.allocated.distributed files rfl).length
    rcases rows : layout.distribution with _ | ⟨a, _ | ⟨b, rest⟩⟩ <;> rw [rows] at eight
    · cases eight
    · cases eight
    · simp

/-- The entry of the licenses directory is read back. -/
lemma licenses_facts (nonempty : layout.distribution ≠ []) :
    firstAt image 262816 = layout.licensesFirst ∧ sizeAt image 262816 = 0 := by
  have there : (layout.licensesFirst, 1) ∈
      directoryExtents layout ++ fileExtents layout efi.length manifest.length := by
    simp [directoryExtents, nonempty]
  have bound := (h.allocated.bounds _ there).2
  exact h.entry_facts (h.mem_licenses_root nonempty) (by decide) (by simp only at bound; omega)
    (by decide)

/-- The licenses directory is where its entry says. -/
lemma licenses (nonempty : layout.distribution ≠ []) :
    firstAt image 262816 = layout.licensesFirst :=
  (h.licenses_facts nonempty).1

end Built

/-- Every row has its entry in the licenses directory. -/
lemma mem_licenseWrites {directory index i : Nat} {rows : List DistributionRow}
    {row : DistributionRow} (at_i : rows[i]? = some row) :
    (directory + (index + i + 2) * 32, entryBytes row.short 0x20 row.first row.size) ∈
      licenseWrites directory index rows := by
  induction rows generalizing index i with
  | nil => cases at_i
  | cons head rows ih =>
    rw [licenseWrites]
    cases i with
    | zero =>
      cases at_i
      exact List.mem_cons_self
    | succ i =>
      have later : (directory + (index + 1 + i + 2) * 32, _) ∈ _ := ih at_i
      rw [show index + 1 + i + 2 = index + (i + 1) + 2 by omega] at later
      exact List.mem_cons_of_mem _ later

/-- Every row has its payload written. -/
lemma mem_payloadWrites {row : DistributionRow} (mem : row ∈ layout.distribution) :
    (offsetOf row.first, row.payload) ∈
      imageWrites layout (fat.slice 0 fat.length) efi manifest model := by
  refine List.mem_append_right _ (List.mem_append_right _ (List.mem_append_right _
    (List.mem_append_right _ (List.mem_append_right _ ?_))))
  rw [distributionWrites, if_neg (List.ne_nil_of_mem mem)]
  exact List.mem_append_right _ (List.mem_map_of_mem mem)

namespace Built
variable (h : Built efi manifest model root layout fat image)
include h

/-- Each row of the distribution has its entry where a reader looks for it. -/
lemma row_entry {index : Nat} {row : DistributionRow}
    (at_index : layout.distribution[index]? = some row) :
    (distributionEntry (firstAt image 262816) index,
      entryBytes row.short 0x20 row.first row.size) ∈
        imageWrites layout (fat.slice 0 fat.length) efi manifest model := by
  have nonempty : layout.distribution ≠ [] := by
    intro nil
    rw [nil] at at_index
    cases at_index
  rw [h.licenses nonempty, distributionEntry]
  rcases rows : layout.distribution with _ | ⟨a, rest⟩
  · exact absurd rows nonempty
  · cases root with
    | none => exact absurd (h.allocated.alone rfl).1 nonempty
    | some files =>
      have eight := (h.allocated.distributed files rfl).length
      rcases rest with _ | ⟨b, rest⟩
      · rw [rows] at eight
        cases eight
      · rw [rows] at at_index
        match index with
        | 0 =>
          cases at_index
          refine List.mem_append_right _ (List.mem_append_left _ ?_)
          simp [rootWrites, rows]
        | 1 =>
          cases at_index
          refine List.mem_append_right _ (List.mem_append_left _ ?_)
          simp [rootWrites, rows]
        | i + 2 =>
          rw [if_neg (by omega)]
          have at_i : rest[i]? = some row := by simpa using at_index
          have there : (offsetOf layout.licensesFirst + (0 + i + 2) * 32, _) ∈
              licenseWrites _ 0 rest := mem_licenseWrites at_i
          rw [Nat.zero_add] at there
          refine List.mem_append_right _ (List.mem_append_right _ (List.mem_append_right _
            (List.mem_append_right _ (List.mem_append_right _ ?_))))
          rw [distributionWrites, if_neg nonempty, directoryWrites, rows]
          exact List.mem_append_left _ (List.mem_append_right _ there)

/-- The payloads that a reader expects are those of the rows. -/
lemma payloads : distributionPayloads root = layout.distribution.map DistributionRow.payload := by
  cases root with
  | none =>
    rw [(h.allocated.alone rfl).1]
    rfl
  | some files =>
    have named := (h.allocated.distributed files rfl).named
    have second := congrArg (List.map fun pair : List UInt8 × Option (List UInt8) =>
      pair.2.getD []) named
    simp only [List.map_map] at second
    exact second.symm

/-- What the reader needs of a file: its entry, its extent and its bytes. -/
structure Stored (layout : Layout) (ws : List Write) (efiSize manifestSize : Nat) (image : Buffer)
    (file : EmbeddedFile) : Prop where
  extent : file.extent image ∈ fileExtents layout efiSize manifestSize
  size : sizeAt image file.entry = file.payload.length
  pos : 0 < file.payload.length
  data : (offsetOf (firstAt image file.entry), file.payload) ∈ ws

omit h in
/-- A file whose entry and payload are written is stored. -/
lemma stored_of_facts {ws : List Write} {efiSize manifestSize first : Nat} {file : EmbeddedFile}
    (facts : firstAt image file.entry = first ∧ sizeAt image file.entry = file.payload.length)
    (extent : (first, clusterCount file.payload.length) ∈ fileExtents layout efiSize manifestSize)
    (pos : 0 < file.payload.length) (data : (offsetOf first, file.payload) ∈ ws) :
    Stored layout ws efiSize manifestSize image file where
  extent := by
    rw [EmbeddedFile.extent, facts.1]
    exact extent
  size := facts.2
  pos := pos
  data := by
    rw [facts.1]
    exact data

/-- The entry of the EFI application is read back. -/
lemma efi_facts : firstAt image 287296 = layout.efiFirst ∧ sizeAt image 287296 = efi.length := by
  obtain ⟨le, stop, fits⟩ := h.file_bounds (e := (layout.efiFirst, clusterCount efi.length))
    (by simp [fileExtents]) rfl
  have mem : (287296, entryBytes (ascii "BOOTX64 EFI") 0x20 layout.efiFirst efi.length) ∈
      imageWrites layout (fat.slice 0 fat.length) efi manifest model := by
    refine List.mem_append_right _ (List.mem_append_right _ (List.mem_append_right _
      (List.mem_append_left _ ?_)))
    simp [bootDirWrites]
  exact h.entry_facts mem (by decide) (by simp only at stop; omega) fits

/-- The entry of the manifest is read back. -/
lemma manifest_facts :
    firstAt image 287328 = layout.manifestFirst ∧ sizeAt image 287328 = manifest.length := by
  obtain ⟨le, stop, fits⟩ := h.file_bounds
    (e := (layout.manifestFirst, clusterCount manifest.length)) (by simp [fileExtents]) rfl
  have mem : (287328, entryBytes (ascii "BUILD   JSN") 0x20 layout.manifestFirst manifest.length) ∈
      imageWrites layout (fat.slice 0 fat.length) efi manifest model := by
    refine List.mem_append_right _ (List.mem_append_right _ (List.mem_append_right _
      (List.mem_append_left _ ?_)))
    simp [bootDirWrites]
  exact h.entry_facts mem (by decide) (by simp only at stop; omega) fits

/-- The entry of the model is read back. -/
lemma model_facts :
    firstAt image 262720 = layout.modelFirst ∧ sizeAt image 262720 = model.length := by
  have size : model.length = 426762944 := h.allocated.model_size
  have stop := h.allocated.model_end
  have mem : (262720, entryBytes (ascii "MODEL   PBT") 0x20 layout.modelFirst model.length) ∈
      imageWrites layout (fat.slice 0 fat.length) efi manifest model :=
    List.mem_append_left _ (by simp [headWrites])
  exact h.entry_facts mem (by decide) (by omega) (by omega)

/-- The entry of a row is read back. -/
lemma row_facts {index : Nat} {row : DistributionRow}
    (at_index : layout.distribution[index]? = some row) :
    firstAt image (distributionEntry (firstAt image 262816) index) = row.first ∧
      sizeAt image (distributionEntry (firstAt image 262816) index) = row.payload.length := by
  have mem := List.mem_of_getElem? at_index
  have extent : row.extent ∈ fileExtents layout efi.length manifest.length :=
    List.mem_append_right _ (List.mem_map_of_mem mem)
  obtain ⟨le, stop, fits⟩ := h.file_bounds extent rfl
  have eleven := h.allocated.eleven row mem
  have size := (h.allocated.sizes row mem).1
  rw [← size]
  refine h.entry_facts (h.row_entry at_index) eleven ?_ fits
  simp only [DistributionRow.extent] at stop
  omega

/-- Every embedded file is stored. -/
lemma stored : ∀ file ∈ embeddedFiles efi manifest model root image,
    Stored layout (imageWrites layout (fat.slice 0 fat.length) efi manifest model) efi.length
      manifest.length image file := by
  have files : ∀ w ∈ fileWrites layout efi manifest model,
      w ∈ imageWrites layout (fat.slice 0 fat.length) efi manifest model := by
    intro w mem
    exact List.mem_append_right _ (List.mem_append_right _ (List.mem_append_right _
      (List.mem_append_right _ (List.mem_append_left _ mem))))
  have model_count : clusterCount model.length = modelClusters := by
    rw [h.allocated.model_size]
    rfl
  have model_pos : 0 < model.length := by
    rw [h.allocated.model_size]
    decide
  intro file mem
  rw [embeddedFiles, h.payloads] at mem
  rcases List.mem_append.1 mem with three | other
  · simp only [List.mem_cons, List.not_mem_nil, or_false] at three
    rcases three with rfl | rfl | rfl
    · exact stored_of_facts h.efi_facts (by simp [fileExtents]) h.allocated.efi_pos
        (files _ (by simp [fileWrites]))
    · exact stored_of_facts h.manifest_facts (by simp [fileExtents]) h.allocated.manifest_pos
        (files _ (by simp [fileWrites]))
    · exact stored_of_facts h.model_facts (by simp [fileExtents, model_count]) model_pos
        (files _ (by simp [fileWrites]))
  · obtain ⟨⟨payload, index⟩, there, rfl⟩ := List.mem_map.1 other
    have at_index := List.mk_mem_zipIdx_iff_getElem?.1 there
    rw [List.getElem?_map] at at_index
    obtain ⟨row, at_row, rfl⟩ := Option.map_eq_some_iff.1 at_index
    have known := List.mem_of_getElem? at_row
    obtain ⟨size, pos⟩ := h.allocated.sizes row known
    rw [size] at pos
    refine stored_of_facts (h.row_facts at_row) ?_ pos (mem_payloadWrites known)
    rw [← size]
    exact List.mem_append_right _ (List.mem_map_of_mem (f := DistributionRow.extent) known)

/-- The reader finds the extents that were allocated. -/
lemma extents_eq : (embeddedFiles efi manifest model root image).map
    (EmbeddedFile.extent image) = fileExtents layout efi.length manifest.length := by
  have model_count : clusterCount model.length = modelClusters := by
    rw [h.allocated.model_size]
    rfl
  rw [embeddedFiles, List.map_append, fileExtents, h.payloads]
  congr 1
  · simp only [List.map_cons, List.map_nil, EmbeddedFile.extent, h.efi_facts.1, h.manifest_facts.1,
      h.model_facts.1, model_count]
  · rw [distributionFiles, List.map_map]
    apply List.ext_getElem
    · simp
    · intro index lt _
      have bound : index < layout.distribution.length := by simpa using lt
      have at_index := List.getElem?_eq_getElem bound
      have size := (h.allocated.sizes _ (List.getElem_mem bound)).1
      simp only [List.getElem_map, List.getElem_zipIdx, Function.comp_apply, EmbeddedFile.extent,
        Nat.zero_add, (h.row_facts at_index).1, DistributionRow.extent, size]

/-- The directories are those of the layout. -/
lemma directories_eq :
    (directories root image).map (·, 1) = directoryExtents layout := by
  cases root with
  | none => simp [directories, directoryExtents, (h.allocated.alone rfl).1]
  | some files =>
    have nonempty : layout.distribution ≠ [] := by
      intro nil
      have eight := (h.allocated.distributed files rfl).length
      rw [nil] at eight
      cases eight
    simp [directories, directoryExtents, nonempty, h.licenses nonempty]

/-- A cluster of a file links to the next one. -/
lemma entry_linked {file : EmbeddedFile}
    (stored : Stored layout (imageWrites layout (fat.slice 0 fat.length) efi manifest model)
      efi.length manifest.length image file) {cluster : Nat}
    (inside : Within (file.extent image) cluster) :
    fatAt image cluster = link (file.extent image) cluster := by
  have bound := (h.file_bounds stored.extent rfl).2.1
  have small : cluster < 65536 := by
    unfold Within at inside
    omega
  rw [h.fatAt_eq small]
  exact h.table.chained _ stored.extent cluster inside

/-- A file's chain is its clusters in order. -/
lemma chain_eq {file : EmbeddedFile}
    (stored : Stored layout (imageWrites layout (fat.slice 0 fat.length) efi manifest model)
      efi.length manifest.length image file) :
    fileChain image file.entry =
      List.range' (firstAt image file.entry) (clusterCount file.payload.length) := by
  have pos := stored.pos
  have count : 0 < clusterCount file.payload.length := by
    unfold clusterCount
    omega
  have bound : firstAt image file.entry + clusterCount file.payload.length ≤ 65503 :=
    (h.file_bounds stored.extent rfl).2.1
  have chain : chainOf image 65536 (firstAt image file.entry + (_ - _)) = _ :=
    chainOf_eq_range count (Nat.le_refl _) (by omega) bound fun _ inside =>
      h.entry_linked stored inside
  rwa [Nat.sub_self, Nat.add_zero] at chain

/-- A file reads as its payload. -/
lemma read_eq {file : EmbeddedFile}
    (stored : Stored layout (imageWrites layout (fat.slice 0 fat.length) efi manifest model)
      efi.length manifest.length image file) : readFile image file.entry = file.payload := by
  have le : 2 ≤ firstAt image file.entry := (h.file_bounds stored.extent rfl).1
  rw [readFile, h.chain_eq stored, flatMap_clusters le, stored.size,
    take_slice _ (le_clusterCount _)]
  exact h.slice_write stored.data

/-- The image of a successful build is one that a reader can read. -/
lemma roundTrip : RoundTrip image (directories root image)
    (embeddedFiles efi manifest model root image) := by
  have all : (directories root image).map (·, 1) ++
      (embeddedFiles efi manifest model root image).map (EmbeddedFile.extent image) =
      directoryExtents layout ++ fileExtents layout efi.length manifest.length := by
    rw [h.directories_eq, h.extents_eq]
  refine ⟨h.length_image, ?_, all ▸ h.allocated.clear, ?_, fun file mem => h.chain_eq (h.stored _ mem),
    ?_, ?_, fun file mem => (h.stored _ mem).size, fun file mem => h.read_eq (h.stored _ mem)⟩
  · intro i lt
    rw [(h.byte_table lt).1, (h.byte_table lt).2]
  · rw [all]
    intro e mem
    obtain ⟨le, stop⟩ := h.allocated.bounds e mem
    refine ⟨le, ?_⟩
    simp only [imageBytes]
    omega
  -- the last cluster of a file ends its chain
  · intro file mem
    have stored := h.stored file mem
    have pos := stored.pos
    have count : 0 < clusterCount file.payload.length := by
      unfold clusterCount
      omega
    have inside : Within (file.extent image)
        (firstAt image file.entry + clusterCount file.payload.length - 1) := by
      simp only [Within, EmbeddedFile.extent]
      omega
    refine ⟨count, ?_⟩
    rw [h.entry_linked stored inside, link, if_pos]
    simp only [EmbeddedFile.extent]
    omega
  -- a cluster of no file is free, or is a directory
  · intro cluster above small none
    have outside : ∀ e ∈ fileExtents layout efi.length manifest.length, ¬Within e cluster := by
      rw [← h.extents_eq]
      intro e mem
      obtain ⟨file, there, rfl⟩ := List.mem_map.1 mem
      exact none file there
    rw [h.fatAt_eq small, h.table.other cluster above outside]
    have same : (layout.distribution ≠ [] ∧ cluster = layout.licensesFirst) ↔
        cluster ∈ directories root image := by
      have member : cluster ∈ directories root image ↔ (cluster, 1) ∈ directoryExtents layout := by
        rw [← h.directories_eq, List.mem_map]
        simp
      rw [member, directoryExtents]
      split_ifs with empty
      · simp [empty]
        omega
      · simp [empty]
        omega
    simp only [same]

end Built

/-- From every image that the builder makes a reader gets back what went into it. -/
theorem roundTrip_buildFatImage {efi manifest model : List UInt8}
    {root : Option (String → Option (List UInt8))} {start image : Buffer} {u : Unit}
    (h : buildFatImage efi manifest model root start = (.ok u, image)) :
    RoundTrip image (directories root image)
      (embeddedFiles efi manifest model root image) := by
  obtain ⟨layout, fat, _, built⟩ := buildFatImage_built h
  exact built.roundTrip

/-- The rows of a distribution whose files have one byte each. -/
def singleByteRows : List DistributionRow :=
  distributionNames.zipIdx.map fun (name, index) =>
    ⟨name.2, [3], 6 + modelClusters + index + (if index < 2 then 0 else 1), 1⟩

/-- A distribution of such files fits behind the model. -/
lemma allocate_singleBytes (p : Buffer) :
    ∃ layout, allocate 1 1 modelBytes (some fun _ => some [3]) p = (.ok layout, p) := by
  have placed : Placed 0 (6 + modelClusters) singleByteRows (15 + modelClusters) := by
    simp [singleByteRows, distributionNames, Placed, clusterCount]
    omega
  have third : singleByteRows[2]? = some ⟨ascii "3RDPARTYTXT", [3], 9 + modelClusters, 1⟩ := rfl
  have spread : distributionRows (some fun _ => some [3]) (6 + modelClusters) p =
      (.ok (singleByteRows, 8 + modelClusters), p) :=
    distributionRows_ok placed (by decide) rfl third (by decide)
  exact ⟨_, allocate_ok (by decide) (by decide) rfl placed (by decide) spread⟩

/-- A model of zeros with payloads of one byte is an image, alone and with a distribution. -/
theorem roundTrip_small :
    (∃ image, buildFatImage [1] [2] (List.replicate modelBytes 0) none (Buffer.zeros 0) =
        (.ok (), image) ∧
      RoundTrip image (directories none image)
        (embeddedFiles [1] [2] (List.replicate modelBytes 0) none image)) ∧
    ∃ image, buildFatImage [1] [2] (List.replicate modelBytes 0) (some fun _ => some [3])
        (Buffer.zeros 0) = (.ok (), image) ∧
      RoundTrip image (directories (some fun _ => some [3]) image)
        (embeddedFiles [1] [2] (List.replicate modelBytes 0) (some fun _ => some [3]) image) := by
  have size : (List.replicate modelBytes (0 : UInt8)).length = modelBytes := List.length_replicate
  generalize List.replicate modelBytes (0 : UInt8) = model at size
  obtain ⟨alone, planned⟩ := allocate_none (Buffer.zeros 0) 1 1 (by decide) (by decide) (by decide)
  obtain ⟨spread, planned'⟩ := allocate_singleBytes (Buffer.zeros 0)
  rw [← size] at planned planned'
  have made : ∃ image, buildFatImage [1] [2] model none (Buffer.zeros 0) = (.ok (), image) :=
    buildFatImage_ok planned
  have made' : ∃ image, buildFatImage [1] [2] model (some fun _ => some [3]) (Buffer.zeros 0) =
      (.ok (), image) :=
    buildFatImage_ok planned'
  obtain ⟨image, built⟩ := made
  obtain ⟨image', built'⟩ := made'
  exact ⟨⟨image, built, roundTrip_buildFatImage built⟩,
    ⟨image', built', roundTrip_buildFatImage built'⟩⟩

end Built

end Promptboot.Image
