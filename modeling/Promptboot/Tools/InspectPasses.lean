import Promptboot.Tools.InspectComplete
import Mathlib.Data.List.Pairwise

/-!
# Images that the inspector lets pass

The inspector accepts every image that the builder makes. It accepts one with a byte changed that no
check looks at, too, and that one the builder does not make.

`Built.zero_of_block` and `Built.zero_root` say where the image of a build is zero, with
`Built.zero_behind` for the slack of a file or a directory. `Built.fileAt` and
`Built.distributionAt` say what is in place, and `Built.accepted` is all of it. `Unseen` are the
bytes that the checks up to the model pass over. The headlines are `inspectImage_buildFatImage` and
`accepted_not_rebuilt`.
-/

namespace Promptboot.Image
open Buffer

section Zeros
variable {layout : Layout} {fat image : Buffer} {efi manifest model : List UInt8}
  {root : Option (String → Option (List UInt8))}

/-- Two different blocks have clusters of their own. -/
lemma Allocated.blocks_clear (h : Allocated efi.length manifest.length model.length root layout)
    {b c : Extent × List Write} (mem : b ∈ blocks layout efi manifest model)
    (mem' : c ∈ blocks layout efi manifest model) (ne : b ≠ c) : Clear b.1 c.1 := by
  have clear := h.laid.clear
  have same : (blocks layout efi manifest model).map Prod.fst = _ := blocks_extents
  rw [← same, List.pairwise_map] at clear
  have : Std.Symm fun b c : Extent × List Write => Clear b.1 c.1 := ⟨fun _ _ => Clear.symm⟩
  exact clear.forall mem mem' ne

namespace Built
variable (h : Built efi manifest model root layout fat image)
include h

/-- The table is written whole. -/
lemma length_table : (fat.slice 0 fat.length).length = 131072 := by
  rw [length_slice, h.table.length]

/-- A byte of the data area that no write of its block reaches is zero. -/
lemma zero_of_block {i : Nat} (above : 279040 ≤ i)
    (outside : ∀ b ∈ blocks layout efi manifest model, offsetOf b.1.1 ≤ i →
      i < offsetOf (b.1.1 + b.1.2) → ∀ w ∈ b.2, ¬Within (place w) i) : image.byte i = 0 := by
  rw [h.image_eq]
  refine byte_layDown_of_outside fun w mem inside => ?_
  have upper := inside.2
  rcases List.mem_append.1 (imageWrites_perm.mem_iff.1 mem) with head | other
  · have bound := ((laid_headWrites h.length_table).bounds _ (List.mem_map_of_mem head)).2
    omega
  rcases List.mem_append.1 other with entry | data
  · have bound := ((laid_rootWrites h.allocated.eleven).bounds _ (List.mem_map_of_mem entry)).2
    omega
  · obtain ⟨b, known, there⟩ := List.mem_flatMap.1 data
    have bounds := (h.allocated.block_laid b known).bounds _ (List.mem_map_of_mem there)
    exact outside b known (Nat.le_trans bounds.1 inside.1) (Nat.lt_of_lt_of_le upper bounds.2) w
      there inside

/-- A byte of a block that none of its writes reaches is zero. -/
lemma zero_in_block {b : Extent × List Write} (mem : b ∈ blocks layout efi manifest model) {i : Nat}
    (above : offsetOf b.1.1 ≤ i) (below : i < offsetOf (b.1.1 + b.1.2))
    (outside : ∀ w ∈ b.2, ¬Within (place w) i) : image.byte i = 0 := by
  refine h.zero_of_block (Nat.le_trans (Nat.le_add_right _ _) above) fun c mem' from_c to_c => ?_
  by_cases same : b = c
  · exact same ▸ outside
  · rcases h.allocated.blocks_clear mem mem' same with before | behind
    · have := offsetOf_le before
      omega
    · have := offsetOf_le behind
      omega

/-- Behind the writes that are laid in a block there are zeros. -/
lemma zero_behind {b : Extent × List Write} (mem : b ∈ blocks layout efi manifest model) {stop : Nat}
    (laid : Laid (offsetOf b.1.1) (b.2.map place) stop) :
    ZeroRange image stop (offsetOf (b.1.1 + b.1.2)) := by
  have same : (blocks layout efi manifest model).map Prod.fst = _ := blocks_extents
  have known : b.1 ∈ extents layout efi.length manifest.length := same ▸ List.mem_map_of_mem mem
  have within : offsetOf (b.1.1 + b.1.2) ≤ offsetOf 65503 :=
    offsetOf_le (h.allocated.laid.bounds _ known).2
  have whole : offsetOf 65503 ≤ imageBytes := by decide
  intro i above below
  refine ⟨by rw [h.length_image]; omega, ?_⟩
  refine h.zero_in_block mem (Nat.le_trans laid.le above) below fun w there inside => ?_
  have upper := inside.2
  have ended := (laid.bounds _ (List.mem_map_of_mem there)).2
  omega

/-- Behind the entries of the root directory there are zeros. -/
lemma zero_root {i : Nat} (above : 262656 + (if root.isSome then 192 else 96) ≤ i)
    (below : i < 279040) : image.byte i = 0 := by
  rw [h.image_eq]
  refine byte_layDown_of_outside fun w mem inside => ?_
  have lower := inside.1
  have upper := inside.2
  have behind : 262752 ≤ i := by
    split_ifs at above <;> omega
  rcases List.mem_append.1 (imageWrites_perm.mem_iff.1 mem) with head | other
  · have bound := ((laid_headWrites h.length_table).bounds _ (List.mem_map_of_mem head)).2
    omega
  rcases List.mem_append.1 other with entry | data
  · have eleven := h.allocated.eleven
    cases root with
    | none =>
      rw [rootWrites, (h.allocated.alone rfl).1] at entry
      cases entry
    | some files =>
      rw [rootWrites] at entry
      rcases rows : layout.distribution with _ | ⟨license, _ | ⟨source, rest⟩⟩ <;>
        rw [rows] at entry eleven
      · cases entry
      · cases entry
      · simp only [List.mem_cons, List.not_mem_nil, or_false] at entry
        simp only [Option.isSome_some, if_true] at above
        simp only [place] at upper
        rcases entry with rfl | rfl | rfl
        · rw [length_entryBytes (eleven license List.mem_cons_self)] at upper
          omega
        · rw [length_entryBytes
            (eleven source (List.mem_cons_of_mem _ List.mem_cons_self))] at upper
          omega
        · rw [length_entryBytes (by decide)] at upper
          omega
  · have bound := (h.allocated.laid_blocks.bounds _ (List.mem_map_of_mem data)).1
    omega

end Built

end Zeros

section Accepts
variable {layout : Layout} {fat image : Buffer} {efi manifest model : List UInt8}
  {root : Option (String → Option (List UInt8))}

/-- The end of the reserved entries in the table that the builder makes. -/
lemma Built.reserved {layout : Layout} {fat made : Buffer}
    {efi manifest : List UInt8} {root : Option (String → Option (List UInt8))}
    (h : Built efi manifest model root layout fat made) :
    made.slice 512 8 = Image.reserved := by
  have word (cluster : Nat) (lt : cluster < 4) :
      made.slice (512 + cluster * 2) 2 = le16 (u16At reservedTable (cluster * 2)) := by
    rw [← h.table.low cluster lt, ← h.fatAt_eq (by omega), fatAt, le16_u16At]
  have split : made.slice 512 8 = made.slice (512 + 0 * 2) 2 ++ (made.slice (512 + 1 * 2) 2 ++
      (made.slice (512 + 2 * 2) 2 ++ made.slice (512 + 3 * 2) 2)) := rfl
  rw [split, word 0 (by decide), word 1 (by decide), word 2 (by decide), word 3 (by decide)]
  decide

namespace Built
variable (h : Built efi manifest model root layout fat image)
include h

/-- A payload that fills its block is a file with zeros behind it. -/
lemma fileAt {first : Nat} {payload : List UInt8}
    (block : ((first, clusterCount payload.length), [(offsetOf first, payload)]) ∈
      blocks layout efi manifest model)
    (extent : (first, clusterCount payload.length) ∈ fileExtents layout efi.length manifest.length)
    (pos : 0 < payload.length) : FileAt image first payload.length := by
  obtain ⟨le, stop, -⟩ := h.file_bounds extent rfl
  have behind : offsetOf (first + clusterCount payload.length) =
      offsetOf first + clusterCount payload.length * 8192 := offsetOf_add le
  refine ⟨pos, le, stop, fun cluster inside => ?_, ?_⟩
  · have small : cluster < 65536 := by
      unfold Within at inside
      omega
    rw [h.fatAt_eq small]
    exact h.table.chained _ extent cluster inside
  · rw [← behind]
    exact h.zero_behind block ⟨Nat.le_refl _, Nat.le_refl _⟩

/-- The EFI directories are in place. -/
lemma efiDirectories : EfiDirectories image := by
  have efi_dir (w : Write) (mem : w ∈ efiDirWrites) : image.slice w.1 w.2.length = w.2 :=
    h.slice_write (List.mem_append_right _ (List.mem_append_right _ (List.mem_append_left _ mem)))
  have boot_dir (w : Write) (mem : w ∈ bootDirWrites layout efi.length manifest.length) :
      image.slice w.1 w.2.length = w.2 :=
    h.slice_write (List.mem_append_right _ (List.mem_append_right _ (List.mem_append_right _
      (List.mem_append_left _ mem))))
  have entry {place first size : Nat} {name : List UInt8} {attributes : UInt8}
      (eleven : name.length = 11) (mem : (place, entryBytes name attributes first size) ∈
        bootDirWrites layout efi.length manifest.length) :
      image.slice place 32 = entryBytes name attributes first size := by
    have there := boot_dir _ mem
    rwa [length_entryBytes eleven] at there
  have efi_block : ((2, 1), efiDirWrites) ∈ blocks layout efi manifest model := by simp [blocks]
  have boot_block : ((3, 1), bootDirWrites layout efi.length manifest.length) ∈
      blocks layout efi manifest model := by simp [blocks]
  have first : offsetOf 2 = 279040 := rfl
  have second : offsetOf 3 = 287232 := rfl
  have third : offsetOf 4 = 295424 := rfl
  have efi_slack : ZeroRange image 279136 (offsetOf 3) :=
    h.zero_behind efi_block (first ▸ laid_efiDirWrites)
  have boot_slack : ZeroRange image 287360 (offsetOf 4) :=
    h.zero_behind boot_block (second ▸ laid_bootDirWrites)
  refine ⟨efi_dir, second ▸ efi_slack, ?_, ?_, ?_, ?_, third ▸ boot_slack⟩
  · exact entry (by decide) (by simp [bootDirWrites])
  · exact entry (by decide) (by simp [bootDirWrites])
  · rw [h.efi_facts.1, h.efi_facts.2]
    exact entry (by decide) (by simp [bootDirWrites])
  · rw [h.manifest_facts.1, h.manifest_facts.2]
    exact entry (by decide) (by simp [bootDirWrites])

/-- A distribution has rows. -/
lemma nonempty {files : String → Option (List UInt8)} (spread : root = some files) :
    layout.distribution ≠ [] := by
  intro nil
  have eight := (h.allocated.distributed files spread).length
  rw [nil] at eight
  cases eight

/-- The rows that the image holds are those of the layout. -/
lemma imageRows_eq {files : String → Option (List UInt8)} (spread : root = some files) :
    imageRows image = layout.distribution := by
  have named := (h.allocated.distributed files spread).named
  apply List.ext_getElem?
  intro index
  have pair := congrArg (fun rows => rows[index]?) named
  simp only [List.getElem?_map] at pair
  rw [imageRows_getElem?]
  cases at_index : layout.distribution[index]? with
  | none =>
    cases known : distributionNames[index]? with
    | none => rfl
    | some name =>
      rw [at_index, known] at pair
      cases pair
  | some row =>
    cases known : distributionNames[index]? with
    | none =>
      rw [at_index, known] at pair
      cases pair
    | some name =>
      rw [at_index, known] at pair
      obtain ⟨short, -⟩ := Prod.mk.inj (Option.some.inj pair)
      obtain ⟨first, size⟩ := h.row_facts at_index
      have mem := List.mem_of_getElem? at_index
      have payload : image.slice (offsetOf row.first) row.payload.length = row.payload :=
        h.slice_write (mem_payloadWrites mem)
      have length := (h.allocated.sizes row mem).1
      rw [Option.map_some, rowAt, first, size, payload, ← short, ← length]

/-- The distribution is in place. -/
lemma distributionAt {files : String → Option (List UInt8)} (spread : root = some files) :
    DistributionAt image (layout.modelFirst + modelClusters) := by
  have nonempty := h.nonempty spread
  have back := h.allocated.distributed files spread
  have rows := h.imageRows_eq spread
  have first := h.licenses nonempty
  have le := h.allocated.two_le.2 nonempty
  have block : ((layout.licensesFirst, 1), directoryWrites layout) ∈
      blocks layout efi manifest model := by simp [blocks, nonempty]
  have directory (w : Write) (mem : w ∈ directoryWrites layout) :
      image.slice w.1 w.2.length = w.2 := by
    refine h.slice_write (List.mem_append_right _ (List.mem_append_right _
      (List.mem_append_right _ (List.mem_append_right _ (List.mem_append_right _ ?_)))))
    rw [distributionWrites, if_neg nonempty]
    exact List.mem_append_left _ mem
  have entry := h.slice_write (h.mem_licenses_root nonempty)
  rw [length_entryBytes (by decide)] at entry
  obtain ⟨name, attributes⟩ := entry_named (by decide) entry
  have next : offsetOf (layout.licensesFirst + 1) = offsetOf layout.licensesFirst + 8192 :=
    offsetOf_add le
  refine ⟨name, attributes, rows ▸ back.placed, ?_, ?_, ?_, ?_, ?_, ?_⟩
  · rw [rows, first]
    exact back.licenses
  · have dot := directory _ (List.mem_append_left _ List.mem_cons_self)
    rw [length_entryBytes (by decide)] at dot
    rw [first]
    exact dot
  · have dotdot := directory _ (List.mem_append_left _ (List.mem_cons_of_mem _ List.mem_cons_self))
    rw [length_entryBytes (by decide)] at dotdot
    rw [first]
    exact dotdot
  · rw [first, ← next]
    exact h.zero_behind block (laid_directoryWrites back.eleven back.length)
  · intro index row at_index
    rw [rows] at at_index
    have there := h.slice_write (h.row_entry at_index)
    rwa [length_entryBytes (h.allocated.eleven row (List.mem_of_getElem? at_index))] at there
  · intro row mem
    rw [rows] at mem
    obtain ⟨size, pos⟩ := h.allocated.sizes row mem
    have extent : row.extent ∈ fileExtents layout efi.length manifest.length :=
      List.mem_append_right _ (List.mem_map_of_mem mem)
    have block : rowBlock row ∈ blocks layout efi manifest model := by
      have split : row ∈ layout.distribution.take 2 ++ layout.distribution.drop 2 := by
        rwa [List.take_append_drop]
      rcases List.mem_append.1 split with front | later
      · exact List.mem_append_left _ (List.mem_append_left _
          (List.mem_append_right _ (List.mem_map_of_mem front)))
      · exact List.mem_append_right _ (List.mem_map_of_mem later)
    unfold rowBlock at block
    unfold DistributionRow.extent at extent block
    rw [size] at extent block pos ⊢
    exact h.fileAt block extent pos

/-- A cluster of an extent is in use. -/
lemma used_of_within {e : Extent} (mem : e ∈ extents layout efi.length manifest.length) {c : Nat}
    (inside : Within e c) : c ∈ usedClusters image root.isSome := by
  obtain ⟨efi_first, efi_size⟩ := h.efi_facts
  obtain ⟨manifest_first, manifest_size⟩ := h.manifest_facts
  obtain ⟨model_first, -⟩ := h.model_facts
  have range := List.mem_range'_1.2 inside
  simp only [usedClusters, List.mem_append, efi_first, efi_size, manifest_first, manifest_size,
    model_first]
  have spread (files : String → Option (List UInt8)) (some : root = some files)
      (later : c = layout.licensesFirst ∨
        c ∈ layout.distribution.flatMap DistributionRow.clusters) :
      c ∈ if root.isSome then
        firstAt image 262816 :: (imageRows image).flatMap DistributionRow.clusters else [] := by
    rw [h.imageRows_eq some, h.licenses (h.nonempty some), some]
    exact List.mem_cons.2 later
  have row (row : DistributionRow) (known : row ∈ layout.distribution) (inside : c ∈ row.clusters) :
      c ∈ if root.isSome then
        firstAt image 262816 :: (imageRows image).flatMap DistributionRow.clusters else [] := by
    cases some : root with
    | none =>
      rw [(h.allocated.alone some).1] at known
      cases known
    | some files =>
      rw [← some]
      exact spread files some (.inr (List.mem_flatMap.2 ⟨row, known, inside⟩))
  simp only [extents, List.mem_append, List.mem_map] at mem
  rcases mem with ((mem | ⟨one, known, rfl⟩) | mem) | ⟨one, known, rfl⟩
  · simp only [List.mem_cons, List.not_mem_nil, or_false] at mem
    rcases mem with rfl | rfl | rfl | rfl | rfl
    · unfold Within at inside
      exact .inl (.inl (.inl (.inl (by simp; omega))))
    · unfold Within at inside
      exact .inl (.inl (.inl (.inl (by simp; omega))))
    · exact .inl (.inl (.inl (.inr range)))
    · exact .inl (.inl (.inr range))
    · exact .inl (.inr range)
  · exact .inr (row one (List.take_subset 2 _ known) range)
  · split at mem
    case isTrue _ => cases mem
    case isFalse nonempty =>
      rw [List.mem_singleton.1 mem] at inside
      cases some : root with
      | none => exact absurd (h.allocated.alone some).1 nonempty
      | some files =>
        unfold Within at inside
        rw [← some]
        exact .inr (spread files some (.inl (by simp only at inside; omega)))
  · exact .inr (row one (List.drop_subset 2 _ known) range)

/-- What the builder makes is as the inspector wants it. -/
lemma accepted : Accepted image root.isSome := by
  obtain ⟨efi_first, efi_size⟩ := h.efi_facts
  obtain ⟨manifest_first, manifest_size⟩ := h.manifest_facts
  obtain ⟨model_first, model_size⟩ := h.model_facts
  have allocated := h.allocated
  have model_count : clusterCount model.length = modelClusters := by
    rw [allocated.model_size]
    rfl
  have head (w : Write) (mem : w ∈ headWrites layout (fat.slice 0 fat.length) model.length) :
      image.slice w.1 w.2.length = w.2 := h.slice_write (List.mem_append_left _ mem)
  have entry {place first size : Nat} {name : List UInt8} {attributes : UInt8}
      (eleven : name.length = 11) (mem : (place, entryBytes name attributes first size) ∈
        headWrites layout (fat.slice 0 fat.length) model.length) :
      image.slice place 32 = entryBytes name attributes first size := by
    have there := head _ mem
    rwa [length_entryBytes eleven] at there
  have model_entry : image.slice 262720 32 =
      entryBytes (ascii "MODEL   PBT") 0x20 layout.modelFirst model.length :=
    entry (by decide) (by simp [headWrites])
  obtain ⟨name, attributes⟩ := entry_named (by decide) model_entry
  have used {e : Extent} (mem : e ∈ extents layout efi.length manifest.length) {c : Nat}
      (inside : Within e c) : c ∈ usedClusters image root.isSome := h.used_of_within mem inside
  refine ⟨⟨h.length_image, ?_, ?_, ?_, entry (by decide) (by simp [headWrites]),
    entry (by decide) (by simp [headWrites]), name, attributes, h.efiDirectories, ?_, ?_, ?_, ?_,
    ?_, ?_, ?_⟩, fun i above below => ⟨?_, h.zero_root above below⟩, ?_, ?_, ?_⟩
  · have boot := head (0, Image.boot) (by simp [headWrites])
    rwa [length_boot] at boot
  · refine List.map_congr_left fun i mem => ?_
    have both := h.byte_table (List.mem_range.1 mem)
    rw [both.1, both.2]
  · rw [take_slice _ (by decide)]
    exact h.reserved
  · rw [efi_first, allocated.efi_first]
  · rw [manifest_first, allocated.manifest_first, efi_size]
  · rw [model_first, allocated.model_first, manifest_first, manifest_size]
  · rw [model_size, allocated.model_size]
  · rw [efi_first, efi_size]
    exact h.fileAt (by simp [blocks]) (by simp [fileExtents]) allocated.efi_pos
  · rw [manifest_first, manifest_size]
    exact h.fileAt (by simp [blocks]) (by simp [fileExtents]) allocated.manifest_pos
  · rw [model_first, ← allocated.model_size]
    exact h.fileAt (by simp [blocks, model_count]) (by simp [fileExtents, model_count])
      (by rw [allocated.model_size]; decide)
  · rw [h.length_image, imageBytes]
    omega
  · intro spread
    rw [model_first]
    obtain ⟨files, some⟩ := Option.isSome_iff_exists.1 spread
    exact h.distributionAt some
  -- a cluster that is not in use is in no extent
  · intro c above below unused
    have outside : ∀ e ∈ fileExtents layout efi.length manifest.length, ¬Within e c :=
      fun e mem inside => unused (used (extents_perm.mem_iff.2 (List.mem_append_right _ mem)) inside)
    rw [h.fatAt_eq below, h.table.other c above outside]
    refine if_neg fun both => unused (used (e := (layout.licensesFirst, 1)) ?_ ?_)
    · refine extents_perm.mem_iff.2 (List.mem_append_left _ ?_)
      simp [directoryExtents, both.1]
    · exact ⟨Nat.le_of_eq both.2.symm, by simp only; omega⟩
  · intro i above below unused
    refine h.zero_of_block above fun b mem from_b to_b => ?_
    have same : (blocks layout efi manifest model).map Prod.fst = _ := blocks_extents
    have known : b.1 ∈ extents layout efi.length manifest.length := same ▸ List.mem_map_of_mem mem
    have le : 2 ≤ b.1.1 := (allocated.laid.bounds _ known).1
    have stop : offsetOf (b.1.1 + b.1.2) = offsetOf b.1.1 + b.1.2 * 8192 := offsetOf_add le
    have place : offsetOf (b.1.1 + (i - offsetOf b.1.1) / 8192) =
        offsetOf b.1.1 + (i - offsetOf b.1.1) / 8192 * 8192 := offsetOf_add le
    refine absurd ?_ (unused (b.1.1 + (i - offsetOf b.1.1) / 8192) (used known ⟨?_, ?_⟩))
    · omega
    · omega
    · omega

end Built

end Accepts

section Unseen
variable {image : Buffer} {model : List UInt8} {external : External} {there : Nat} {value : UInt8}

/-- Bytes of the root directory that the checks up to the model pass over: the stamp of the model's
entry and everything behind that entry. -/
def Unseen (there : Nat) : Prop :=
  262732 ≤ there ∧ there < 262746 ∨ 262752 ≤ there ∧ there < 279040

/-- A byte put elsewhere leaves a slice. -/
lemma slice_put_of_clear {value : UInt8} {there offset count : Nat}
    (clear : offset + count ≤ there ∨ there + 1 ≤ offset) :
    (image.put there [value]).slice offset count = image.slice offset count :=
  slice_congr fun i _ _ => if_neg (by rw [List.length_singleton]; omega)

/-- What the files up to the model are read from is the same when a byte that is passed over is put
into the image. -/
structure SameSeen (image other : Buffer) : Prop where
  length : other.length = image.length
  slice : ∀ offset count, offset + count ≤ 262732 ∨ 279040 ≤ offset →
    other.slice offset count = image.slice offset count
  word : ∀ offset, offset + 2 ≤ 262732 ∨ 262746 ≤ offset ∧ offset + 2 ≤ 262752 ∨
    279040 ≤ offset → u16At other offset = u16At image offset
  byte : ∀ i, i < 262732 ∨ 279040 ≤ i → other.byte i = image.byte i

/-- A byte that is passed over. -/
lemma sameSeen_put (unseen : Unseen there) (length : image.length = imageBytes) :
    SameSeen image (image.put there [value]) where
  length := by
    unfold Unseen at unseen
    simp only [Buffer.put, List.isEmpty_cons, Bool.false_eq_true, if_false, length,
      List.length_singleton, imageBytes]
    omega
  slice offset count clear := by
    unfold Unseen at unseen
    exact slice_put_of_clear (by omega)
  word offset clear := by
    unfold Unseen at unseen
    exact u16At_put_of_apart (by rw [List.length_singleton]; omega)
  byte i clear := by
    unfold Unseen at unseen
    exact if_neg (by rw [List.length_singleton]; omega)

namespace SameSeen
variable {other : Buffer} (h : SameSeen image other)
include h

/-- The first clusters of the files are the same. -/
lemma firstAt_eq {place : Nat} (clear : place = 262720 ∨ 279040 ≤ place) :
    firstAt other place = firstAt image place := h.word _ (by omega)

/-- The sizes of the files are the same. -/
lemma sizeAt_eq {place : Nat} (clear : place = 262720 ∨ 279040 ≤ place) :
    sizeAt other place = sizeAt image place := by
  rw [sizeAt, sizeAt, h.word _ (by omega), h.word _ (by omega)]

/-- The tables are the same. -/
lemma fatAt_eq {cluster : Nat} (small : cluster < 65536) :
    fatAt other cluster = fatAt image cluster := h.word _ (by omega)

/-- Zeros of the data area are still there. -/
lemma zeroRange {start stop : Nat} (above : 279040 ≤ start) (zero : ZeroRange image start stop) :
    ZeroRange other start stop := by
  intro i from_i to_i
  obtain ⟨inside, byte⟩ := zero i from_i to_i
  exact ⟨h.length ▸ inside, (h.byte i (.inr (by omega))).trans byte⟩

/-- A file is the same. -/
lemma fileAt {first size : Nat} (file : FileAt image first size) : FileAt other first size := by
  have stop := file.stop
  refine ⟨file.pos, file.le, stop, fun cluster inside => ?_, h.zeroRange ?_ file.slack⟩
  · rw [h.fatAt_eq (by unfold Within at inside; omega)]
    exact file.linked cluster inside
  · simp only [offsetOf]
    omega

/-- The EFI directories are the same. -/
lemma efiDirectories (directories : EfiDirectories image) : EfiDirectories other where
  entries w mem := by
    have above : 279040 ≤ w.1 := by
      simp only [efiDirWrites, List.mem_cons, List.not_mem_nil, or_false] at mem
      rcases mem with rfl | rfl | rfl <;> decide
    rw [h.slice _ _ (.inr above)]
    exact directories.entries w mem
  slack := h.zeroRange (by decide) directories.slack
  boot_dot := (h.slice _ _ (.inr (by decide))).trans directories.boot_dot
  boot_dotdot := (h.slice _ _ (.inr (by decide))).trans directories.boot_dotdot
  efi := by
    rw [h.slice _ _ (.inr (by decide)), h.firstAt_eq (.inr (by decide)),
      h.sizeAt_eq (.inr (by decide))]
    exact directories.efi
  manifest := by
    rw [h.slice _ _ (.inr (by decide)), h.firstAt_eq (.inr (by decide)),
      h.sizeAt_eq (.inr (by decide))]
    exact directories.manifest
  boot_slack := h.zeroRange (by decide) directories.boot_slack

/-- The files up to the model are in place as before. -/
lemma inPlace (files : FilesInPlace image) : FilesInPlace other := by
  have first {place : Nat} (clear : place = 262720 ∨ 279040 ≤ place) := h.firstAt_eq clear
  have size {place : Nat} (clear : place = 262720 ∨ 279040 ≤ place) := h.sizeAt_eq clear
  have table : tableOf other = tableOf image := h.slice _ _ (.inl (by decide))
  constructor
  case length => exact h.length.trans files.length
  case boot => exact (h.slice _ _ (.inl (by decide))).trans files.boot
  case copy =>
    rw [table, h.slice _ _ (.inl (by decide))]
    exact files.copy
  case reserved =>
    rw [table]
    exact files.reserved
  case volume => exact (h.slice _ _ (.inl (by decide))).trans files.volume
  case efi_root => exact (h.slice _ _ (.inl (by decide))).trans files.efi_root
  case model_name =>
    have name := files.model_name
    rw [take_slice _ (by decide)] at name ⊢
    exact (h.slice _ _ (.inl (by decide))).trans name
  case model_attributes => exact (h.byte _ (.inl (by decide))).trans files.model_attributes
  case directories => exact h.efiDirectories files.directories
  case efi_first => exact (first (.inr (by decide))).trans files.efi_first
  case manifest_first =>
    rw [first (.inr (by decide)), size (.inr (by decide))]
    exact files.manifest_first
  case model_first =>
    rw [first (.inl rfl), first (.inr (by decide)), size (.inr (by decide))]
    exact files.model_first
  case model_size => exact (size (.inl rfl)).trans files.model_size
  case efi =>
    rw [first (.inr (by decide)), size (.inr (by decide))]
    exact h.fileAt files.efi
  case manifest =>
    rw [first (.inr (by decide)), size (.inr (by decide))]
    exact h.fileAt files.manifest
  case model =>
    rw [first (.inl rfl)]
    exact h.fileAt files.model

/-- The same files are embedded. -/
lemma embeds (e : Embeds image external) : Embeds other external := by
  have same {place : Nat} (clear : place = 262720 ∨ 279040 ≤ place) :
      embeddedAt other place = embeddedAt image place := by
    rw [embeddedAt, h.firstAt_eq clear, h.sizeAt_eq clear]
    exact h.slice _ _ (.inr (Nat.le_add_right _ _))
  exact { e with
    efi := (same (.inr (by decide))).trans e.efi
    manifest := (same (.inr (by decide))).trans e.manifest
    model := (same (.inl rfl)).trans e.model }

/-- Without a distribution an accepted image is accepted again, if the rest of the root directory is
zero. -/
lemma accepted (accepted : Accepted image false)
    (slack : ZeroRange other 262752 279040) : Accepted other false := by
  have files := h.inPlace accepted.toFilesInPlace
  have efi_first : firstAt other 287296 = _ := h.firstAt_eq (.inr (by decide))
  have efi_size : sizeAt other 287296 = _ := h.sizeAt_eq (.inr (by decide))
  have manifest_first : firstAt other 287328 = _ := h.firstAt_eq (.inr (by decide))
  have manifest_size : sizeAt other 287328 = _ := h.sizeAt_eq (.inr (by decide))
  have used : usedClusters other false = usedClusters image false := by
    simp only [usedClusters, h.firstAt_eq (.inl rfl), efi_first, efi_size, manifest_first,
      manifest_size, Bool.false_eq_true, if_false]
  refine ⟨files, slack, fun spread => absurd spread Bool.false_ne_true,
    fun c above below unused => ?_, fun i above below outside => ?_⟩
  · rw [h.fatAt_eq below]
    exact accepted.orphans c above below (used ▸ unused)
  · rw [h.byte i (.inr above)]
    exact accepted.gaps i above below (used ▸ outside)

end SameSeen

end Unseen

section Passes
variable {image made : Buffer} {model : List UInt8} {external : External}

/-- The image that the builder makes of the external files holds them. -/
lemma Built.embeds {root : Option (String → Option (List UInt8))} {layout : Layout} {fat : Buffer}
    (h : Built external.efi external.manifest external.model root layout fat image)
    (order : external.InOrder) : Embeds image external := by
  have file {first : Nat} {payload : List UInt8}
      (mem : (offsetOf first, payload) ∈
        fileWrites layout external.efi external.manifest external.model) :
      image.slice (offsetOf first) payload.length = payload :=
    h.slice_write (List.mem_append_right _ (List.mem_append_right _ (List.mem_append_right _
      (List.mem_append_right _ (List.mem_append_left _ mem)))))
  refine { order with efi := ?_, manifest := ?_, model := ?_ }
  · rw [embeddedAt, h.efi_facts.1, h.efi_facts.2]
    exact file (by simp [fileWrites])
  · rw [embeddedAt, h.manifest_facts.1, h.manifest_facts.2]
    exact file (by simp [fileWrites])
  · rw [embeddedAt, h.model_facts.1, h.model_facts.2]
    exact file (by simp [fileWrites])

/-- The image that the builder makes of the external files passes every check. -/
lemma Built.inspectImage_ok {layout : Layout} {fat : Buffer}
    (h : Built external.efi external.manifest external.model external.distribution layout fat image)
    (order : external.InOrder) : inspectImage external image = (.ok (), image) := by
  refine h.accepted.inspectImage_ok (h.embeds order) fun files some => ?_
  have named := (h.allocated.distributed files some).named
  have second := congrArg (List.map Prod.snd) named
  rw [List.map_map, List.map_map] at second
  rw [h.imageRows_eq some]
  exact second.symm

/-- What the builder makes of the files that it is given, the inspector accepts when it compares the
image with these files. -/
theorem inspectImage_buildFatImage {start : Buffer} {u : Unit}
    (built : buildFatImage external.efi external.manifest external.model external.distribution
      start = (.ok u, image))
    (order : external.InOrder) : inspectImage external image = (.ok (), image) := by
  obtain ⟨layout, fat, _, h⟩ := buildFatImage_built built
  exact h.inspectImage_ok order

/-- The files the image is compared with; the manifest and the digests are in order. -/
def aloneExternal (model : List UInt8) : External where
  manifest := [1]
  efi := [2]
  model := model
  distribution := none
  manifestValid _ := true
  efiListed _ _ _ := true
  modelListed _ _ := true
  modelDigest _ := true

/-- The same with a distribution of files of one byte. -/
def spreadExternal (model : List UInt8) : External :=
  { aloneExternal model with distribution := some fun _ => some [3] }

/-- Small files are an image, alone and with a distribution. -/
lemma built_small (full : model.length = modelBytes) :
    (∃ made, buildFatImage [2] [1] model none (Buffer.zeros 0) = (.ok (), made)) ∧
      ∃ made, buildFatImage [2] [1] model (some fun _ => some [3]) (Buffer.zeros 0) =
        (.ok (), made) := by
  obtain ⟨alone, planned⟩ := allocate_none (Buffer.zeros 0) 1 1 (by decide) (by decide) (by decide)
  obtain ⟨spread, planned'⟩ := allocate_singleBytes (Buffer.zeros 0)
  rw [← full] at planned planned'
  exact ⟨buildFatImage_ok planned, buildFatImage_ok planned'⟩

/-- Small files make an image that passes, alone and with a distribution. -/
theorem inspectImage_buildFatImage_small :
    (∃ image, buildFatImage [2] [1] (List.replicate modelBytes 0) none (Buffer.zeros 0) =
        (.ok (), image) ∧
      inspectImage (aloneExternal (List.replicate modelBytes 0)) image = (.ok (), image)) ∧
      ∃ image, buildFatImage [2] [1] (List.replicate modelBytes 0) (some fun _ => some [3])
          (Buffer.zeros 0) = (.ok (), image) ∧
        inspectImage (spreadExternal (List.replicate modelBytes 0)) image = (.ok (), image) := by
  have full : (List.replicate modelBytes (0 : UInt8)).length = modelBytes := List.length_replicate
  generalize List.replicate modelBytes (0 : UInt8) = model at full
  obtain ⟨⟨made, built⟩, ⟨made', built'⟩⟩ := built_small full
  have alone : inspectImage (aloneExternal model) made = (.ok (), made) :=
    inspectImage_buildFatImage built ⟨rfl, rfl, rfl, rfl⟩
  have spread : inspectImage (spreadExternal model) made' = (.ok (), made') :=
    inspectImage_buildFatImage built' ⟨rfl, rfl, rfl, rfl⟩
  exact ⟨⟨made, built, alone⟩, ⟨made', built', spread⟩⟩

/-- The inspector accepts an image whatever the thirteenth byte of the model's entry is. -/
lemma accepted_stamped (full : model.length = modelBytes) (value : UInt8) :
    ∃ made : Buffer, inspectImage (aloneExternal model) (made.put 262732 [value]) =
      (.ok (), made.put 262732 [value]) := by
  obtain ⟨⟨made, run⟩, -⟩ := built_small full
  obtain ⟨layout, fat, _, built⟩ := buildFatImage_built run
  have same : SameSeen made (made.put 262732 [value]) :=
    sameSeen_put (.inl (by decide)) built.length_image
  have slack : ZeroRange (made.put 262732 [value]) 262752 279040 := by
    intro i above below
    have elsewhere : (made.put 262732 [value]).byte i = made.byte i :=
      if_neg (by rw [List.length_singleton]; omega)
    refine ⟨?_, elsewhere.trans (built.zero_root above below)⟩
    rw [same.length, built.length_image, imageBytes]
    omega
  have embeds : Embeds made (aloneExternal model) := built.embeds ⟨rfl, rfl, rfl, rfl⟩
  have accepted : Accepted (made.put 262732 [value]) (aloneExternal model).distribution.isSome :=
    same.accepted built.accepted slack
  have none : EmbedsDistribution (made.put 262732 [value]) (aloneExternal model) :=
    fun files some => absurd some.symm (Option.some_ne_none files)
  exact ⟨made, accepted.inspectImage_ok (same.embeds embeds) none⟩

end Passes

/-- There is an accepted image that the builder does not make: a byte behind the model's
attributes is not zero. -/
theorem accepted_not_rebuilt : ∃ external image,
    inspectImage external image = (.ok (), image) ∧ external.distribution = none ∧
      ¬Rebuilt image external.distribution.isSome := by
  have full : (List.replicate modelBytes (0 : UInt8)).length = modelBytes := List.length_replicate
  generalize List.replicate modelBytes (0 : UInt8) = model at full
  obtain ⟨made, accepted⟩ := accepted_stamped full 1
  refine ⟨aloneExternal model, _, accepted, rfl, fun rebuilt => ?_⟩
  have canonical := rebuilt.canonical (inspectImage_accepted accepted).2.length
  have byte : ((made.put 262732 [1]).slice 262732 14).getD 0 0 = stamp.getD 0 0 := by
    rw [canonical.model]
  rw [getD_slice (by decide)] at byte
  have one : (made.put 262732 [1]).byte (262732 + 0) = 1 := rfl
  rw [one] at byte
  exact absurd byte (by decide)

/-- Accepted images, alone and with a distribution. -/
theorem rebuilt_iff_canonical_small :
    (∃ external image, external.distribution = none ∧
      inspectImage external image = (.ok (), image) ∧
      (Rebuilt image external.distribution.isSome ↔
        Canonical image external.distribution.isSome)) ∧
    ∃ external image, external.distribution.isSome = true ∧
      inspectImage external image = (.ok (), image) ∧
      (Rebuilt image external.distribution.isSome ↔
        Canonical image external.distribution.isSome) := by
  have full : (List.replicate modelBytes (0 : UInt8)).length = modelBytes := List.length_replicate
  generalize List.replicate modelBytes (0 : UInt8) = model at full
  obtain ⟨⟨made, run⟩, ⟨made', run'⟩⟩ := built_small full
  obtain ⟨layout, fat, _, built⟩ := buildFatImage_built run
  obtain ⟨layout', fat', _, built'⟩ := buildFatImage_built run'
  have accepted : inspectImage (aloneExternal model) made = (.ok (), made) :=
    Built.inspectImage_ok built ⟨rfl, rfl, rfl, rfl⟩
  have accepted' : inspectImage (spreadExternal model) made' = (.ok (), made') :=
    Built.inspectImage_ok built' ⟨rfl, rfl, rfl, rfl⟩
  exact ⟨⟨_, made, rfl, accepted, rebuilt_iff_canonical accepted⟩,
    ⟨_, made', rfl, accepted', rebuilt_iff_canonical accepted'⟩⟩

end Promptboot.Image
