import Promptboot.Tools.InspectRows

/-!
# An accepted image

Everything that the image inspector's success says, in one place: the bytes that are fixed, the
files with their chains and entries, the distribution if there is one, and that nothing else is in
the tables or in the data area.

`usedClusters` are the clusters of an accepted image, `mem_ordered` says that putting them in order
loses none, and the headline `inspectImage_accepted` collects the facts of the stages.
-/

namespace Promptboot.Image
open Buffer

section Accepted
variable {p q image : Buffer} {external : External}

/-- The clusters that an accepted image uses. -/
def usedClusters (image : Buffer) (spread : Bool) : List Nat :=
  [2, 3] ++ clustersOf (firstAt image 287296) (sizeAt image 287296) ++
    clustersOf (firstAt image 287328) (sizeAt image 287328) ++
    clustersOf (firstAt image 262720) modelBytes ++
    if spread then firstAt image 262816 :: (imageRows image).flatMap DistributionRow.clusters
    else []

/-- What the checks of the tables, of the directories and of the files up to the model ask of an
image. -/
structure FilesInPlace (image : Buffer) : Prop where
  length : image.length = imageBytes
  boot : image.slice 0 512 = Image.boot
  copy : image.slice 131584 131072 = tableOf image
  reserved : (tableOf image).take 8 = Image.reserved
  volume : image.slice 262656 32 = entryBytes (ascii "PROMPTBOOT ") 0x08 0 0
  efi_root : image.slice 262688 32 = entryBytes (ascii "EFI        ") 0x10 2 0
  model_name : (image.slice 262720 32).take 11 = ascii "MODEL   PBT"
  model_attributes : image.byte 262731 = 0x20
  directories : EfiDirectories image
  efi_first : firstAt image 287296 = 4
  manifest_first : firstAt image 287328 = 4 + clusterCount (sizeAt image 287296)
  model_first : firstAt image 262720 =
    firstAt image 287328 + clusterCount (sizeAt image 287328)
  model_size : sizeAt image 262720 = modelBytes
  efi : FileAt image (firstAt image 287296) (sizeAt image 287296)
  manifest : FileAt image (firstAt image 287328) (sizeAt image 287328)
  model : FileAt image (firstAt image 262720) modelBytes

/-- What the inspector has seen of an image; `spread` says that a distribution was asked for. -/
structure Accepted (image : Buffer) (spread : Bool) : Prop extends FilesInPlace image where
  root_slack : ZeroRange image (262656 + if spread then 192 else 96) 279040
  distribution : spread = true → DistributionAt image (firstAt image 262720 + modelClusters)
  orphans : ∀ c, 4 ≤ c → c < 65536 → c ∉ usedClusters image spread → fatAt image c = 0
  gaps : ∀ i, 279040 ≤ i → i < imageBytes →
    (∀ c ∈ usedClusters image spread, ¬(offsetOf c ≤ i ∧ i < offsetOf c + 8192)) →
    image.byte i = 0

/-- What is ordered was allocated. -/
lemma mem_ordered {allocated : List Nat} {c : Nat} (h : c ∈ ordered allocated) : c ∈ allocated :=
  List.contains_iff_mem.1 (List.mem_filter.1 h).2

/-- An image that passes is as `Accepted` says. -/
lemma inspectImage_accepted {u : Unit} (h : inspectImage external p = (.ok u, q)) :
    q = p ∧ Accepted p external.distribution.isSome := by
  rw [inspectImage] at h
  rw [Fallible.bind_ok (Fallible.get_apply p)] at h
  obtain ⟨size, h2⟩ := require_bind_eq_ok h
  have length : p.length = imageBytes := of_decide_eq_true size
  obtain ⟨fat, r, checked, h3⟩ := Fallible.bind_eq_ok h2
  obtain ⟨rfl, fat_eq, boot, copy, reserved⟩ := checkTables_eq_ok checked
  rw [fat_eq] at h3
  obtain ⟨⟨modelRoot, distribution⟩, s, checked, h4⟩ := Fallible.bind_eq_ok h3
  obtain ⟨rfl, rfl, eight, volume, efi_root, name, attributes, slack⟩ := checkRoot_eq_ok checked
  simp only at h4
  obtain ⟨⟨efiEntry, manifestEntry⟩, r, checked, h5⟩ := Fallible.bind_eq_ok h4
  obtain ⟨rfl, rfl, rfl, directories⟩ := checkEfiDirectories_eq_ok checked
  simp only at h5
  obtain ⟨⟨efiChain, manifestChain⟩, s, checked, h6⟩ := Fallible.bind_eq_ok h5
  obtain ⟨rfl, rfl, rfl, efi_first, manifest_first, efi, manifest⟩ :=
    checkEfiFiles_eq_ok length checked
  simp only at h6
  obtain ⟨modelChain, r, checked, h7⟩ := Fallible.bind_eq_ok h6
  obtain ⟨rfl, rfl, model_size, model_first, model⟩ :=
    checkModel_eq_ok (clusterCount_pos manifest.pos) length checked
  obtain ⟨licenses, s, checked, h8⟩ := Fallible.bind_eq_ok h7
  -- without a distribution there is nothing between the model and the free clusters
  have spread : s = r ∧
      (external.distribution.isSome = true →
        DistributionAt r (firstAt r 262720 + modelClusters)) ∧
      licenses = if external.distribution.isSome then
        firstAt r 262816 :: (imageRows r).flatMap DistributionRow.clusters else [] := by
    cases some : external.distribution.isSome with
    | false =>
      rw [some] at eight
      rw [List.length_eq_zero_iff.1 eight, checkDistribution_nil] at checked
      cases checked
      exact ⟨rfl, nofun, rfl⟩
    | true =>
      rw [some] at eight
      obtain ⟨rfl, there, rfl⟩ :=
        checkDistribution_eq_ok (clusterCount_pos model.pos) length eight checked
      exact ⟨rfl, fun _ => there, rfl⟩
  obtain ⟨rfl, spread, rfl⟩ := spread
  obtain ⟨_, r, checked, h9⟩ := Fallible.bind_eq_ok h8
  obtain ⟨rfl, orphans⟩ := checkOrphans_eq_ok checked
  obtain ⟨cursor, s, checked, h10⟩ := Fallible.bind_eq_ok h9
  obtain ⟨rfl, gaps⟩ := checkGaps_eq_ok checked
  obtain ⟨_, trailing, rfl⟩ := requireZero_eq_ok h10
  refine ⟨rfl, ⟨length, boot, copy, reserved, volume, efi_root, name, attributes, directories,
    efi_first, manifest_first, model_first, model_size, efi, manifest, model⟩, slack, spread, ?_, ?_⟩
  -- what no chain has is free in the tables, and zero in the data area
  · exact fun c above below nowhere => orphans c above (by omega) nowhere
  · intro i above below nowhere
    by_cases early : i < cursor
    · exact gaps i above early fun c mem => nowhere c (mem_ordered mem)
    · exact (trailing i (by omega) below).2

end Accepted

end Promptboot.Image
