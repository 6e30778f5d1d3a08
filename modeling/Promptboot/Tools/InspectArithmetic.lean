import Promptboot.Tools.InspectMatches

/-!
# The image inspector's arithmetic

The first cluster of the licenses directory is computed from the sizes of the two files in the root
directory before their entries are checked. As long as their clusters fit behind the model, the
inspector does exact arithmetic. Otherwise a narrowing loses bits or a sum panics.

The helper `matches_inspectImage` is the exact side and `fault_inspectImage` the other; between them
`matches_checkFiles` and `Oversized.checkFiles` decide at the two files of the root directory. The
headlines are `exactArithmetic_iff` and the image of `inspectImage_panics`.
-/

namespace Promptboot.Image
open Buffer

section Inspection
variable {p q : Buffer} {external : External}

/-- The checks up to the model, as the inspector makes them. -/
def checkFiles (external : External) :
    Make (List UInt8 × List (List UInt8) × List Nat × List Nat) := do
  let image ← .get
  require (image.length = imageBytes) s!"image bytes {image.length} != {imageBytes}"
  let fat ← checkTables
  let (modelRoot, distribution) ← checkRoot external
  let (efiEntry, manifestEntry) ← checkEfiDirectories
  let (efiChain, manifestChain) ← checkEfiFiles external fat efiEntry manifestEntry
  let modelChain ← checkModel external fat modelRoot manifestChain
  pure (fat, distribution, [2, 3] ++ efiChain ++ manifestChain, modelChain)

/-- The inspection is the checks of the files and what follows. -/
lemma inspectImage_eq (external : External) : inspectImage external = (do
    let (fat, distribution, before, modelChain) ← checkFiles external
    let licenses ← checkDistribution fat modelChain distribution
    let allocated := before ++ modelChain ++ licenses
    checkOrphans fat allocated (2 ^ 16 - 4) 4
    let cursor ← checkGaps (ordered allocated) (dataStart * sector)
    requireZero cursor imageBytes "trailing unallocated data") := by
  simp only [inspectImage, checkFiles, Fallible.bind_assoc, Fallible.pure_bind]

/-- The checks of the files never come near the word size. -/
lemma matches_checkFiles : Matches (Exact.checkFiles external) (checkFiles external) p := by
  refine .bind ⟨rfl, nofun⟩ fun image q got => ?_
  cases got
  refine .require_bind fun length => ?_
  have length := of_decide_eq_true length
  refine .bind safe_checkTables fun fat q tables => ?_
  obtain ⟨rfl, fat_eq, -⟩ := checkTables_eq_ok tables
  rw [fat_eq]
  refine .bind safe_checkRoot fun ⟨_, _⟩ r root => ?_
  obtain ⟨rfl, rfl, -⟩ := checkRoot_eq_ok root
  refine .bind safe_checkEfiDirectories fun ⟨_, _⟩ s directories => ?_
  obtain ⟨rfl, rfl, rfl, -⟩ := checkEfiDirectories_eq_ok directories
  refine .bind matches_checkEfiFiles fun ⟨_, _⟩ t files => ?_
  obtain ⟨rfl, -, rfl, -, -, -, manifest⟩ := checkEfiFiles_eq_ok length files
  have stop := manifest.stop
  exact .bind (matches_checkModel (clusterCount_pos manifest.pos) (by omega)) fun _ _ _ => .pure

/-- What is known when the checks up to the model pass. -/
lemma checkFiles_eq_ok {fat : List UInt8} {distribution : List (List UInt8)}
    {before modelChain : List Nat}
    (h : checkFiles external p = (.ok (fat, distribution, before, modelChain), q)) :
    q = p ∧ p.length = imageBytes ∧ fat = tableOf p ∧
      distribution.length = (if external.distribution.isSome then 8 else 0) ∧
      modelChain = List.range' (firstAt p 262720) modelClusters ∧
      firstAt p 262720 + modelClusters ≤ 65503 := by
  obtain ⟨_, r, got, h1⟩ := Fallible.bind_eq_ok h
  cases got
  obtain ⟨length, h2⟩ := require_bind_eq_ok h1
  have length := of_decide_eq_true length
  obtain ⟨table, r, tables, h3⟩ := Fallible.bind_eq_ok h2
  obtain ⟨rfl, fat_eq, -⟩ := checkTables_eq_ok tables
  rw [fat_eq] at h3
  obtain ⟨⟨_, _⟩, r, root, h4⟩ := Fallible.bind_eq_ok h3
  obtain ⟨rfl, rfl, eight, -⟩ := checkRoot_eq_ok root
  obtain ⟨⟨_, _⟩, r, directories, h5⟩ := Fallible.bind_eq_ok h4
  obtain ⟨rfl, rfl, rfl, -⟩ := checkEfiDirectories_eq_ok directories
  obtain ⟨⟨_, _⟩, r, files, h6⟩ := Fallible.bind_eq_ok h5
  obtain ⟨rfl, -, rfl, -, -, -, manifest⟩ := checkEfiFiles_eq_ok length files
  obtain ⟨_, r, model, h7⟩ := Fallible.bind_eq_ok h6
  obtain ⟨rfl, rfl, -, -, file⟩ := checkModel_eq_ok (clusterCount_pos manifest.pos) length model
  obtain ⟨values, state⟩ := Prod.mk.inj h7
  obtain ⟨table_eq, values⟩ := Prod.mk.inj (Except.ok.inj values)
  obtain ⟨rfl, lists⟩ := Prod.mk.inj values
  have model_eq : clustersOf (firstAt r 262720) modelBytes = modelChain :=
    congrArg Prod.snd lists
  have count : clusterCount modelBytes = modelClusters := by decide
  refine ⟨state.symm, length, table_eq.symm, eight, ?_, count ▸ file.stop⟩
  rw [← model_eq, clustersOf, count]

/-- The checks up to the model pass, there is a distribution, its first file is not empty, and the
clusters of its first two files, whose sizes are not checked yet, do not fit behind the model. -/
def Overlarge (external : External) (image : Buffer) : Prop :=
  (∃ r, (checkFiles external image).1 = .ok r) ∧ external.distribution.isSome ∧
    ¬FitsBehind (firstAt image 262720 + modelClusters) (sizeAt image 262752)
      (sizeAt image 262784)

/-- The inspector computes every number exactly: no sum and no narrowing is out of range. -/
def ExactArithmetic (external : External) (image : Buffer) : Prop :=
  (Exact.inspectImage external image).1 ≠ .error .fault ∧
    inspectImage external image = Exact.inspectImage external image

/-- Unless the sizes are too large, the inspection is the exact one. -/
lemma matches_inspectImage (h : ¬Overlarge external p) :
    Matches (Exact.inspectImage external) (inspectImage external) p := by
  rw [inspectImage_eq, Exact.inspectImage]
  refine .bind matches_checkFiles fun ⟨fat, distribution, before, modelChain⟩ q files => ?_
  have passed := files
  obtain ⟨rfl, length, fat_eq, eight, model, stop⟩ := checkFiles_eq_ok files
  simp only [fat_eq, model]
  have licenses : Matches
      (Exact.checkDistribution (tableOf q) (List.range' (firstAt q 262720) modelClusters)
        distribution)
      (checkDistribution (tableOf q) (List.range' (firstAt q 262720) modelClusters)
        distribution) q := by
    rcases distribution with _ | ⟨licensePayload, _ | ⟨sourcePayload, payloads⟩⟩
    · exact .pure
    · exact .pure
    · have present : external.distribution.isSome := by
        by_contra none
        rw [if_neg none] at eight
        cases eight
      refine matches_checkDistributionFiles length (by decide) stop (by decide) ?_
      by_contra large
      exact h ⟨⟨_, congrArg Prod.fst passed⟩, present, large⟩
  refine .bind licenses fun chains r run => ?_
  have same : r = q := by
    rcases distribution with _ | ⟨licensePayload, _ | ⟨sourcePayload, payloads⟩⟩
    · cases run
      rfl
    · cases run
      rfl
    · refine (checkDistribution_eq_ok (by decide) length ?_ run).1
      split at eight
      · exact eight
      · cases eight
  subst same
  refine .bind (matches_checkOrphans (by decide)) fun _ s orphans => ?_
  obtain ⟨rfl, -⟩ := checkOrphans_eq_ok orphans
  refine .bind (matches_checkGaps fun cluster mem => ?_) fun _ _ _ => safe_requireZero
  exact List.mem_range.1 (List.mem_filter.1 mem).1

/-- A step that panics stops what is behind it. -/
lemma fault_bind {α β : Type} {c : Make α} {f : α → Make β} (h : (c p).1 = .error .fault) :
    ((c >>= f) p).1 = .error .fault := by
  rw [Fallible.bind_error (t := (c p).2) (Prod.ext h rfl)]

/-- A number that is too large faults. -/
lemma fault_fit {bits value : Nat} (large : 2 ^ bits ≤ value) :
    (Exact.fit bits value p).1 = .error .fault := by
  rw [Exact.fit, if_neg (Nat.not_lt.2 large)]
  rfl

/-- A sum that is too large faults. -/
lemma fault_add16 {a b : Nat} (large : 2 ^ 16 ≤ a + b) : (add16 a b p).1 = .error .fault := by
  rw [add16, if_neg (Nat.not_lt.2 large)]
  rfl

/-- A number that fits is passed on. -/
lemma fit_ok {bits value : Nat} (lt : value < 2 ^ bits) :
    Exact.fit bits value p = (.ok value, p) := by
  rw [Exact.fit, if_pos lt]
  rfl

/-- Sizes that do not fit behind the model fault. -/
lemma fault_checkLicenses {after : Nat} {licenseRoot sourceRoot : DirEntry}
    (length : p.length = imageBytes) (license : licenseRoot.size < 2 ^ 32)
    (source : sourceRoot.size < 2 ^ 32)
    (large : ¬FitsBehind after licenseRoot.size sourceRoot.size) :
    (Exact.checkLicenses after licenseRoot sourceRoot p).1 = .error .fault := by
  obtain ⟨some, large⟩ := Classical.not_imp.1 large
  rw [Exact.checkLicenses, Fallible.bind_ok (parseEntry_ok (by rw [length]; decide)),
    Fallible.bind_ok (clusters_ok (Nat.pos_of_ne_zero some) license)]
  by_cases wide : 2 ^ 16 ≤ clusterCount licenseRoot.size
  · exact fault_bind (fault_fit wide)
  rw [Fallible.bind_ok (fit_ok (Nat.not_le.1 wide))]
  by_cases far : 2 ^ 16 ≤ after + clusterCount licenseRoot.size
  · exact fault_bind (fault_add16 far)
  rw [Fallible.bind_ok (add16_ok (Nat.not_le.1 far))]
  have more : 0 < sourceRoot.size := by
    by_contra empty
    rw [Nat.eq_zero_of_not_pos empty, show clusterCount 0 = 0 from rfl] at large
    omega
  rw [Fallible.bind_ok (clusters_ok more source)]
  by_cases wide : 2 ^ 16 ≤ clusterCount sourceRoot.size
  · exact fault_bind (fault_fit wide)
  rw [Fallible.bind_ok (fit_ok (Nat.not_le.1 wide))]
  exact fault_bind (fault_add16 (by omega))

/-- On sizes that are too large the exact inspection faults. -/
lemma fault_inspectImage (h : Overlarge external p) :
    (Exact.inspectImage external p).1 = .error .fault := by
  obtain ⟨⟨⟨fat, distribution, before, modelChain⟩, passed⟩, present, large⟩ := h
  have files : checkFiles external p =
      (.ok (fat, distribution, before, modelChain), (checkFiles external p).2) :=
    Prod.ext passed rfl
  have exact_files := matches_checkFiles.1.trans files
  obtain ⟨same, length, fat_eq, eight, model, stop⟩ := checkFiles_eq_ok files
  rw [same, fat_eq, model] at exact_files
  rw [Exact.inspectImage, Fallible.bind_ok exact_files]
  refine fault_bind ?_
  rw [if_pos present] at eight
  rcases distribution with _ | ⟨licensePayload, _ | ⟨sourcePayload, payloads⟩⟩
  · cases eight
  · cases eight
  have after : afterChain (List.range' (firstAt p 262720) modelClusters) p =
      (.ok (firstAt p 262720 + modelClusters), p) :=
    afterChain_ok (by decide) (by simp only [modelClusters] at *; omega)
  have parse {offset : Nat} (inside : offset + 32 ≤ imageBytes) :
      parseEntry offset p = (.ok (entryAt p offset), p) :=
    parseEntry_ok (by rw [length]; exact inside)
  simp only [Exact.checkDistribution, distributionNames]
  rw [Exact.checkDistributionFiles, Fallible.bind_ok (parse (by decide)),
    Fallible.bind_ok (parse (by decide)), Fallible.bind_ok after]
  exact fault_bind (fault_checkLicenses length (sizeAt_lt p _) (sizeAt_lt p _) large)

/-- The inspector's arithmetic is exact but for images whose first two files of the distribution
are too large. -/
theorem exactArithmetic_iff (external : External) (image : Buffer) :
    ExactArithmetic external image ↔ ¬Overlarge external image := by
  refine ⟨fun exact_run large => exact_run.1 (fault_inspectImage large), fun small => ?_⟩
  obtain ⟨same, safe⟩ := matches_inspectImage small
  exact ⟨fun fault => safe (same ▸ fault), same.symm⟩

end Inspection

section Oversized
variable {image : Buffer} {model : List UInt8}

/-- An inspection with a distribution, each of its files one byte. -/
def oversizedExternal (model : List UInt8) : External :=
  { aloneExternal model with distribution := some fun _ => some [0] }

/-- The builder's image with an entry of LICENSE in the root directory that is all zeros but for a
size of 2^28 bytes. -/
def oversizedImage (model : List UInt8) : Buffer :=
  ((buildFatImage [2] [1] model none (Buffer.zeros 0)).2.put 262732 [0]).put 262783 [0x10]

/-- The oversized image holds its files up to the model, and nothing behind the model's entry but the
byte that was put there. -/
structure Oversized (image : Buffer) (model : List UInt8) : Prop where
  files : FilesInPlace image
  embeds : Embeds image (oversizedExternal model)
  root_zero : ∀ i, 262752 ≤ i → i < 279040 → i ≠ 262783 → image.byte i = 0
  put : image.byte 262783 = 0x10

/-- The oversized image is the builder's with two bytes changed that no check of the files sees. -/
lemma oversized (full : model.length = modelBytes) : Oversized (oversizedImage model) model := by
  obtain ⟨⟨made, run⟩, -⟩ := built_small full
  obtain ⟨layout, fat, _, built⟩ := buildFatImage_built run
  have eq : oversizedImage model = (made.put 262732 [0]).put 262783 [0x10] := by
    rw [oversizedImage, run]
  have first : SameSeen made (made.put 262732 [0]) :=
    sameSeen_put (.inl (by decide)) built.length_image
  have length : (made.put 262732 [0]).length = imageBytes := first.length.trans built.length_image
  have second : SameSeen (made.put 262732 [0]) (oversizedImage model) :=
    eq ▸ sameSeen_put (.inr (by decide)) length
  have embeds : Embeds made (oversizedExternal model) := built.embeds ⟨rfl, rfl, rfl, rfl⟩
  refine ⟨second.inPlace (first.inPlace built.accepted.toFilesInPlace),
    second.embeds (first.embeds embeds), fun i above below ne => ?_, by rw [eq]; rfl⟩
  have outer : ((made.put 262732 [0]).put 262783 [0x10]).byte i = (made.put 262732 [0]).byte i :=
    if_neg (by rw [List.length_singleton]; omega)
  have inner : (made.put 262732 [0]).byte i = made.byte i :=
    if_neg (by rw [List.length_singleton]; omega)
  rw [eq, outer, inner]
  exact built.zero_root above below

namespace Oversized
variable (h : Oversized image model)
include h

/-- The files up to the model have one cluster each, and the model follows. -/
lemma clusters : clustersOf (firstAt image 287296) (sizeAt image 287296) = [4] ∧
    clustersOf (firstAt image 287328) (sizeAt image 287328) = [5] ∧
    firstAt image 262720 = 6 := by
  have efi : sizeAt image 287296 = 1 := by
    rw [← length_slice image (offsetOf (firstAt image 287296)) (sizeAt image 287296)]
    exact congrArg List.length h.embeds.efi
  have manifest : sizeAt image 287328 = 1 := by
    rw [← length_slice image (offsetOf (firstAt image 287328)) (sizeAt image 287328)]
    exact congrArg List.length h.embeds.manifest
  have manifest_first := h.files.manifest_first
  have model_first := h.files.model_first
  rw [efi] at manifest_first
  rw [manifest_first, manifest] at model_first
  rw [h.files.efi_first, manifest_first, model_first, efi, manifest]
  exact ⟨rfl, rfl, rfl⟩

/-- The entry of LICENSE says 2^28 bytes. -/
lemma size : sizeAt image 262752 = 2 ^ 28 := by
  simp only [sizeAt, u16At]
  rw [h.root_zero _ (by decide) (by decide) (by decide),
    h.root_zero _ (by decide) (by decide) (by decide),
    h.root_zero _ (by decide) (by decide) (by decide), h.put]
  rfl

/-- The checks up to the model pass. -/
lemma checkFiles : checkFiles (oversizedExternal model) image =
    (.ok (tableOf image, List.replicate 8 [0], [2, 3] ++ [4] ++ [5], List.range' 6 modelClusters),
      image) := by
  have files := h.files
  obtain ⟨efi, manifest, model_first⟩ := h.clusters
  have slack : ZeroRange image 262848 279040 := fun i above below =>
    ⟨by rw [files.length]; exact Nat.lt_trans below (by decide),
      h.root_zero i (by omega) below (by omega)⟩
  have root : checkRoot (oversizedExternal model) image =
      (.ok (entryAt image 262720, List.replicate 8 [0]), image) := files.checkRoot rfl slack
  have checked := files.checkEfiFiles h.embeds
  have modelled := files.checkModel h.embeds
  rw [efi, manifest] at checked
  rw [manifest, model_first] at modelled
  have got : (Fallible.get : Make Buffer) image = (.ok image, image) := rfl
  rw [Image.checkFiles, Fallible.bind_ok got, require_bind (decide_eq_true files.length),
    Fallible.bind_ok files.checkTables, Fallible.bind_ok root]
  simp only
  rw [Fallible.bind_ok files.checkEfiDirectories]
  simp only
  rw [Fallible.bind_ok checked]
  simp only
  rw [Fallible.bind_ok modelled]
  rfl

end Oversized

/-- The oversized image is too large. -/
lemma overlarge_oversized (full : model.length = modelBytes) :
    Overlarge (oversizedExternal model) (oversizedImage model) := by
  have h := oversized full
  refine ⟨⟨_, congrArg Prod.fst h.checkFiles⟩, rfl, fun fits => ?_⟩
  have sum := fits (by rw [h.size]; decide)
  rw [h.clusters.2.2, h.size, show clusterCount (2 ^ 28) = 32768 from rfl] at sum
  simp only [modelClusters] at sum
  omega

/-- With that image the inspector's own sum of 16-bit numbers panics. -/
lemma fault_oversized (full : model.length = modelBytes) :
    (inspectImage (oversizedExternal model) (oversizedImage model)).1 = .error .fault := by
  have h := oversized full
  generalize oversizedImage model = oversized at *
  have after : afterChain (List.range' 6 modelClusters) oversized = (.ok 52102, oversized) :=
    afterChain_ok (by decide) (by decide)
  have parse {offset : Nat} (inside : offset + 32 ≤ imageBytes) :
      parseEntry offset oversized = (.ok (entryAt oversized offset), oversized) :=
    h.files.parse inside
  have count : clusters (entryAt oversized (root + 96)).size oversized =
      (.ok 32768, oversized) := by
    rw [show (entryAt oversized (root + 96)).size = 2 ^ 28 from h.size]
    exact clusters_ok (by decide) (by decide)
  rw [inspectImage_eq, Fallible.bind_ok h.checkFiles]
  refine fault_bind ?_
  simp only [checkDistribution, distributionNames, List.replicate]
  rw [checkDistributionFiles, Fallible.bind_ok (parse (by decide)),
    Fallible.bind_ok (parse (by decide)), Fallible.bind_ok after]
  refine fault_bind ?_
  rw [checkLicenses, Fallible.bind_ok (parse (by decide)), Fallible.bind_ok count]
  exact fault_bind (fault_add16 (by decide))

/-- The inspector does not reject that image with a message. -/
theorem inspectImage_panics :
    (inspectImage (oversizedExternal (List.replicate modelBytes 0))
        (oversizedImage (List.replicate modelBytes 0))).1 = .error .fault ∧
      ¬ExactArithmetic (oversizedExternal (List.replicate modelBytes 0))
        (oversizedImage (List.replicate modelBytes 0)) := by
  have full : (List.replicate modelBytes (0 : UInt8)).length = modelBytes := List.length_replicate
  generalize List.replicate modelBytes (0 : UInt8) = model at full
  exact ⟨fault_oversized full, fun exact_run => exact_run.1
    (fault_inspectImage (overlarge_oversized full))⟩

end Oversized

end Promptboot.Image
