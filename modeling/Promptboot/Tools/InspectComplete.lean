import Promptboot.Tools.InspectFree

/-!
# What the image inspector lets pass

The checks of the inspector succeed on what they ask for, so an image that is as `Accepted` says and
whose payloads are the external files passes all of them.

The `_ok` lemmas run each check on what it asks for. `FilesInPlace` is what the checks up to the
model look at and `Embeds` what they compare with the external files; the stages that follow are
about a `DistributionAt`. The headline `Accepted.inspectImage_ok` puts them together.
-/

namespace Promptboot.Image
open Buffer

section Checks
variable {p : Buffer}

/-- A read within the image succeeds. -/
lemma readAt_ok {offset length : Nat} (inside : offset + length ≤ p.length) :
    readAt offset length p = (.ok (p.slice offset length), p) :=
  if_pos inside

/-- A half word within a slice is read. -/
lemma le16At_ok {start count offset : Nat} (inside : offset + 2 ≤ count) :
    le16At (p.slice start count) offset p = (.ok (u16At p (start + offset)), p) := by
  rw [le16At, length_slice, if_pos inside, getD_slice (by omega), getD_slice (by omega), u16At,
    Nat.add_assoc]
  rfl

/-- An entry within the image is parsed. -/
lemma parseEntry_ok {offset : Nat} (inside : offset + 32 ≤ p.length) :
    parseEntry offset p = (.ok (entryAt p offset), p) := by
  rw [parseEntry, Fallible.bind_ok (readAt_ok inside), Fallible.bind_ok (le16At_ok (by decide)),
    Fallible.bind_ok (le16At_ok (by decide)), Fallible.bind_ok (le16At_ok (by decide)),
    getD_slice (by decide)]
  rfl

/-- An entry within an image of the full size is parsed. -/
lemma parseEntry_inside {offset : Nat} (length : p.length = imageBytes)
    (inside : offset + 32 ≤ imageBytes) : parseEntry offset p = (.ok (entryAt p offset), p) :=
  parseEntry_ok (by rw [length]; exact inside)

/-- An entry with the bytes required passes. -/
lemma requireEntry_ok {actual : DirEntry} {name : List UInt8} {attributes : UInt8}
    {first size : Nat} {label : String} (fits : size < 2 ^ 32)
    (raw : actual.raw = entryBytes name attributes first size) :
    requireEntry actual name attributes first size label p = (.ok (), p) := by
  rw [requireEntry, entry, if_pos fits, Fallible.pure_bind, decide_eq_true raw]
  rfl

/-- A range of zeros passes. -/
lemma zeroLoop_ok {label : String} {position remaining : Nat}
    (zero : ZeroRange p position (position + remaining)) :
    zeroLoop label position remaining p = (.ok (), p) := by
  induction remaining using Nat.strongRecOn generalizing position with
  | ind remaining ih =>
    rw [zeroLoop]
    split
    case isTrue _ => rfl
    case isFalse more =>
      have last := (zero (position + remaining - 1) (by omega) (by omega)).1
      have piece : (p.slice position (min remaining (1024 * 1024))).all (· = 0) = true := by
        rw [List.all_eq_true]
        intro byte mem
        obtain ⟨i, bound, rfl⟩ := List.mem_map.1 mem
        have lt := List.mem_range.1 bound
        exact decide_eq_true (zero (position + i) (by omega) (by omega)).2
      have inside : position + min remaining (1024 * 1024) ≤ p.length := by omega
      rw [Fallible.bind_ok (readAt_ok inside), require_bind piece]
      exact ih _ (by omega) fun i above below => zero i (by omega) (by omega)

/-- A range of zeros passes where zeros are required. -/
lemma requireZero_ok {start stop : Nat} {label : String} (order : start ≤ stop)
    (zero : ZeroRange p start stop) : requireZero start stop label p = (.ok (), p) := by
  rw [requireZero, require_bind (decide_eq_true order)]
  refine zeroLoop_ok ?_
  rw [Nat.add_sub_cancel' order]
  exact zero

/-- A range with the external bytes matches. -/
lemma matchLoop_ok {position remaining : Nat} {external : List UInt8}
    (inside : position + remaining ≤ p.length) (same : p.slice position remaining = external) :
    matchLoop position external remaining p = (.ok true, p) := by
  induction remaining using Nat.strongRecOn generalizing position external with
  | ind remaining ih =>
    rw [matchLoop]
    split
    case isTrue _ => rfl
    case isFalse more =>
      have reach : position + min remaining (1024 * 1024) ≤ p.length := by omega
      have split : remaining =
          min remaining (1024 * 1024) + (remaining - min remaining (1024 * 1024)) := by
        omega
      rw [split, slice_add] at same
      have piece : external.take (min remaining (1024 * 1024)) =
          p.slice position (min remaining (1024 * 1024)) := by
        rw [← same, List.take_append_of_le_length (by simp), List.take_of_length_le (by simp)]
      have rest : p.slice (position + min remaining (1024 * 1024))
          (remaining - min remaining (1024 * 1024)) =
          external.drop (min remaining (1024 * 1024)) := by
        rw [← same, List.drop_append_of_le_length (by simp), List.drop_of_length_le (by simp),
          List.nil_append]
      rw [Fallible.bind_ok (readAt_ok reach), piece, if_neg (by simp)]
      exact ih _ (by omega) (by omega) rest

/-- A range with a file's bytes matches the file. -/
lemma rangeMatchesPath_ok {offset length : Nat} {external : List UInt8}
    (inside : offset + length ≤ p.length) (same : p.slice offset length = external) :
    rangeMatchesPath offset length external p = (.ok true, p) := by
  have whole : external.length = length := by rw [← same, length_slice]
  rw [rangeMatchesPath, if_neg (by simp [whole])]
  exact matchLoop_ok inside same

/-- The rest of a linked chain is followed to its end. -/
lemma chainLoop_ok {count left index first : Nat} {label : String} (total : index + left = count)
    (le : 2 ≤ first) (stop : first + count ≤ 65503)
    (linked : ∀ cluster, Within (first, count) cluster →
      fatAt p cluster = link (first, count) cluster) :
    chainLoop (tableOf p) count label left index (first + index) p =
      (.ok (List.range' (first + index) left), p) := by
  induction left generalizing index with
  | zero => rfl
  | succ left ih =>
    have here := linked (first + index) ⟨by simp only; omega, by simp only; omega⟩
    have read : le16At (tableOf p) ((first + index) * 2) p = (.ok (fatAt p (first + index)), p) :=
      le16At_ok (by omega)
    have wanted : wantedEntry count index (first + index) label p =
        (.ok (fatAt p (first + index)), p) := by
      rw [here, link, wantedEntry]
      simp only
      by_cases last : index + 1 = count
      · rw [if_pos last, if_pos (by omega)]
        rfl
      · rw [if_neg last, if_neg (by omega), checkedAdd16_ok (by omega)]
    rw [chainLoop, require_bind (decide_eq_true ⟨by omega, by omega⟩), Fallible.bind_ok read,
      Fallible.bind_ok wanted, require_bind (decide_eq_true rfl)]
    rcases Nat.eq_zero_or_pos left with rfl | more
    · rfl
    · have next : fatAt p (first + index) = first + (index + 1) := by
        rw [here, link, if_neg (by simp only; omega), Nat.add_assoc]
      rw [next, Fallible.bind_ok (ih (by omega)), List.range'_succ]
      rfl

/-- A linked chain passes. -/
lemma inspectChain_ok {first size : Nat} {label : String} (pos : 0 < size) (fits : size < 2 ^ 32)
    (le : 2 ≤ first) (stop : first + clusterCount size ≤ 65503)
    (linked : ∀ cluster, Within (first, clusterCount size) cluster →
      fatAt p cluster = link (first, clusterCount size) cluster) :
    inspectChain (tableOf p) first size label p = (.ok (clustersOf first size), p) := by
  rw [inspectChain, Fallible.bind_ok (clusters_ok pos fits)]
  exact chainLoop_ok (Nat.zero_add _) le stop linked

/-- Without orphans the search passes. -/
lemma checkOrphans_ok {allocated : List Nat} {left cluster : Nat} (bound : cluster + left ≤ 65536)
    (free : ∀ c, cluster ≤ c → c < cluster + left → c ∈ allocated ∨ fatAt p c = 0) :
    checkOrphans (tableOf p) allocated left cluster p = (.ok (), p) := by
  induction left generalizing cluster with
  | zero => rfl
  | succ left ih =>
    have read : le16At (tableOf p) (cluster * 2) p = (.ok (fatAt p cluster), p) :=
      le16At_ok (by omega)
    have passes : (allocated.contains cluster || decide (fatAt p cluster = 0)) = true := by
      rcases free cluster (Nat.le_refl _) (by omega) with mem | zero
      · simp [mem]
      · simp [zero]
    rw [checkOrphans, Fallible.bind_ok read, require_bind passes]
    exact ih (by omega) fun c above below => free c (by omega) (by omega)

/-- A sum of 16 bits is taken. -/
lemma add16_ok {a b : Nat} (lt : a + b < 2 ^ 16) : add16 a b p = (.ok (a + b), p) := by
  rw [add16, if_pos lt]
  rfl

/-- The cluster behind a chain. -/
lemma afterChain_ok {first count : Nat} (pos : 0 < count) (stop : first + count < 65536) :
    afterChain (List.range' first count) p = (.ok (first + count), p) := by
  rw [afterChain, getLast_range' pos]
  simp only
  rw [add16_ok (by omega)]
  congr 2
  omega

/-- Clusters in order with zeros between them leave no gaps, and there are zeros behind them. -/
lemma checkGaps_ok {used : List Nat} {cursor : Nat} (length : p.length = imageBytes)
    (order : used.Pairwise (· < ·)) (bounds : ∀ c ∈ used, 2 ≤ c ∧ c < 65503)
    (behind : ∀ c ∈ used, cursor ≤ offsetOf c) (stop : cursor ≤ imageBytes)
    (zero : ∀ i, cursor ≤ i → i < imageBytes →
      (∀ c ∈ used, ¬(offsetOf c ≤ i ∧ i < offsetOf c + 8192)) → p.byte i = 0) :
    ∃ last, checkGaps used cursor p = (.ok last, p) ∧ last ≤ imageBytes ∧
      ZeroRange p last imageBytes := by
  induction used generalizing cursor with
  | nil =>
    exact ⟨cursor, rfl, stop, fun i above below =>
      ⟨length ▸ below, zero i above below fun _ mem => nomatch mem⟩⟩
  | cons cluster used ih =>
    obtain ⟨first, order⟩ := List.pairwise_cons.1 order
    obtain ⟨le, small⟩ := bounds cluster List.mem_cons_self
    have here := behind cluster List.mem_cons_self
    have next : offsetOf (cluster + 1) = offsetOf cluster + 8192 := offsetOf_add le
    have inside : offsetOf cluster + 8192 ≤ imageBytes := by
      simp only [offsetOf, imageBytes]
      omega
    -- up to the cluster there is nothing that belongs to a later one
    have before : ZeroRange p cursor (offsetOf cluster) := by
      intro i above below
      have bound : i < imageBytes := by omega
      refine ⟨length ▸ bound, zero i above bound fun c mem both => ?_⟩
      rcases List.mem_cons.1 mem with rfl | later
      · omega
      · have := offsetOf_le (Nat.le_of_lt (first c later))
        omega
    have gap : checkGap cursor (offsetOf cluster) p = (.ok (), p) := by
      rw [checkGap]
      split
      case isTrue lt => exact requireZero_ok (Nat.le_of_lt lt) before
      case isFalse _ => rfl
    have later : ∀ c ∈ used, offsetOf cluster + 8192 ≤ offsetOf c := by
      intro c mem
      rw [← next]
      exact offsetOf_le (first c mem)
    obtain ⟨last, run, rest⟩ := ih order (fun c mem => bounds c (List.mem_cons_of_mem _ mem)) later
      inside fun i above below outside => by
        refine zero i (by omega) below fun c mem both => ?_
        rcases List.mem_cons.1 mem with rfl | mem
        · omega
        · exact outside c mem both
    refine ⟨last, ?_, rest⟩
    have cursor_eq : max cursor (offsetOf cluster + clusterBytes) = offsetOf cluster + 8192 := by
      simp only [clusterBytes]
      omega
    rw [checkGaps, clusterOffset_eq le, Fallible.pure_bind, Fallible.bind_ok gap, cursor_eq]
    exact run

/-- There is a payload for every name that has one. -/
lemma externalRows_ok {root : String → Option (List UInt8)} {names : List (String × List UInt8)}
    {payloads : List (List UInt8)} (named : names.map (fun name => root name.1) = payloads.map some)
    (pos : ∀ payload ∈ payloads, 0 < payload.length) :
    externalRows root names p = (.ok payloads, p) := by
  induction names generalizing payloads with
  | nil =>
    rw [List.map_nil] at named
    rw [List.map_eq_nil_iff.1 named.symm]
    rfl
  | cons name names ih =>
    obtain ⟨name, short⟩ := name
    cases payloads with
    | nil => cases named
    | cons payload payloads =>
      obtain ⟨found, rest⟩ := List.cons.inj named
      have nonempty := pos payload List.mem_cons_self
      have later := ih rest fun other mem => pos other (List.mem_cons_of_mem _ mem)
      simp only at found
      simp only [externalRows, found]
      rw [require_bind (decide_eq_true (by omega)), Fallible.bind_ok later]
      rfl

end Checks

section Stored
variable {image : Buffer} {first size : Nat} {label : String}

/-- A file in its clusters has a size of 32 bits. -/
lemma FileAt.fits (h : FileAt image first size) : size < 2 ^ 32 := by
  have stop := h.stop
  have whole := le_clusterCount size
  omega

/-- A file in its clusters is within the image. -/
lemma FileAt.inside (h : FileAt image first size) (length : image.length = imageBytes) :
    offsetOf first + size ≤ image.length := by
  have le := h.le
  have stop := h.stop
  have whole := le_clusterCount size
  simp only [length, imageBytes, offsetOf]
  omega

/-- The chain of a file passes. -/
lemma FileAt.inspectChain_ok (h : FileAt image first size) :
    inspectChain (tableOf image) first size label image = (.ok (clustersOf first size), image) :=
  Image.inspectChain_ok h.pos h.fits h.le h.stop h.linked

/-- The slack of a file passes. -/
lemma FileAt.requireZero_ok (h : FileAt image first size) :
    requireZero (offsetOf first + size)
      (offsetOf first + (clustersOf first size).length * clusterBytes) label image =
      (.ok (), image) := by
  rw [List.length_range']
  exact Image.requireZero_ok (Nat.add_le_add_left (le_clusterCount size) _) h.slack

/-- The file is compared with itself. -/
lemma FileAt.rangeMatchesPath_ok (h : FileAt image first size) (length : image.length = imageBytes)
    {external : List UInt8} (same : image.slice (offsetOf first) size = external) :
    rangeMatchesPath (offsetOf first) size external image = (.ok true, image) :=
  Image.rangeMatchesPath_ok (h.inside length) same

/-- The name and the attributes of an entry with known bytes. -/
lemma entry_named {place : Nat} {name : List UInt8} {attributes : UInt8} (eleven : name.length = 11)
    (raw : image.slice place 32 = entryBytes name attributes first size) :
    (entryAt image place).name = name ∧ (entryAt image place).attributes = attributes := by
  refine ⟨?_, byte_entry eleven (entry_slice eleven raw) 0 (by decide)⟩
  have start : (image.slice place 32).take 11 = name := by
    rw [raw, entryBytes]
    simp only [List.append_assoc]
    rw [← eleven, List.take_left']
    rfl
  exact start

end Stored

section Files
variable {image : Buffer} {external : External}

/-- The manifest and the digests are in order. -/
structure External.InOrder (external : External) : Prop where
  manifest_valid : external.manifestValid external.manifest = true
  efi_listed : external.efiListed external.manifest external.efi.length external.efi = true
  model_listed : external.modelListed external.manifest external.model = true
  model_digest : external.modelDigest external.model = true

/-- The external files are in order and are those in the image. -/
structure Embeds (image : Buffer) (external : External) : Prop extends External.InOrder external where
  efi : embeddedAt image 287296 = external.efi
  manifest : embeddedAt image 287328 = external.manifest
  model : embeddedAt image 262720 = external.model

namespace FilesInPlace
variable (h : FilesInPlace image)
include h

/-- An entry of the image is parsed. -/
lemma parse {offset : Nat} (inside : offset + 32 ≤ imageBytes) :
    parseEntry offset image = (.ok (entryAt image offset), image) :=
  parseEntry_inside h.length inside

/-- The tables pass. -/
lemma checkTables : checkTables image = (.ok (tableOf image), image) := by
  have length := h.length
  have first : readAt 0 512 image = (.ok (image.slice 0 512), image) :=
    readAt_ok (by rw [length]; decide)
  have table : readAt sector (sectorsPerFat * sector) image = (.ok (tableOf image), image) :=
    readAt_ok (by rw [length]; decide)
  have second : readAt ((1 + sectorsPerFat) * sector) (sectorsPerFat * sector) image =
      (.ok (image.slice 131584 131072), image) :=
    readAt_ok (by rw [length]; decide)
  rw [Image.checkTables, Fallible.bind_ok first, require_bind (decide_eq_true h.boot),
    Fallible.bind_ok table, Fallible.bind_ok second, require_bind (decide_eq_true h.copy.symm),
    require_bind (decide_eq_true h.reserved)]
  rfl

/-- The root directory passes. -/
lemma checkRoot {payloads : List (List UInt8)}
    (found : distributionExternal external.distribution image = (.ok payloads, image))
    (slack : ZeroRange image (262656 + if payloads.isEmpty then 96 else 192) 279040) :
    checkRoot external image = (.ok (entryAt image 262720, payloads), image) := by
  have order : 262656 + (if payloads.isEmpty then 96 else 192) ≤ 279040 := by
    split_ifs <;> decide
  have zeros : requireZero (root + if payloads.isEmpty then 96 else 192)
      (root + rootSectors * sector) "root directory slack" image = (.ok (), image) :=
    requireZero_ok order slack
  have volume : parseEntry root image = _ := h.parse (by decide)
  have efi_root : parseEntry (root + 32) image = _ := h.parse (by decide)
  have model_root : parseEntry (root + 64) image = _ := h.parse (by decide)
  rw [Image.checkRoot, Fallible.bind_ok volume, Fallible.bind_ok efi_root,
    Fallible.bind_ok model_root, Fallible.bind_ok (requireEntry_ok (by decide) h.volume),
    Fallible.bind_ok (requireEntry_ok (by decide) h.efi_root),
    require_bind (decide_eq_true ⟨h.model_name, h.model_attributes⟩), Fallible.bind_ok found]
  exact Fallible.bind_ok zeros

/-- An entry of the first directory passes. -/
lemma checkEntry {offset first : Nat} {name : List UInt8} {label : String}
    (mem : (offset, entryBytes name 0x10 first 0) ∈ efiDirWrites) (eleven : name.length = 11)
    (inside : offset + 32 ≤ imageBytes) :
    checkEntry offset name first label image = (.ok (), image) := by
  have raw := h.directories.entries _ mem
  rw [length_entryBytes eleven] at raw
  rw [Image.checkEntry, Fallible.bind_ok (h.parse inside)]
  exact requireEntry_ok (by decide) raw

/-- The EFI directories pass. -/
lemma checkEfiDirectories : checkEfiDirectories image =
    (.ok (entryAt image 287296, entryAt image 287328), image) := by
  have directories := h.directories
  obtain ⟨efi_name, efi_attributes⟩ := entry_named (by decide) directories.efi
  obtain ⟨manifest_name, manifest_attributes⟩ := entry_named (by decide) directories.manifest
  have efi_slack : requireZero (279040 + 96) (279040 + clusterBytes) "EFI directory slack" image =
      (.ok (), image) := requireZero_ok (by decide) directories.slack
  have boot_slack : requireZero (287232 + 128) (287232 + clusterBytes) "BOOT directory slack"
      image = (.ok (), image) := requireZero_ok (by decide) directories.boot_slack
  have efi : requireEntry (entryAt image (287232 + 64)) (ascii "BOOTX64 EFI") 0x20
      (entryAt image (287232 + 64)).first (entryAt image (287232 + 64)).size "BOOTX64.EFI" image =
      (.ok (), image) := requireEntry_ok h.efi.fits directories.efi
  have manifest : requireEntry (entryAt image (287232 + 96)) (ascii "BUILD   JSN") 0x20
      (entryAt image (287232 + 96)).first (entryAt image (287232 + 96)).size "BUILD.JSN" image =
      (.ok (), image) := requireEntry_ok h.manifest.fits directories.manifest
  rw [Image.checkEfiDirectories]
  simp only [clusterOffset_two, clusterOffset_three, Fallible.pure_bind]
  rw [Fallible.bind_ok (h.checkEntry (by simp [efiDirWrites]) (by decide) (by decide)),
    Fallible.bind_ok (h.checkEntry (by simp [efiDirWrites]) (by decide) (by decide)),
    Fallible.bind_ok (h.checkEntry (by simp [efiDirWrites]) (by decide) (by decide)),
    Fallible.bind_ok efi_slack, Fallible.bind_ok (h.parse (by decide)),
    Fallible.bind_ok (h.parse (by decide)),
    Fallible.bind_ok (requireEntry_ok (by decide) directories.boot_dot),
    Fallible.bind_ok (requireEntry_ok (by decide) directories.boot_dotdot),
    Fallible.bind_ok (h.parse (by decide)), Fallible.bind_ok (h.parse (by decide)),
    require_bind (decide_eq_true ⟨efi_name, efi_attributes, manifest_name, manifest_attributes⟩),
    Fallible.bind_ok efi, Fallible.bind_ok manifest, Fallible.bind_ok boot_slack]
  rfl

/-- The EFI files pass. -/
lemma checkEfiFiles (e : Embeds image external) :
    checkEfiFiles external (tableOf image) (entryAt image 287296) (entryAt image 287328) image =
      (.ok (clustersOf (firstAt image 287296) (sizeAt image 287296),
        clustersOf (firstAt image 287328) (sizeAt image 287328)), image) := by
  have length := h.length
  have efi_count := clusterCount_pos h.efi.pos
  have stop := h.manifest.stop
  have order : (clustersOf (firstAt image 287296) (sizeAt image 287296)).head? = some 4 ∧
      (clustersOf (firstAt image 287328) (sizeAt image 287328)).head? =
        (clustersOf (firstAt image 287296) (sizeAt image 287296)).getLast?.bind fun last =>
          if last + 1 < 2 ^ 16 then some (last + 1) else none := by
    rw [head_range' efi_count, head_range' (clusterCount_pos h.manifest.pos),
      getLast_range' efi_count, Option.bind_some, h.efi_first, h.manifest_first]
    rw [h.manifest_first] at stop
    rw [if_pos (by omega)]
    exact ⟨rfl, congrArg some (by omega)⟩
  have read : readAt (offsetOf (firstAt image 287328)) (sizeAt image 287328) image =
      (.ok (embeddedAt image 287328), image) := readAt_ok (h.manifest.inside length)
  have listed : external.efiListed external.manifest (sizeAt image 287296) external.efi = true := by
    have size : external.efi.length = sizeAt image 287296 := by
      rw [← e.efi, embeddedAt, length_slice]
    rw [← size]
    exact e.efi_listed
  rw [Image.checkEfiFiles]
  simp only [entryAt]
  rw [Fallible.bind_ok h.efi.inspectChain_ok, Fallible.bind_ok h.manifest.inspectChain_ok,
    require_bind (decide_eq_true order), clusterOffset_eq h.efi.le, Fallible.pure_bind,
    clusterOffset_eq h.manifest.le, Fallible.pure_bind, Fallible.bind_ok h.efi.requireZero_ok,
    Fallible.bind_ok h.manifest.requireZero_ok, Fallible.bind_ok read,
    require_bind (decide_eq_true e.manifest), require_bind e.manifest_valid, require_bind listed,
    Fallible.bind_ok (h.efi.rangeMatchesPath_ok length e.efi), require_bind rfl]
  rfl

/-- The model passes. -/
lemma checkModel (e : Embeds image external) :
    checkModel external (tableOf image) (entryAt image 262720)
      (clustersOf (firstAt image 287328) (sizeAt image 287328)) image =
      (.ok (clustersOf (firstAt image 262720) modelBytes), image) := by
  have length := h.length
  have stop := h.manifest.stop
  have after : afterChain (clustersOf (firstAt image 287328) (sizeAt image 287328)) image =
      (.ok (firstAt image 262720), image) := by
    rw [h.model_first]
    exact afterChain_ok (clusterCount_pos h.manifest.pos) (by omega)
  have count : (clustersOf (firstAt image 262720) modelBytes).length = modelClusters :=
    List.length_range'
  have same : image.slice (offsetOf (firstAt image 262720)) modelBytes = external.model := by
    rw [← e.model, embeddedAt, h.model_size]
  have read : readAt (offsetOf (firstAt image 262720)) modelBytes image =
      (.ok external.model, image) := same ▸ readAt_ok (h.model.inside length)
  have first : (entryAt image 262720).first = firstAt image 262720 := rfl
  have size : (entryAt image 262720).size = modelBytes := h.model_size
  rw [Image.checkModel, first, require_bind (decide_eq_true size), Fallible.bind_ok after,
    require_bind (decide_eq_true rfl), require_bind e.model_listed,
    Fallible.bind_ok h.model.inspectChain_ok, require_bind (decide_eq_true count),
    clusterOffset_eq h.model.le, Fallible.pure_bind,
    Fallible.bind_ok (h.model.rangeMatchesPath_ok length same), require_bind rfl,
    Fallible.bind_ok read, require_bind e.model_digest, Fallible.bind_ok h.model.requireZero_ok]
  rfl

end FilesInPlace

end Files

section Distribution
variable {image : Buffer} {after : Nat}

/-- Files in place pass one after another. -/
lemma checkRows_ok {index next stop : Nat} {rows : List InspectedRow}
    (length : image.length = imageBytes)
    (placed : Placed index next (rows.map (InspectedRow.toRow image)) stop)
    (facts : ∀ row ∈ rows, RowFacts image row)
    (same : ∀ row ∈ rows, image.slice (offsetOf row.item.first) row.item.size = row.payload) :
    checkRows (tableOf image) index rows next image =
      (.ok ((rows.map (InspectedRow.toRow image)).flatMap DistributionRow.clusters), image) := by
  induction rows generalizing index next with
  | nil => rfl
  | cons row rows ih =>
    obtain ⟨here, -, -, rest⟩ := placed
    have here : row.item.first = if index = 2 then next + 1 else next := here
    obtain ⟨file, raw⟩ := facts row List.mem_cons_self
    have bound := file.stop
    have skip : skipLicenses index next image = (.ok row.item.first, image) := by
      rw [skipLicenses, here]
      split
      case isTrue third =>
        rw [if_pos third] at here
        exact add16_ok (by omega)
      case isFalse _ => rfl
    have ended : afterChain (clustersOf row.item.first row.item.size) image =
        (.ok (row.item.first + clusterCount row.item.size), image) :=
      afterChain_ok (clusterCount_pos file.pos) (by omega)
    have later := ih rest (fun other mem => facts other (List.mem_cons_of_mem _ mem))
      fun other mem => same other (List.mem_cons_of_mem _ mem)
    rw [checkRows, Fallible.bind_ok skip, Fallible.bind_ok (requireEntry_ok file.fits raw),
      Fallible.bind_ok file.inspectChain_ok, clusterOffset_eq file.le, Fallible.pure_bind,
      Fallible.bind_ok (file.rangeMatchesPath_ok length (same row List.mem_cons_self)),
      require_bind rfl, Fallible.bind_ok file.requireZero_ok, Fallible.bind_ok ended]
    exact Fallible.bind_ok later

/-- Entries with their names pass in the licenses directory. -/
lemma checkLicenseEntries_ok {directory index : Nat} {names : List (String × List UInt8)}
    {payloads : List (List UInt8)} (length : payloads.length = names.length)
    (named : ∀ i name, names[i]? = some name →
      directory + (index + i + 2) * 32 + 32 ≤ image.length ∧
        (entryAt image (directory + (index + i + 2) * 32)).name = name.2 ∧
        (entryAt image (directory + (index + i + 2) * 32)).attributes = 0x20) :
    ∃ rows, checkLicenseEntries directory index names payloads image = (.ok rows, image) ∧
      rows.map (fun row => (row.short, row.item)) = licenseItems image directory index names ∧
      rows.map InspectedRow.payload = payloads := by
  induction names generalizing index payloads with
  | nil =>
    cases List.length_eq_zero_iff.1 length
    exact ⟨[], rfl, rfl, rfl⟩
  | cons name names ih =>
    cases payloads with
    | nil => cases length
    | cons payload payloads =>
      obtain ⟨name, short⟩ := name
      obtain ⟨inside, here⟩ := named 0 (name, short) rfl
      have parsed : parseEntry (directory + (index + 2) * 32) image = _ := parseEntry_ok inside
      obtain ⟨rows, run, items, same⟩ := @ih (index + 1) payloads (Nat.succ.inj length)
        fun i other known => by
          have there := named (i + 1) other known
          rwa [show index + (i + 1) + 2 = index + 1 + i + 2 by omega] at there
      refine ⟨⟨name, short, entryAt image (directory + (index + 2) * 32), payload⟩ :: rows, ?_,
        ?_, ?_⟩
      · rw [checkLicenseEntries, Fallible.bind_ok parsed, require_bind (decide_eq_true here),
          Fallible.bind_ok run]
        rfl
      · rw [List.map_cons, items]
        rfl
      · rw [List.map_cons, same]

/-- The rows of an image, one by one. -/
lemma imageRows_getElem? (index : Nat) : (imageRows image)[index]? =
    distributionNames[index]?.map fun name =>
      rowAt image name.2 (distributionEntry (firstAt image 262816) index) := by
  rw [imageRows, List.getElem?_map, List.getElem?_zipIdx, Option.map_map]
  simp only [Nat.zero_add]
  rfl

namespace DistributionAt
variable (h : DistributionAt image after)
include h

/-- The files of the root directory, and the licenses directory behind them. -/
lemma front : FileAt image (firstAt image 262752) (sizeAt image 262752) ∧
    FileAt image (firstAt image 262784) (sizeAt image 262784) ∧
    firstAt image 262816 = after + clusterCount (sizeAt image 262752) +
      clusterCount (sizeAt image 262784) := by
  obtain ⟨stop, -, placed⟩ := h.placed
  obtain ⟨row, third, row_first⟩ := h.licenses
  have license_row : (imageRows image)[0]? = some (rowAt image (ascii "LICENSE    ") 262752) := by
    rw [imageRows_getElem?]
    rfl
  have source_row : (imageRows image)[1]? = some (rowAt image (ascii "SOURCE  TGZ") 262784) := by
    rw [imageRows_getElem?]
    rfl
  have license := h.file _ (List.mem_of_getElem? license_row)
  have source := h.file _ (List.mem_of_getElem? source_row)
  refine ⟨license, source, ?_⟩
  rcases rows : imageRows image with _ | ⟨a, _ | ⟨b, _ | ⟨c, rest⟩⟩⟩ <;>
    rw [rows] at license_row source_row third placed
  · cases third
  · cases third
  · cases third
  cases license_row
  cases source_row
  cases third
  obtain ⟨license_first, -, -, source_first, -, -, third_first, -⟩ := placed
  have license_first : firstAt image 262752 = after := license_first
  have source_first : firstAt image 262784 =
    firstAt image 262752 + clusterCount (sizeAt image 262752) := source_first
  have third_first : row.first =
    firstAt image 262784 + clusterCount (sizeAt image 262784) + 1 := third_first
  omega

/-- The licenses directory is in the image. -/
lemma bounds : 2 ≤ firstAt image 262816 ∧ firstAt image 262816 < 65503 := by
  obtain ⟨license, source, first⟩ := h.front
  obtain ⟨row, third, row_first⟩ := h.licenses
  have stop := (h.file row (List.mem_of_getElem? third)).stop
  have license_pos := clusterCount_pos license.pos
  have source_pos := clusterCount_pos source.pos
  omega

/-- The cluster of the licenses directory is within the image. -/
lemma directory_le : offsetOf (firstAt image 262816) + 8192 ≤ imageBytes := by
  obtain ⟨le, small⟩ := h.bounds
  simp only [offsetOf, imageBytes]
  omega

/-- The directory of the licenses passes. -/
lemma checkLicenses_ok (length : image.length = imageBytes) :
    checkLicenses after (entryAt image 262752) (entryAt image 262784) image =
      (.ok (firstAt image 262816), image) := by
  obtain ⟨license, source, first⟩ := h.front
  obtain ⟨le, small⟩ := h.bounds
  have directory := h.directory_le
  have license_count : clusters (entryAt image 262752).size image =
      (.ok (clusterCount (sizeAt image 262752)), image) := clusters_ok license.pos license.fits
  have source_count : clusters (entryAt image 262784).size image =
      (.ok (clusterCount (sizeAt image 262784)), image) := clusters_ok source.pos source.fits
  have named : (entryAt image (root + 160)).name = ascii "LICENSES   " ∧
      (entryAt image (root + 160)).attributes = 0x10 ∧
      (entryAt image (root + 160)).first = after + clusterCount (sizeAt image 262752) +
        clusterCount (sizeAt image 262784) := ⟨h.name, h.attributes, first⟩
  have added : add16 after (clusterCount (sizeAt image 262752) % 2 ^ 16) image =
      (.ok (after + clusterCount (sizeAt image 262752)), image) := by
    rw [Nat.mod_eq_of_lt (by omega)]
    exact add16_ok (by omega)
  have added' : add16 (after + clusterCount (sizeAt image 262752))
      (clusterCount (sizeAt image 262784) % 2 ^ 16) image =
      (.ok (after + clusterCount (sizeAt image 262752) + clusterCount (sizeAt image 262784)),
        image) := by
    rw [Nat.mod_eq_of_lt (by omega)]
    exact add16_ok (by omega)
  have place : clusterOffset (entryAt image (root + 160)).first =
      pure (offsetOf (firstAt image 262816)) := clusterOffset_eq le
  rw [checkLicenses, Fallible.bind_ok (parseEntry_inside length (by decide)),
    Fallible.bind_ok license_count, Fallible.bind_ok added, Fallible.bind_ok source_count,
    Fallible.bind_ok added', require_bind (decide_eq_true named), place, Fallible.pure_bind,
    Fallible.bind_ok (parseEntry_inside length (by omega)),
    Fallible.bind_ok (parseEntry_inside length (by omega)),
    Fallible.bind_ok (requireEntry_ok (by decide) h.dot),
    Fallible.bind_ok (requireEntry_ok (by decide) h.dotdot)]
  rfl

/-- The files of the licenses directory have entries with their names. -/
lemma licenses_named {license source : String × List UInt8} {names : List (String × List UInt8)}
    (all : distributionNames = license :: source :: names) (length : image.length = imageBytes) :
    ∀ i name, names[i]? = some name →
      offsetOf (firstAt image 262816) + (0 + i + 2) * 32 + 32 ≤ image.length ∧
        (entryAt image (offsetOf (firstAt image 262816) + (0 + i + 2) * 32)).name = name.2 ∧
        (entryAt image (offsetOf (firstAt image 262816) + (0 + i + 2) * 32)).attributes = 0x20 := by
  intro i name known
  have eight : distributionNames.length = 8 := rfl
  rw [all, List.length_cons, List.length_cons] at eight
  have at_index : distributionNames[i + 2]? = some name := by
    rw [all]
    exact known
  have row : (imageRows image)[i + 2]? = _ := imageRows_getElem? (i + 2)
  rw [at_index, Option.map_some] at row
  have raw := h.raw _ _ row
  have place : distributionEntry (firstAt image 262816) (i + 2) =
      offsetOf (firstAt image 262816) + (0 + i + 2) * 32 := by
    rw [distributionEntry, if_neg (by omega), Nat.zero_add]
  have below : i < names.length := (List.getElem?_eq_some_iff.1 known).1
  have directory := h.directory_le
  rw [place] at raw
  exact ⟨by rw [length]; omega, entry_named (names_eleven name (List.mem_of_getElem? at_index)) raw⟩

/-- Rows that were read from the entries of the image are as the image has them. -/
lemma rowFacts {rows : List InspectedRow}
    (items : rows.map (fun row => (row.short, row.item)) = imageItems image) :
    ∀ row ∈ rows, RowFacts image row := by
  intro row mem
  obtain ⟨index, at_index⟩ := List.mem_iff_getElem?.1 mem
  have there : (imageRows image)[index]? = some (row.toRow image) := by
    rw [← map_toRow items, List.getElem?_map, at_index, Option.map_some]
  have raw := h.raw index _ there
  have item := items_getElem items at_index
  refine ⟨h.file _ (List.mem_of_getElem? there), ?_⟩
  rw [← show row.item.raw = image.slice (distributionEntry (firstAt image 262816) index) 32 from
    congrArg DirEntry.raw item] at raw
  exact raw

/-- The files of a distribution in place pass. -/
lemma checkDistributionFiles_ok {first count : Nat} {license source : String × List UInt8}
    {names : List (String × List UInt8)} {licensePayload sourcePayload : List UInt8}
    {payloads : List (List UInt8)} (all : distributionNames = license :: source :: names)
    (pos : 0 < count) (after_eq : after = first + count) (length : image.length = imageBytes)
    (same : (imageRows image).map DistributionRow.payload =
      licensePayload :: sourcePayload :: payloads) :
    checkDistributionFiles (tableOf image) (List.range' first count) license source names
      licensePayload sourcePayload payloads image =
      (.ok (firstAt image 262816 :: (imageRows image).flatMap DistributionRow.clusters), image) := by
  obtain ⟨le, small⟩ := h.bounds
  have behind := h.front.2.2
  have directory := h.directory_le
  obtain ⟨stop, -, placed⟩ := h.placed
  have ended : afterChain (List.range' first count) image = (.ok after, image) := by
    rw [after_eq]
    exact afterChain_ok pos (by omega)
  have slack : requireZero (offsetOf (firstAt image 262816) + (2 + distributionNames.length - 2) * 32)
      (offsetOf (firstAt image 262816) + clusterBytes) "LICENSES directory slack" image =
      (.ok (), image) := requireZero_ok (Nat.add_le_add_left (by decide) _) h.slack
  -- the entries of the licenses directory are those of the rows from the third on
  have count_eq := congrArg List.length same
  rw [List.length_map, imageRows, List.length_map, List.length_zipIdx, all, List.length_cons,
    List.length_cons] at count_eq
  have six : payloads.length = names.length := Nat.succ.inj (Nat.succ.inj count_eq.symm)
  obtain ⟨rest, run, rest_items, rest_same⟩ :=
    checkLicenseEntries_ok six (h.licenses_named all length)
  generalize rows_eq : (⟨license.1, license.2, entryAt image 262752, licensePayload⟩ ::
    ⟨source.1, source.2, entryAt image 262784, sourcePayload⟩ :: rest : List InspectedRow) = rows
  have items : rows.map (fun row => (row.short, row.item)) = imageItems image := by
    rw [← rows_eq, List.map_cons, List.map_cons, rest_items, imageItems_eq all]
  have payload_same : ∀ row ∈ rows,
      image.slice (offsetOf row.item.first) row.item.size = row.payload := by
    have held : rows.map (fun row => (row.toRow image).payload) =
        (imageRows image).map DistributionRow.payload := by
      rw [← map_toRow items, List.map_map]
      rfl
    have whole : rows.map (fun row => (row.toRow image).payload) = rows.map InspectedRow.payload := by
      rw [held, same, ← rows_eq, List.map_cons, List.map_cons, rest_same]
    exact List.map_inj_left.1 whole
  rw [← map_toRow items] at placed
  have checked := checkRows_ok length placed (h.rowFacts items) payload_same
  rw [map_toRow items, ← rows_eq] at checked
  have licensed : checkLicenses after (entryAt image (root + 96)) (entryAt image (root + 128)) image =
      (.ok (firstAt image 262816), image) := h.checkLicenses_ok length
  rw [checkDistributionFiles, Fallible.bind_ok (parseEntry_inside length (by decide)),
    Fallible.bind_ok (parseEntry_inside length (by decide)), Fallible.bind_ok ended,
    Fallible.bind_ok licensed, clusterOffset_eq le, Fallible.pure_bind, Fallible.bind_ok run,
    Fallible.bind_ok slack]
  exact Fallible.bind_ok checked

/-- A distribution in place passes. -/
lemma checkDistribution_ok {first count : Nat} {payloads : List (List UInt8)}
    (pos : 0 < count) (after_eq : after = first + count) (length : image.length = imageBytes)
    (same : (imageRows image).map DistributionRow.payload = payloads) :
    checkDistribution (tableOf image) (List.range' first count) payloads image =
      (.ok (firstAt image 262816 :: (imageRows image).flatMap DistributionRow.clusters), image) := by
  have eight := congrArg List.length same
  rw [List.length_map, imageRows, List.length_map, List.length_zipIdx] at eight
  rcases payloads with _ | ⟨licensePayload, _ | ⟨sourcePayload, payloads⟩⟩
  · cases eight
  · cases eight
  · exact h.checkDistributionFiles_ok rfl pos after_eq length same

end DistributionAt

end Distribution

section Passes
variable {image : Buffer} {external : External} {spread : Bool}

/-- The clusters of a file are in the image. -/
lemma FileAt.bounds {first size c : Nat} (h : FileAt image first size)
    (mem : c ∈ clustersOf first size) : 2 ≤ c ∧ c < 65503 := by
  have inside := List.mem_range'_1.1 mem
  have le := h.le
  have stop := h.stop
  omega

/-- The clusters that an accepted image uses are in it. -/
lemma Accepted.used_bounds (h : Accepted image spread) :
    ∀ c ∈ usedClusters image spread, 2 ≤ c ∧ c < 65503 := by
  intro c used
  simp only [usedClusters, List.mem_append] at used
  rcases used with (((fixed | used) | used) | used) | used
  · simp only [List.mem_cons, List.not_mem_nil, or_false] at fixed
    omega
  · exact h.efi.bounds used
  · exact h.manifest.bounds used
  · exact h.model.bounds used
  · cases spread with
    | false => cases used
    | true =>
      have there := h.distribution rfl
      rcases List.mem_cons.1 used with rfl | used
      · exact there.bounds
      · obtain ⟨row, known, mem⟩ := List.mem_flatMap.1 used
        exact (there.file row known).bounds mem

/-- The files of the distribution are what the image holds under their names. -/
def EmbedsDistribution (image : Buffer) (external : External) : Prop :=
  ∀ files, external.distribution = some files →
    distributionNames.map (fun name => files name.1) =
      (imageRows image).map fun row => some row.payload

/-- An image in which everything is in place passes every check when it is compared with what is in
it. -/
lemma Accepted.inspectImage_ok (h : Accepted image external.distribution.isSome)
    (e : Embeds image external) (d : EmbedsDistribution image external) :
    inspectImage external image = (.ok (), image) := by
  have files := h.toFilesInPlace
  have length := h.length
  obtain ⟨payloads, found, empty, spread⟩ : ∃ payloads,
      distributionExternal external.distribution image = (.ok payloads, image) ∧
      payloads.isEmpty = !external.distribution.isSome ∧
      checkDistribution (tableOf image) (clustersOf (firstAt image 262720) modelBytes) payloads
        image = (.ok (if external.distribution.isSome then
          firstAt image 262816 :: (imageRows image).flatMap DistributionRow.clusters else []),
          image) := by
    cases some : external.distribution with
    | none => exact ⟨[], rfl, rfl, rfl⟩
    | some root =>
      rw [some] at h
      have there := h.distribution rfl
      refine ⟨(imageRows image).map DistributionRow.payload, ?_, rfl, ?_⟩
      · refine externalRows_ok ((d root some).trans (List.map_map).symm) ?_
        intro payload mem
        obtain ⟨row, known, rfl⟩ := List.mem_map.1 mem
        rw [imageRows_payload row known, length_slice]
        exact (there.file row known).pos
      · exact there.checkDistribution_ok (clusterCount_pos h.model.pos) rfl length rfl
  have slack : ZeroRange image (262656 + if payloads.isEmpty then 96 else 192) 279040 := by
    rw [empty]
    have zero := h.root_slack
    cases on : external.distribution.isSome with
    | false => rwa [on] at zero
    | true => rwa [on] at zero
  -- the clusters in use are the ones that the inspector collects
  have orphans : checkOrphans (tableOf image) (usedClusters image external.distribution.isSome)
      (2 ^ 16 - 4) 4 image = (.ok (), image) := by
    refine checkOrphans_ok (by decide) fun c above below => ?_
    by_cases used : c ∈ usedClusters image external.distribution.isSome
    · exact .inl used
    · exact .inr (h.orphans c above (by omega) used)
  have bounds := h.used_bounds
  have small : ∀ c ∈ usedClusters image external.distribution.isSome,
      c ∈ ordered (usedClusters image external.distribution.isSome) := by
    intro c used
    have bound := (bounds c used).2
    exact List.mem_filter.2 ⟨List.mem_range.2 (by omega), List.contains_iff_mem.2 used⟩
  obtain ⟨last, gaps, last_le, rest⟩ := checkGaps_ok length
    (List.pairwise_lt_range.filter (usedClusters image external.distribution.isSome).contains)
    (fun c mem => bounds c (mem_ordered mem))
    (fun c mem => by
      have bound := (bounds c (mem_ordered mem)).1
      exact offsetOf_le bound)
    (by decide : offsetOf 2 ≤ imageBytes)
    fun i above below outside => h.gaps i above below fun c used => outside c (small c used)
  have got : (Fallible.get : Make Buffer) image = (.ok image, image) := rfl
  rw [inspectImage, Fallible.bind_ok got, require_bind (decide_eq_true length),
    Fallible.bind_ok files.checkTables, Fallible.bind_ok (files.checkRoot found slack)]
  simp only
  rw [Fallible.bind_ok files.checkEfiDirectories]
  simp only
  rw [Fallible.bind_ok (files.checkEfiFiles e)]
  simp only
  rw [Fallible.bind_ok (files.checkModel e), Fallible.bind_ok spread]
  refine (Fallible.bind_ok orphans).trans ((Fallible.bind_ok gaps).trans ?_)
  exact requireZero_ok last_le rest

end Passes

end Promptboot.Image
