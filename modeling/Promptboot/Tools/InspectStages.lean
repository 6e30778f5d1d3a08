import Promptboot.Tools.InspectFacts

/-!
# What the image inspector accepts

The stages of the inspector one by one, and what an accepted image is known to hold.

There is a lemma for each stage, up to `checkModel_eq_ok`; `fileAt_of_facts` makes a `FileAt` of a
chain, an entry and the slack behind the file, which is all that a later stage takes from an earlier
one.
-/

namespace Promptboot.Image
open Buffer

section Stages
variable {p q : Buffer} {external : External}

/-- Tables that pass are a boot sector and two equal tables. -/
lemma checkTables_eq_ok {fat : List UInt8} (h : checkTables p = (.ok fat, q)) :
    q = p ∧ fat = tableOf p ∧ p.slice 0 512 = boot ∧ p.slice 131584 131072 = tableOf p ∧
      (tableOf p).take 8 = reserved := by
  rw [checkTables] at h
  obtain ⟨bootSector, r, got, h1⟩ := Fallible.bind_eq_ok h
  obtain ⟨_, read_boot, rfl⟩ := readAt_eq_ok got
  obtain ⟨is_boot, h2⟩ := require_bind_eq_ok h1
  obtain ⟨table, r, got, h3⟩ := Fallible.bind_eq_ok h2
  obtain ⟨_, read_table, rfl⟩ := readAt_eq_ok got
  obtain ⟨copy, r, got, h4⟩ := Fallible.bind_eq_ok h3
  obtain ⟨_, read_copy, rfl⟩ := readAt_eq_ok got
  obtain ⟨same, h5⟩ := require_bind_eq_ok h4
  obtain ⟨start, h6⟩ := require_bind_eq_ok h5
  cases h6
  have same := of_decide_eq_true same
  have size : sectorsPerFat * sector = 131072 := rfl
  have first : sector = 512 := rfl
  have second : (1 + sectorsPerFat) * sector = 131584 := rfl
  rw [size] at read_table read_copy
  rw [first] at read_table
  rw [second] at read_copy
  rw [tableOf, ← read_copy, ← read_table]
  exact ⟨rfl, rfl, read_boot.symm.trans (of_decide_eq_true is_boot), same.symm,
    of_decide_eq_true start⟩

/-- There is a payload for every name. -/
lemma externalRows_eq_ok {root : String → Option (List UInt8)}
    {names : List (String × List UInt8)} {payloads : List (List UInt8)}
    (h : externalRows root names p = (.ok payloads, q)) :
    q = p ∧ payloads.length = names.length := by
  induction names generalizing payloads with
  | nil =>
    cases h
    exact ⟨rfl, rfl⟩
  | cons name names ih =>
    obtain ⟨name, short⟩ := name
    rw [externalRows] at h
    cases found : root name with
    | none =>
      simp only [found] at h
      cases h
    | some payload =>
      simp only [found] at h
      obtain ⟨nonempty, h1⟩ := require_bind_eq_ok h
      obtain ⟨rest, r, later, h2⟩ := Fallible.bind_eq_ok h1
      cases h2
      obtain ⟨same, length⟩ := ih later
      exact ⟨same, by rw [List.length_cons, List.length_cons, length]⟩

/-- A distribution has eight payloads. -/
lemma distributionExternal_eq_ok {root : Option (String → Option (List UInt8))}
    {payloads : List (List UInt8)} (h : distributionExternal root p = (.ok payloads, q)) :
    q = p ∧ payloads.length = if root.isSome then 8 else 0 := by
  cases root with
  | none =>
    cases h
    exact ⟨rfl, rfl⟩
  | some root => exact externalRows_eq_ok h

/-- How many bytes of the root directory are in use. -/
def rootUsed (root : Option (String → Option (List UInt8))) : Nat :=
  if root.isSome then 192 else 96

/-- A root directory that passes has its entries. -/
lemma checkRoot_eq_ok {modelRoot : DirEntry} {distribution : List (List UInt8)}
    (h : checkRoot external p = (.ok (modelRoot, distribution), q)) :
    q = p ∧ modelRoot = entryAt p 262720 ∧
      distribution.length = (if external.distribution.isSome then 8 else 0) ∧
      p.slice 262656 32 = entryBytes (ascii "PROMPTBOOT ") 0x08 0 0 ∧
      p.slice 262688 32 = entryBytes (ascii "EFI        ") 0x10 2 0 ∧
      (p.slice 262720 32).take 11 = ascii "MODEL   PBT" ∧ p.byte 262731 = 0x20 ∧
      ZeroRange p (262656 + rootUsed external.distribution) 279040 := by
  obtain ⟨_, r, got, h1⟩ := Fallible.bind_eq_ok h
  obtain ⟨_, rfl, rfl⟩ := parseEntry_eq_ok got
  obtain ⟨_, r, got, h2⟩ := Fallible.bind_eq_ok h1
  obtain ⟨_, rfl, rfl⟩ := parseEntry_eq_ok got
  obtain ⟨_, r, got, h3⟩ := Fallible.bind_eq_ok h2
  obtain ⟨_, rfl, rfl⟩ := parseEntry_eq_ok got
  obtain ⟨_, r, checked, h4⟩ := Fallible.bind_eq_ok h3
  obtain ⟨_, volume, rfl⟩ := requireEntry_eq_ok checked
  obtain ⟨_, r, checked, h5⟩ := Fallible.bind_eq_ok h4
  obtain ⟨_, efi, rfl⟩ := requireEntry_eq_ok checked
  obtain ⟨named, h6⟩ := require_bind_eq_ok h5
  obtain ⟨name, attributes⟩ := of_decide_eq_true named
  obtain ⟨_, r, found, h7⟩ := Fallible.bind_eq_ok h6
  obtain ⟨rfl, length⟩ := distributionExternal_eq_ok found
  obtain ⟨_, r, zero, h8⟩ := Fallible.bind_eq_ok h7
  obtain ⟨_, zero, rfl⟩ := requireZero_eq_ok zero
  cases h8
  refine ⟨rfl, rfl, length, volume, efi, name, attributes, ?_⟩
  have used : (if distribution.isEmpty then 96 else 192) = rootUsed external.distribution := by
    rw [rootUsed]
    rcases present : external.distribution with _ | files <;> rw [present] at length
    · rw [List.length_eq_zero_iff.1 length]
      rfl
    · cases distribution with
      | nil => cases length
      | cons _ _ => rfl
  rw [← used]
  exact zero

/-- An entry that passes has the bytes required. -/
lemma checkEntry_eq_ok {offset first : Nat} {name : List UInt8} {label : String} {u : Unit}
    (h : checkEntry offset name first label p = (.ok u, q)) :
    p.slice offset 32 = entryBytes name 0x10 first 0 ∧ q = p := by
  obtain ⟨_, r, got, h1⟩ := Fallible.bind_eq_ok h
  obtain ⟨_, rfl, rfl⟩ := parseEntry_eq_ok got
  obtain ⟨_, raw, rfl⟩ := requireEntry_eq_ok h1
  exact ⟨raw, rfl⟩

/-- What the directories of the EFI file hold. -/
structure EfiDirectories (image : Buffer) : Prop where
  entries : ∀ w ∈ efiDirWrites, image.slice w.1 w.2.length = w.2
  slack : ZeroRange image 279136 287232
  boot_dot : image.slice 287232 32 = entryBytes (ascii ".          ") 0x10 3 0
  boot_dotdot : image.slice 287264 32 = entryBytes (ascii "..         ") 0x10 2 0
  efi : image.slice 287296 32 = entryBytes (ascii "BOOTX64 EFI") 0x20 (firstAt image 287296)
    (sizeAt image 287296)
  manifest : image.slice 287328 32 = entryBytes (ascii "BUILD   JSN") 0x20
    (firstAt image 287328) (sizeAt image 287328)
  boot_slack : ZeroRange image 287360 295424

/-- EFI directories that pass have their entries. -/
lemma checkEfiDirectories_eq_ok {efiEntry manifestEntry : DirEntry}
    (h : checkEfiDirectories p = (.ok (efiEntry, manifestEntry), q)) :
    q = p ∧ efiEntry = entryAt p 287296 ∧ manifestEntry = entryAt p 287328 ∧
      EfiDirectories p := by
  simp only [checkEfiDirectories, clusterOffset_two, clusterOffset_three,
    Fallible.pure_bind] at h
  obtain ⟨_, r, checked, h1⟩ := Fallible.bind_eq_ok h
  obtain ⟨dot, rfl⟩ := checkEntry_eq_ok checked
  obtain ⟨_, r, checked, h2⟩ := Fallible.bind_eq_ok h1
  obtain ⟨dotdot, rfl⟩ := checkEntry_eq_ok checked
  obtain ⟨_, r, checked, h3⟩ := Fallible.bind_eq_ok h2
  obtain ⟨boot, rfl⟩ := checkEntry_eq_ok checked
  obtain ⟨_, r, zero, h4⟩ := Fallible.bind_eq_ok h3
  obtain ⟨_, slack, rfl⟩ := requireZero_eq_ok zero
  obtain ⟨_, r, got, h5⟩ := Fallible.bind_eq_ok h4
  obtain ⟨_, rfl, rfl⟩ := parseEntry_eq_ok got
  obtain ⟨_, r, got, h6⟩ := Fallible.bind_eq_ok h5
  obtain ⟨_, rfl, rfl⟩ := parseEntry_eq_ok got
  obtain ⟨_, r, checked, h7⟩ := Fallible.bind_eq_ok h6
  obtain ⟨_, boot_dot, rfl⟩ := requireEntry_eq_ok checked
  obtain ⟨_, r, checked, h8⟩ := Fallible.bind_eq_ok h7
  obtain ⟨_, boot_dotdot, rfl⟩ := requireEntry_eq_ok checked
  obtain ⟨_, r, got, h9⟩ := Fallible.bind_eq_ok h8
  obtain ⟨_, rfl, rfl⟩ := parseEntry_eq_ok got
  obtain ⟨_, r, got, h10⟩ := Fallible.bind_eq_ok h9
  obtain ⟨_, rfl, rfl⟩ := parseEntry_eq_ok got
  obtain ⟨_, h11⟩ := require_bind_eq_ok h10
  obtain ⟨_, r, checked, h12⟩ := Fallible.bind_eq_ok h11
  obtain ⟨_, efi, rfl⟩ := requireEntry_eq_ok checked
  obtain ⟨_, r, checked, h13⟩ := Fallible.bind_eq_ok h12
  obtain ⟨_, manifest, rfl⟩ := requireEntry_eq_ok checked
  obtain ⟨_, r, zero, h14⟩ := Fallible.bind_eq_ok h13
  obtain ⟨_, boot_slack, rfl⟩ := requireZero_eq_ok zero
  cases h14
  refine ⟨rfl, rfl, rfl, ?_, slack, boot_dot, boot_dotdot, efi, manifest, boot_slack⟩
  intro w mem
  simp only [efiDirWrites, List.mem_cons, List.not_mem_nil, or_false] at mem
  rcases mem with rfl | rfl | rfl
  · rw [length_entryBytes (by decide)]
    exact dot
  · rw [length_entryBytes (by decide)]
    exact dotdot
  · rw [length_entryBytes (by decide)]
    exact boot

/-- An extent whose clusters are chained, with zeros behind the size of what is in it. -/
structure FileAt (image : Buffer) (first size : Nat) : Prop where
  pos : 0 < size
  le : 2 ≤ first
  stop : first + clusterCount size ≤ 65503
  linked : ∀ cluster, Within (first, clusterCount size) cluster →
    fatAt image cluster = link (first, clusterCount size) cluster
  slack : ZeroRange image (offsetOf first + size) (offsetOf first + clusterCount size * 8192)

/-- A file that can be read whole with its slack is within the image. -/
lemma fileAt_of_facts {first size : Nat} (length : p.length = imageBytes) (pos : 0 < size)
    (le : 2 ≤ first)
    (linked : ∀ cluster, Within (first, clusterCount size) cluster →
      fatAt p cluster = link (first, clusterCount size) cluster)
    (inside : offsetOf first + size ≤ p.length)
    (slack : ZeroRange p (offsetOf first + size) (offsetOf first + clusterCount size * 8192)) :
    FileAt p first size := by
  refine ⟨pos, le, ?_, linked, slack⟩
  have whole := le_clusterCount size
  have stop : offsetOf first + clusterCount size * 8192 ≤ p.length := by
    by_cases full : size = clusterCount size * 8192
    · omega
    · have last := (slack (offsetOf first + clusterCount size * 8192 - 1) (by omega) (by omega)).1
      omega
  rw [length] at stop
  simp only [offsetOf, imageBytes] at stop
  omega

/-- A file's clusters. -/
abbrev clustersOf (first size : Nat) : List Nat := List.range' first (clusterCount size)

/-- A payload that is not empty has a cluster. -/
lemma clusterCount_pos {size : Nat} (pos : 0 < size) : 0 < clusterCount size := by
  unfold clusterCount
  omega

/-- The first of consecutive clusters. -/
lemma head_range' {first count : Nat} (pos : 0 < count) :
    (List.range' first count).head? = some first := by
  obtain ⟨n, rfl⟩ : ∃ n, count = n + 1 := ⟨count - 1, by omega⟩
  rfl

/-- The last of consecutive clusters. -/
lemma getLast_range' {first count : Nat} (pos : 0 < count) :
    (List.range' first count).getLast? = some (first + count - 1) := by
  obtain ⟨n, rfl⟩ : ∃ n, count = n + 1 := ⟨count - 1, by omega⟩
  rw [List.range'_1_concat, List.getLast?_concat]
  rfl

/-- EFI files that pass are embedded. -/
lemma checkEfiFiles_eq_ok {efiChain manifestChain : List Nat} (length : p.length = imageBytes)
    (h : checkEfiFiles external (tableOf p) (entryAt p 287296) (entryAt p 287328) p =
      (.ok (efiChain, manifestChain), q)) :
    q = p ∧ efiChain = clustersOf (firstAt p 287296) (sizeAt p 287296) ∧
      manifestChain = clustersOf (firstAt p 287328) (sizeAt p 287328) ∧
      firstAt p 287296 = 4 ∧ firstAt p 287328 = 4 + clusterCount (sizeAt p 287296) ∧
      FileAt p (firstAt p 287296) (sizeAt p 287296) ∧
      FileAt p (firstAt p 287328) (sizeAt p 287328) := by
  rw [checkEfiFiles] at h
  obtain ⟨_, r, chained, h1⟩ := Fallible.bind_eq_ok h
  obtain ⟨rfl, efi_pos, rfl, efi_le, _, efi_linked⟩ := inspectChain_eq_ok chained
  obtain ⟨_, r, chained, h2⟩ := Fallible.bind_eq_ok h1
  obtain ⟨rfl, manifest_pos, rfl, manifest_le, _, manifest_linked⟩ := inspectChain_eq_ok chained
  obtain ⟨order, h3⟩ := require_bind_eq_ok h2
  obtain ⟨efi_first, manifest_first⟩ := of_decide_eq_true order
  obtain ⟨_, r, placed, h4⟩ := Fallible.bind_eq_ok h3
  obtain ⟨_, rfl, rfl⟩ := clusterOffset_eq_ok placed
  obtain ⟨_, r, placed, h5⟩ := Fallible.bind_eq_ok h4
  obtain ⟨_, rfl, rfl⟩ := clusterOffset_eq_ok placed
  obtain ⟨_, r, zero, h6⟩ := Fallible.bind_eq_ok h5
  obtain ⟨_, efi_slack, rfl⟩ := requireZero_eq_ok zero
  obtain ⟨_, r, zero, h7⟩ := Fallible.bind_eq_ok h6
  obtain ⟨_, manifest_slack, rfl⟩ := requireZero_eq_ok zero
  obtain ⟨_, r, got, h8⟩ := Fallible.bind_eq_ok h7
  obtain ⟨manifest_inside, _, rfl⟩ := readAt_eq_ok got
  obtain ⟨_, h9⟩ := require_bind_eq_ok h8
  obtain ⟨_, h10⟩ := require_bind_eq_ok h9
  obtain ⟨_, h11⟩ := require_bind_eq_ok h10
  obtain ⟨same, r, matched, h12⟩ := Fallible.bind_eq_ok h11
  obtain ⟨held, h13⟩ := require_bind_eq_ok h12
  rw [held] at matched
  obtain ⟨efi_inside, _, rfl⟩ := rangeMatchesPath_eq_ok matched
  cases h13
  have efi_count := clusterCount_pos efi_pos
  have manifest_count := clusterCount_pos manifest_pos
  rw [List.length_range'] at efi_slack manifest_slack
  rw [head_range' efi_count] at efi_first
  rw [head_range' manifest_count, getLast_range' efi_count, Option.bind_some] at manifest_first
  have efi_first : firstAt q 287296 = 4 := Option.some.inj efi_first
  have manifest_first : firstAt q 287328 = 4 + clusterCount (sizeAt q 287296) := by
    split at manifest_first
    case isTrue fits =>
      have same := Option.some.inj manifest_first
      simp only [entryAt] at same efi_count
      omega
    case isFalse _ => cases manifest_first
  exact ⟨rfl, rfl, rfl, efi_first, manifest_first,
    fileAt_of_facts length efi_pos efi_le efi_linked (efi_inside efi_pos) efi_slack,
    fileAt_of_facts length manifest_pos manifest_le manifest_linked manifest_inside
      manifest_slack⟩

/-- A model that passes is embedded. -/
lemma checkModel_eq_ok {first count : Nat} {modelChain : List Nat} (pos : 0 < count)
    (length : p.length = imageBytes)
    (h : checkModel external (tableOf p) (entryAt p 262720) (List.range' first count) p =
      (.ok modelChain, q)) :
    q = p ∧ modelChain = clustersOf (firstAt p 262720) modelBytes ∧
      sizeAt p 262720 = modelBytes ∧ firstAt p 262720 = first + count ∧
      FileAt p (firstAt p 262720) modelBytes := by
  rw [checkModel] at h
  obtain ⟨size, h1⟩ := require_bind_eq_ok h
  have size := of_decide_eq_true size
  obtain ⟨_, r, after, h2⟩ := Fallible.bind_eq_ok h1
  obtain ⟨rfl, _, rfl⟩ := afterChain_eq_ok pos after
  obtain ⟨first_eq, h3⟩ := require_bind_eq_ok h2
  have first_eq := of_decide_eq_true first_eq
  obtain ⟨_, h4⟩ := require_bind_eq_ok h3
  obtain ⟨_, r, chained, h5⟩ := Fallible.bind_eq_ok h4
  obtain ⟨rfl, model_pos, rfl, le, _, linked⟩ := inspectChain_eq_ok chained
  obtain ⟨_, h6⟩ := require_bind_eq_ok h5
  obtain ⟨_, r, placed, h7⟩ := Fallible.bind_eq_ok h6
  obtain ⟨_, rfl, rfl⟩ := clusterOffset_eq_ok placed
  obtain ⟨same, r, matched, h8⟩ := Fallible.bind_eq_ok h7
  obtain ⟨held, h9⟩ := require_bind_eq_ok h8
  rw [held] at matched
  obtain ⟨inside, _, rfl⟩ := rangeMatchesPath_eq_ok matched
  obtain ⟨embedded, r, got, h10⟩ := Fallible.bind_eq_ok h9
  obtain ⟨_, _, rfl⟩ := readAt_eq_ok got
  obtain ⟨_, h11⟩ := require_bind_eq_ok h10
  obtain ⟨_, r, zero, h12⟩ := Fallible.bind_eq_ok h11
  obtain ⟨_, slack, rfl⟩ := requireZero_eq_ok zero
  cases h12
  rw [List.length_range'] at slack
  exact ⟨rfl, rfl, size, first_eq,
    fileAt_of_facts length model_pos le linked (inside model_pos) slack⟩

/-- Every cluster that nothing has is free in the table. -/
lemma checkOrphans_eq_ok {allocated : List Nat} {left cluster : Nat} {u : Unit}
    (h : checkOrphans (tableOf p) allocated left cluster p = (.ok u, q)) :
    q = p ∧ ∀ c, cluster ≤ c → c < cluster + left → c ∉ allocated → fatAt p c = 0 := by
  induction left generalizing cluster with
  | zero =>
    cases h
    exact ⟨rfl, fun c above below => absurd below (by omega)⟩
  | succ left ih =>
    obtain ⟨value, r, got, h1⟩ := Fallible.bind_eq_ok h
    obtain ⟨rfl, rfl⟩ := le16At_table got
    obtain ⟨free, h2⟩ := require_bind_eq_ok h1
    obtain ⟨same, rest⟩ := ih h2
    refine ⟨same, fun c above below nowhere => ?_⟩
    by_cases here : c = cluster
    · subst here
      simpa [nowhere] using free
    · exact rest c (by omega) (by omega) nowhere

/-- What lies in no allocated cluster, up to where the cursor ends, is zero. -/
lemma checkGaps_eq_ok {allocated : List Nat} {cursor stop : Nat}
    (h : checkGaps allocated cursor p = (.ok stop, q)) :
    q = p ∧ ∀ i, cursor ≤ i → i < stop →
      (∀ c ∈ allocated, ¬(offsetOf c ≤ i ∧ i < offsetOf c + 8192)) → p.byte i = 0 := by
  induction allocated generalizing cursor with
  | nil =>
    cases h
    exact ⟨rfl, fun i above below => absurd below (by omega)⟩
  | cons cluster allocated ih =>
    obtain ⟨offset, r, placed, h1⟩ := Fallible.bind_eq_ok h
    obtain ⟨_, rfl, rfl⟩ := clusterOffset_eq_ok placed
    obtain ⟨_, s, gap, h2⟩ := Fallible.bind_eq_ok h1
    have before : s = r ∧ ∀ i, cursor ≤ i → i < offsetOf cluster → r.byte i = 0 := by
      rw [checkGap] at gap
      split at gap
      case isTrue _ =>
        obtain ⟨_, zero, unchanged⟩ := requireZero_eq_ok gap
        exact ⟨unchanged, fun i above below => (zero i above below).2⟩
      case isFalse _ =>
        cases gap
        exact ⟨rfl, fun i above below => absurd below (by omega)⟩
    obtain ⟨rfl, before⟩ := before
    obtain ⟨rfl, rest⟩ := ih h2
    refine ⟨rfl, fun i above below nowhere => ?_⟩
    have outside := nowhere cluster List.mem_cons_self
    by_cases early : i < offsetOf cluster
    · exact before i above early
    · refine rest i ?_ below fun c mem => nowhere c (List.mem_cons_of_mem _ mem)
      simp only [clusterBytes]
      omega

end Stages

end Promptboot.Image
