import Promptboot.Tools.InspectExact

/-!
# Where the image inspector's arithmetic is exact

`Matches` relates a stage with exact arithmetic to the inspector's: they do the same, and do not
panic. Offsets and sizes come from 16-bit cluster numbers and 32-bit sizes, so that 64 bits hold
them; a file that was compared with its external one ends within the image, so that 16 bits hold
the number of the cluster behind it.

There is a lemma for each stage, `safe_` where no number of it can overflow and `matches_` where the
exact one is compared, with `Matches.bind` and `Matches.fit` as the rules. `FitsBehind` is the fact
about the two files that the later stages need.
-/

namespace Promptboot.Image
open Buffer

section Matching
variable {α β : Type} {p : Buffer}

/-- The exact computation and the code's do the same, and do not panic. -/
def Matches (c d : Make α) (p : Buffer) : Prop := c p = d p ∧ (d p).1 ≠ .error .fault

abbrev Safe (c : Make α) (p : Buffer) : Prop := Matches c c p

/-- A value alone is safe. -/
lemma Matches.pure {a : α} : Safe (Pure.pure a : Make α) p := ⟨rfl, nofun⟩

/-- An error is safe. -/
lemma Matches.fileError {message : String} : Safe (fileError message : Make α) p :=
  ⟨rfl, nofun⟩

/-- Parts that match match in succession. -/
lemma Matches.bind {c d : Make α} {f g : α → Make β} (first : Matches c d p)
    (rest : ∀ a q, d p = (.ok a, q) → Matches (f a) (g a) q) : Matches (c >>= f) (d >>= g) p := by
  obtain ⟨same, safe⟩ := first
  rcases run : d p with ⟨e | a, q⟩
  · rw [run] at same safe
    rw [Matches, Fallible.bind_error same, Fallible.bind_error run]
    exact ⟨rfl, fun fault => safe (congrArg Except.error (Except.error.inj fault))⟩
  · rw [run] at same
    rw [Matches, Fallible.bind_ok same, Fallible.bind_ok run]
    exact rest a q run

/-- A requirement is safe. -/
lemma Matches.require {holds : Bool} {message : String} : Safe (require holds message) p := by
  cases holds with
  | false => exact .fileError
  | true => exact .pure

/-- Behind a requirement the state is the same. -/
lemma Matches.require_bind {holds : Bool} {message : String} {f g : Unit → Make β}
    (rest : holds = true → Matches (f ()) (g ()) p) :
    Matches (Promptboot.require holds message >>= f) (Promptboot.require holds message >>= g)
      p := by
  refine .bind .require fun u q run => ?_
  obtain ⟨held, rfl⟩ := require_eq_ok run
  exact rest held

/-- A number that fits is computed exactly. -/
lemma Matches.fit {bits value : Nat} {f : Nat → Make β} {d : Make β} (lt : value < 2 ^ bits)
    (rest : Matches (f value) d p) : Matches (Exact.fit bits value >>= f) d p := by
  rwa [Matches, Fallible.bind_ok (show Exact.fit bits value p = (.ok value, p) by
    rw [Exact.fit, if_pos lt]; rfl)]

end Matching

section Reads
variable {p : Buffer}

/-- A half word has 16 bits. -/
lemma u16At_lt (b : Buffer) (offset : Nat) : u16At b offset < 2 ^ 16 := by
  have low := (b.byte offset).toNat_lt
  have high := (b.byte (offset + 1)).toNat_lt
  rw [u16At]
  omega

/-- A size has 32 bits. -/
lemma sizeAt_lt (b : Buffer) (offset : Nat) : sizeAt b offset < 2 ^ 32 := by
  have low := u16At_lt b (offset + 28)
  have high := u16At_lt b (offset + 30)
  rw [sizeAt]
  omega

/-- A read is safe. -/
lemma safe_readAt {offset length : Nat} : Safe (readAt offset length) p := by
  refine ⟨rfl, ?_⟩
  rw [readAt]
  split <;> intro wrong <;> cases wrong

/-- A half word within the bytes is safe. -/
lemma safe_le16At {bytes : List UInt8} {offset : Nat} (inside : offset + 2 ≤ bytes.length) :
    Safe (le16At bytes offset) p := by
  rw [le16At, if_pos inside]
  exact .pure

/-- Parsing an entry is safe. -/
lemma safe_parseEntry {offset : Nat} : Safe (parseEntry offset) p := by
  refine .bind safe_readAt fun bytes q read => ?_
  obtain ⟨-, rfl, rfl⟩ := readAt_eq_ok read
  have inside {i : Nat} (lt : i + 2 ≤ 32) (r : Buffer) : Safe (le16At (q.slice offset 32) i) r :=
    safe_le16At (by rwa [length_slice])
  refine .bind (inside (by decide) _) fun _ _ _ => .bind (inside (by decide) _) fun _ _ _ => ?_
  exact .bind (inside (by decide) _) fun _ _ _ => .pure

/-- Requiring an entry is safe. -/
lemma safe_requireEntry {actual : DirEntry} {name : List UInt8} {attributes : UInt8}
    {first size : Nat} {label : String} :
    Safe (requireEntry actual name attributes first size label) p := by
  refine .bind ?_ fun _ _ _ => .require
  rw [entry]
  split
  · exact .pure
  · exact .fileError

/-- The search for a byte that is not zero is safe. -/
lemma safe_zeroLoop {label : String} {position remaining : Nat} :
    Safe (zeroLoop label position remaining) p := by
  induction remaining using Nat.strongRecOn generalizing position p with
  | ind remaining ih =>
    rw [zeroLoop]
    split
    · exact .pure
    · refine .bind safe_readAt fun _ q _ => .require_bind fun _ => ih _ (by omega)

/-- Requiring zeros is safe. -/
lemma safe_requireZero {start stop : Nat} {label : String} :
    Safe (requireZero start stop label) p :=
  .require_bind fun _ => safe_zeroLoop

/-- Comparing bytes is safe. -/
lemma safe_matchLoop {position remaining : Nat} {external : List UInt8} :
    Safe (matchLoop position external remaining) p := by
  induction remaining using Nat.strongRecOn generalizing position external p with
  | ind remaining ih =>
    rw [matchLoop]
    split
    · exact .pure
    · refine .bind safe_readAt fun _ q _ => ?_
      split
      · exact .pure
      · exact ih _ (by omega)

/-- Comparing with a file is safe. -/
lemma safe_rangeMatchesPath {offset length : Nat} {external : List UInt8} :
    Safe (rangeMatchesPath offset length external) p := by
  rw [rangeMatchesPath]
  split
  · exact .pure
  · exact safe_matchLoop

/-- Counting clusters is safe. -/
lemma safe_clusters {size : Nat} : Safe (clusters size) p := by
  rw [clusters]
  split_ifs
  · exact .fileError
  · exact .pure
  · exact .fileError

/-- The offset of a cluster is exact. -/
lemma matches_clusterOffset {cluster : Nat} (lt : cluster < 2 ^ 16) :
    Matches (Exact.clusterOffset cluster) (clusterOffset cluster) p := by
  rw [Exact.clusterOffset, clusterOffset]
  split
  · exact .fileError
  · refine .fit (by simp only [clusterBytes]; omega) ?_
    rw [Exact.fit, if_pos (by simp only [dataStart, sector, clusterBytes]; omega)]
    exact .pure

/-- An offset has 30 bits. -/
lemma offsetOf_lt {cluster : Nat} (lt : cluster < 2 ^ 16) : offsetOf cluster < 2 ^ 30 := by
  rw [offsetOf]
  omega

/-- The zeros behind a file of a 32-bit size. -/
lemma matches_requireSlack {cluster size count : Nat} {label : String} (first : cluster < 2 ^ 16)
    (fits : size < 2 ^ 32) (small : count < 2 ^ 32) :
    Matches (Exact.requireSlack (offsetOf cluster) size count label)
      (requireZero (offsetOf cluster + size) (offsetOf cluster + count * clusterBytes) label)
      p := by
  have bound := offsetOf_lt first
  refine .fit (by omega) (.fit (by simp only [clusterBytes]; omega) ?_)
  exact .fit (by simp only [clusterBytes]; omega) safe_requireZero

end Reads

section Chains
variable {p : Buffer}

/-- A count of clusters has 20 bits. -/
lemma clusterCount_lt {size : Nat} (fits : size < 2 ^ 32) : clusterCount size < 2 ^ 20 := by
  rw [clusterCount]
  omega

/-- An entry of the table is read exactly. -/
lemma matches_tableEntry {cluster : Nat} (le : cluster ≤ 65535) :
    Matches (Exact.tableEntry (tableOf p) cluster) (le16At (tableOf p) (cluster * 2)) p :=
  .fit (by omega) (.fit (by omega) (safe_le16At (by rw [length_slice]; omega)))

/-- The entry wanted is safe. -/
lemma safe_wantedEntry {count index current : Nat} {label : String} :
    Safe (wantedEntry count index current label) p := by
  rw [wantedEntry, checkedAdd16]
  split_ifs
  · exact .pure
  · exact .pure
  · exact .fileError

/-- The rest of a chain is followed exactly. -/
lemma matches_chainLoop {count left index current : Nat} {label : String}
    (total : index + left < 2 ^ 64) :
    Matches (Exact.chainLoop (tableOf p) count label left index current)
      (chainLoop (tableOf p) count label left index current) p := by
  induction left generalizing index current with
  | zero => exact .pure
  | succ left ih =>
    refine .require_bind fun range => ?_
    have range := of_decide_eq_true range
    refine .bind (matches_tableEntry range.2) fun following q read => ?_
    obtain ⟨-, rfl⟩ := le16At_table read
    refine .fit (by omega) (.bind safe_wantedEntry fun wanted r want => ?_)
    obtain ⟨-, rfl⟩ := wantedEntry_eq_ok want
    refine .require_bind fun _ => ?_
    exact .bind (ih (by omega)) fun _ _ _ => .pure

/-- A chain is followed exactly. -/
lemma matches_inspectChain {first size : Nat} {label : String} (fits : size < 2 ^ 32) :
    Matches (Exact.inspectChain (tableOf p) first size label)
      (inspectChain (tableOf p) first size label) p := by
  refine .bind safe_clusters fun count q counted => ?_
  obtain ⟨-, rfl, rfl⟩ := clusters_eq_ok counted
  have small := clusterCount_lt fits
  exact matches_chainLoop (by omega)

/-- A sum that fits is safe. -/
lemma safe_add16 {a b : Nat} (fits : a + b < 2 ^ 16) : Safe (add16 a b) p := by
  rw [add16, if_pos fits]
  exact .pure

/-- What is behind a chain is safe. -/
lemma safe_afterChain {first count : Nat} (pos : 0 < count) (stop : first + count < 2 ^ 16) :
    Safe (afterChain (List.range' first count)) p := by
  rw [afterChain, getLast_range' pos]
  exact safe_add16 (by omega)

/-- Reading the external rows is safe. -/
lemma safe_externalRows {root : String → Option (List UInt8)} {names : List (String × List UInt8)} :
    Safe (externalRows root names) p := by
  induction names generalizing p with
  | nil => exact .pure
  | cons name names ih =>
    obtain ⟨name, short⟩ := name
    rw [externalRows]
    cases root name with
    | none => exact .fileError
    | some payload => exact .require_bind fun _ => .bind ih fun _ _ _ => .pure

end Chains

section Stages
variable {p : Buffer} {external : External}

/-- The checks of the tables are safe. -/
lemma safe_checkTables : Safe checkTables p :=
  .bind safe_readAt fun _ _ _ => .require_bind fun _ => .bind safe_readAt fun _ _ _ =>
    .bind safe_readAt fun _ _ _ => .require_bind fun _ => .require_bind fun _ => .pure

/-- The checks of the root directory are safe. -/
lemma safe_checkRoot : Safe (checkRoot external) p := by
  refine .bind safe_parseEntry fun _ _ _ => .bind safe_parseEntry fun _ _ _ => ?_
  refine .bind safe_parseEntry fun _ _ _ => .bind safe_requireEntry fun _ _ _ => ?_
  refine .bind safe_requireEntry fun _ _ _ => .require_bind fun _ => .bind ?_ fun _ _ _ => ?_
  · cases external.distribution with
    | none => exact .pure
    | some root => exact safe_externalRows
  · exact .bind safe_requireZero fun _ _ _ => .pure

/-- The check of an entry is safe. -/
lemma safe_checkEntry {offset first : Nat} {name : List UInt8} {label : String} :
    Safe (checkEntry offset name first label) p :=
  .bind safe_parseEntry fun _ _ _ => safe_requireEntry

/-- The checks of the EFI directories are safe. -/
lemma safe_checkEfiDirectories : Safe checkEfiDirectories p := by
  simp only [checkEfiDirectories, clusterOffset_two, clusterOffset_three, Fallible.pure_bind]
  refine .bind safe_checkEntry fun _ _ _ => .bind safe_checkEntry fun _ _ _ => ?_
  refine .bind safe_checkEntry fun _ _ _ => .bind safe_requireZero fun _ _ _ => ?_
  refine .bind safe_parseEntry fun _ _ _ => .bind safe_parseEntry fun _ _ _ => ?_
  refine .bind safe_requireEntry fun _ _ _ => .bind safe_requireEntry fun _ _ _ => ?_
  refine .bind safe_parseEntry fun _ _ _ => .bind safe_parseEntry fun _ _ _ => ?_
  refine .require_bind fun _ => .bind safe_requireEntry fun _ _ _ => ?_
  exact .bind safe_requireEntry fun _ _ _ => .bind safe_requireZero fun _ _ _ => .pure

/-- The checks of the EFI files are exact. -/
lemma matches_checkEfiFiles :
    Matches (Exact.checkEfiFiles external (tableOf p) (entryAt p 287296) (entryAt p 287328))
      (checkEfiFiles external (tableOf p) (entryAt p 287296) (entryAt p 287328)) p := by
  have efi_size : (entryAt p 287296).size < 2 ^ 32 := sizeAt_lt p 287296
  have manifest_size : (entryAt p 287328).size < 2 ^ 32 := sizeAt_lt p 287328
  have efi_first : (entryAt p 287296).first < 2 ^ 16 := u16At_lt p _
  have manifest_first : (entryAt p 287328).first < 2 ^ 16 := u16At_lt p _
  have efi_count := clusterCount_lt efi_size
  have manifest_count := clusterCount_lt manifest_size
  rw [Exact.checkEfiFiles, checkEfiFiles]
  refine .bind (matches_inspectChain efi_size) fun _ q chained => ?_
  obtain ⟨rfl, -, rfl, -⟩ := inspectChain_eq_ok chained
  refine .bind (matches_inspectChain manifest_size) fun _ q chained => ?_
  obtain ⟨rfl, -, rfl, -⟩ := inspectChain_eq_ok chained
  refine .require_bind fun _ => ?_
  refine .bind (matches_clusterOffset efi_first) fun _ q placed => ?_
  obtain ⟨-, rfl, rfl⟩ := clusterOffset_eq_ok placed
  refine .bind (matches_clusterOffset manifest_first) fun _ q placed => ?_
  obtain ⟨-, rfl, rfl⟩ := clusterOffset_eq_ok placed
  rw [List.length_range', List.length_range']
  refine .bind (matches_requireSlack efi_first efi_size (by omega)) fun _ _ _ => ?_
  refine .bind (matches_requireSlack manifest_first manifest_size (by omega)) fun _ _ _ => ?_
  refine .bind safe_readAt fun _ _ _ => .require_bind fun _ => .require_bind fun _ => ?_
  refine .require_bind fun _ => .bind safe_rangeMatchesPath fun _ _ _ => ?_
  exact .require_bind fun _ => .pure

/-- The checks of the model are exact. -/
lemma matches_checkModel {first count : Nat} (pos : 0 < count) (stop : first + count < 2 ^ 16) :
    Matches (Exact.checkModel external (tableOf p) (entryAt p 262720) (List.range' first count))
      (checkModel external (tableOf p) (entryAt p 262720) (List.range' first count)) p := by
  have model_first : (entryAt p 262720).first < 2 ^ 16 := u16At_lt p _
  rw [Exact.checkModel, checkModel]
  refine .require_bind fun _ => .bind (safe_afterChain pos stop) fun _ q after => ?_
  obtain ⟨-, -, rfl⟩ := afterChain_eq_ok pos after
  refine .require_bind fun _ => .require_bind fun _ => ?_
  refine .bind (matches_inspectChain (by decide)) fun _ q chained => ?_
  obtain ⟨rfl, -, rfl, -⟩ := inspectChain_eq_ok chained
  refine .require_bind fun _ => .bind (matches_clusterOffset model_first) fun _ q placed => ?_
  obtain ⟨-, rfl, rfl⟩ := clusterOffset_eq_ok placed
  refine .bind safe_rangeMatchesPath fun _ _ _ => .require_bind fun _ => ?_
  refine .bind safe_readAt fun _ _ _ => .require_bind fun _ => ?_
  rw [List.length_range']
  exact .bind (matches_requireSlack model_first (by decide) (by decide)) fun _ _ _ => .pure

/-- The search for orphans is exact. -/
lemma matches_checkOrphans {allocated : List Nat} {left cluster : Nat}
    (bound : cluster + left ≤ 65536) :
    Matches (Exact.checkOrphans (tableOf p) allocated left cluster)
      (checkOrphans (tableOf p) allocated left cluster) p := by
  induction left generalizing cluster with
  | zero => exact .pure
  | succ left ih =>
    refine .bind (matches_tableEntry (by omega)) fun _ q read => ?_
    obtain ⟨-, rfl⟩ := le16At_table read
    exact .require_bind fun _ => ih (by omega)

/-- The search for gaps is exact. -/
lemma matches_checkGaps {allocated : List Nat} {cursor : Nat}
    (small : ∀ cluster ∈ allocated, cluster < 2 ^ 16) :
    Matches (Exact.checkGaps allocated cursor) (checkGaps allocated cursor) p := by
  induction allocated generalizing cursor p with
  | nil => exact .pure
  | cons cluster allocated ih =>
    have here := small cluster List.mem_cons_self
    refine .bind (matches_clusterOffset here) fun _ q placed => ?_
    obtain ⟨-, rfl, rfl⟩ := clusterOffset_eq_ok placed
    have bound := offsetOf_lt here
    refine .bind ?_ fun _ _ _ => .fit (by simp only [clusterBytes]; omega)
      (ih fun other mem => small other (List.mem_cons_of_mem _ mem))
    rw [checkGap]
    split
    · exact safe_requireZero
    · exact .pure

end Stages

section Distribution
variable {p : Buffer}

/-- The clusters of the two files in the root directory fit behind `after`. -/
def FitsBehind (after license source : Nat) : Prop :=
  license ≠ 0 → after + clusterCount license + clusterCount source < 2 ^ 16

/-- Sizes that fit behind the model are checked exactly. -/
lemma matches_checkLicenses {after : Nat} {licenseRoot sourceRoot : DirEntry}
    (fits : FitsBehind after licenseRoot.size sourceRoot.size) :
    Matches (Exact.checkLicenses after licenseRoot sourceRoot)
      (checkLicenses after licenseRoot sourceRoot) p := by
  rw [Exact.checkLicenses, checkLicenses]
  refine .bind safe_parseEntry fun _ q parsed => ?_
  obtain ⟨-, rfl, rfl⟩ := parseEntry_eq_ok parsed
  have first : (entryAt q (root + 160)).first < 2 ^ 16 := u16At_lt q _
  refine .bind safe_clusters fun _ r counted => ?_
  obtain ⟨pos, rfl, rfl⟩ := clusters_eq_ok counted
  have fits := fits (Nat.ne_of_gt pos)
  refine .fit (by omega) ?_
  rw [Nat.mod_eq_of_lt (show clusterCount licenseRoot.size < 2 ^ 16 by omega)]
  refine .bind (safe_add16 (by omega)) fun _ s added => ?_
  obtain ⟨-, rfl, rfl⟩ := add16_eq_ok added
  refine .bind safe_clusters fun _ t counted => ?_
  obtain ⟨-, rfl, rfl⟩ := clusters_eq_ok counted
  refine .fit (by omega) ?_
  rw [Nat.mod_eq_of_lt (show clusterCount sourceRoot.size < 2 ^ 16 by omega)]
  refine .bind (safe_add16 fits) fun _ u added => .require_bind fun _ => ?_
  obtain ⟨-, rfl, rfl⟩ := add16_eq_ok added
  refine .bind (matches_clusterOffset first) fun _ v placed => ?_
  obtain ⟨-, rfl, rfl⟩ := clusterOffset_eq_ok placed
  have bound := offsetOf_lt first
  refine .bind safe_parseEntry fun _ _ _ => .fit (by omega) ?_
  refine .bind safe_parseEntry fun _ _ _ => .bind safe_requireEntry fun _ _ _ => ?_
  exact .bind safe_requireEntry fun _ _ _ => .pure

/-- The checks of the licenses' entries are exact. -/
lemma matches_checkLicenseEntries {directory index : Nat} {names : List (String × List UInt8)}
    {payloads : List (List UInt8)} (small : directory < 2 ^ 30)
    (few : index + names.length ≤ 2 ^ 16) :
    Matches (Exact.checkLicenseEntries directory index names payloads)
      (checkLicenseEntries directory index names payloads) p := by
  induction names generalizing index payloads p with
  | nil =>
    cases payloads <;> exact .pure
  | cons name names ih =>
    cases payloads with
    | nil => exact .pure
    | cons payload payloads =>
      obtain ⟨name, short⟩ := name
      rw [List.length_cons] at few
      refine .fit (by omega) (.fit (by omega) (.bind safe_parseEntry fun _ _ _ => ?_))
      exact .require_bind fun _ => .bind (ih (by omega)) fun _ _ _ => .pure

/-- What the licenses directory lists are entries of the image. -/
lemma checkLicenseEntries_items {directory index : Nat} {names : List (String × List UInt8)}
    {payloads : List (List UInt8)} {rows : List InspectedRow} {q : Buffer}
    (h : checkLicenseEntries directory index names payloads p = (.ok rows, q)) :
    q = p ∧ ∀ row ∈ rows, ∃ place, row.item = entryAt p place := by
  induction names generalizing index payloads rows with
  | nil =>
    cases payloads <;> cases h <;> exact ⟨rfl, nofun⟩
  | cons name names ih =>
    cases payloads with
    | nil =>
      cases h
      exact ⟨rfl, nofun⟩
    | cons payload payloads =>
      obtain ⟨name, short⟩ := name
      rw [checkLicenseEntries] at h
      obtain ⟨item, r, got, h1⟩ := Fallible.bind_eq_ok h
      obtain ⟨_, rfl, rfl⟩ := parseEntry_eq_ok got
      obtain ⟨_, h2⟩ := require_bind_eq_ok h1
      obtain ⟨rest, r, later, h3⟩ := Fallible.bind_eq_ok h2
      cases h3
      obtain ⟨rfl, items⟩ := ih later
      refine ⟨rfl, fun row mem => ?_⟩
      rcases List.mem_cons.1 mem with rfl | mem
      · exact ⟨_, rfl⟩
      · exact items row mem

/-- A file's clusters end within the image, so there is a number behind the last one, and room for
the licenses directory. -/
lemma matches_checkRows {index next : Nat} {rows : List InspectedRow}
    (length : p.length = imageBytes) (small : next ≤ 65503)
    (items : ∀ row ∈ rows, ∃ place, row.item = entryAt p place) :
    Matches (Exact.checkRows (tableOf p) index rows next) (checkRows (tableOf p) index rows next)
      p := by
  induction rows generalizing index next with
  | nil => exact .pure
  | cons row rows ih =>
    obtain ⟨place, item⟩ := items row List.mem_cons_self
    have size : row.item.size < 2 ^ 32 := item ▸ sizeAt_lt p place
    have first : row.item.first < 2 ^ 16 := item ▸ u16At_lt p _
    have count := clusterCount_lt size
    have skip : Safe (skipLicenses index next) p := by
      rw [skipLicenses]
      split
      · exact safe_add16 (by omega)
      · exact .pure
    refine .bind skip fun here q skipped => ?_
    obtain ⟨-, -, rfl⟩ := skipLicenses_eq_ok (by omega) skipped
    refine .bind safe_requireEntry fun _ r checked => ?_
    obtain ⟨-, -, rfl⟩ := requireEntry_eq_ok checked
    refine .bind (matches_inspectChain size) fun chain s chained => ?_
    obtain ⟨rfl, pos, rfl, le, -, linked⟩ := inspectChain_eq_ok chained
    refine .bind (matches_clusterOffset first) fun _ t placed => ?_
    obtain ⟨-, rfl, rfl⟩ := clusterOffset_eq_ok placed
    refine .bind safe_rangeMatchesPath fun same u matched => .require_bind fun held => ?_
    rw [held] at matched
    obtain ⟨inside, -, rfl⟩ := rangeMatchesPath_eq_ok matched
    rw [List.length_range']
    refine .bind (matches_requireSlack first size (by omega)) fun _ v zero => ?_
    obtain ⟨-, slack, rfl⟩ := requireZero_eq_ok zero
    have stop := (fileAt_of_facts length pos le linked (inside pos) slack).stop
    refine .bind (safe_afterChain (clusterCount_pos pos) (by omega)) fun _ w after => ?_
    obtain ⟨rfl, -, rfl⟩ := afterChain_eq_ok (clusterCount_pos pos) after
    exact .bind (ih stop fun other mem => items other (List.mem_cons_of_mem _ mem))
      fun _ _ _ => .pure

/-- The checks of the distribution's files are exact. -/
lemma matches_checkDistributionFiles {first count : Nat} {license source : String × List UInt8}
    {names : List (String × List UInt8)} {licensePayload sourcePayload : List UInt8}
    {payloads : List (List UInt8)} (length : p.length = imageBytes) (pos : 0 < count)
    (stop : first + count ≤ 65503) (few : names.length ≤ 2 ^ 16)
    (fits : FitsBehind (first + count) (sizeAt p 262752) (sizeAt p 262784)) :
    Matches
      (Exact.checkDistributionFiles (tableOf p) (List.range' first count) license source names
        licensePayload sourcePayload payloads)
      (checkDistributionFiles (tableOf p) (List.range' first count) license source names
        licensePayload sourcePayload payloads) p := by
  refine .bind safe_parseEntry fun _ q parsed => ?_
  obtain ⟨-, rfl, rfl⟩ := parseEntry_eq_ok parsed
  refine .bind safe_parseEntry fun _ q parsed => ?_
  obtain ⟨-, rfl, rfl⟩ := parseEntry_eq_ok parsed
  refine .bind (safe_afterChain pos (by omega)) fun _ q after => ?_
  obtain ⟨rfl, -, rfl⟩ := afterChain_eq_ok pos after
  refine .bind (matches_checkLicenses fits) fun _ q directory => ?_
  obtain ⟨rfl, rfl, -⟩ := checkLicenses_eq_ok directory
  have licenses : firstAt q 262816 < 2 ^ 16 := u16At_lt q _
  have bound := offsetOf_lt licenses
  refine .bind (matches_clusterOffset licenses) fun _ r placed => ?_
  obtain ⟨-, rfl, rfl⟩ := clusterOffset_eq_ok placed
  refine .bind (matches_checkLicenseEntries bound (by omega)) fun rows s read => ?_
  obtain ⟨rfl, items⟩ := checkLicenseEntries_items read
  have eight : distributionNames.length = 8 := rfl
  refine .fit (by omega) (.fit (by simp only [clusterBytes]; omega) ?_)
  refine .bind safe_requireZero fun _ t zero => ?_
  obtain ⟨-, -, rfl⟩ := requireZero_eq_ok zero
  refine .bind (matches_checkRows length stop ?_) fun _ _ _ => .pure
  intro row mem
  rcases List.mem_cons.1 mem with rfl | mem
  · exact ⟨_, rfl⟩
  rcases List.mem_cons.1 mem with rfl | mem
  · exact ⟨_, rfl⟩
  · exact items row mem

end Distribution

end Promptboot.Image
