import Promptboot.Tools.InspectStages

/-!
# What the image inspector accepts of a distribution

The files of the distribution follow each other behind the model, as the builder places them, with
their entries in the root directory and in the licenses directory.

`checkRows_eq_ok` and `checkLicenseEntries_eq_ok` are inductions on the rows, `imageItems_eq` says
that the entries are read in the order of the rows, and the headline `checkDistribution_eq_ok` gives
a `DistributionAt` for the image.
-/

namespace Promptboot.Image
open Buffer

section Rows
variable {p q : Buffer}

/-- The row of a file whose entry is at `place`. -/
def rowAt (image : Buffer) (short : List UInt8) (place : Nat) : DistributionRow :=
  ⟨short, image.slice (offsetOf (firstAt image place)) (sizeAt image place), firstAt image place,
    sizeAt image place⟩

/-- The rows that the entries of an image make. -/
def imageRows (image : Buffer) : List DistributionRow :=
  distributionNames.zipIdx.map fun (name, index) =>
    rowAt image name.2 (distributionEntry (firstAt image 262816) index)

def InspectedRow.toRow (image : Buffer) (row : InspectedRow) : DistributionRow :=
  ⟨row.short, image.slice (offsetOf row.item.first) row.item.size, row.item.first, row.item.size⟩

def DistributionRow.clusters (row : DistributionRow) : List Nat := clustersOf row.first row.size

/-- Before the third file a cluster is left for the directory. -/
lemma skipLicenses_eq_ok {index next here : Nat} (small : next < 65536)
    (h : skipLicenses index next p = (.ok here, q)) :
    here = (if index = 2 then next + 1 else next) ∧ here < 65536 ∧ q = p := by
  rw [skipLicenses] at h
  split at h
  case isTrue third =>
    obtain ⟨fits, rfl, rfl⟩ := add16_eq_ok h
    rw [if_pos third]
    exact ⟨rfl, fits, rfl⟩
  case isFalse other =>
    cases h
    rw [if_neg other]
    exact ⟨rfl, small, rfl⟩

/-- What is known of an inspected file. -/
structure RowFacts (image : Buffer) (row : InspectedRow) : Prop where
  file : FileAt image row.item.first row.item.size
  raw : row.item.raw = entryBytes row.short 0x20 row.item.first row.item.size

/-- Rows that pass are placed one after another. -/
lemma checkRows_eq_ok {index next : Nat} {rows : List InspectedRow} {chains : List Nat}
    (length : p.length = imageBytes) (small : next < 65536)
    (eleven : ∀ row ∈ rows, row.short.length = 11)
    (items : ∀ row ∈ rows, ∃ place, row.item = entryAt p place)
    (h : checkRows (tableOf p) index rows next p = (.ok chains, q)) :
    q = p ∧ (∃ stop, Placed index next (rows.map (InspectedRow.toRow p)) stop) ∧
      (∀ row ∈ rows, RowFacts p row) ∧
      chains = (rows.map (InspectedRow.toRow p)).flatMap DistributionRow.clusters := by
  induction rows generalizing index next chains with
  | nil =>
    cases h
    exact ⟨rfl, ⟨next, rfl⟩, fun _ mem => (nomatch mem), rfl⟩
  | cons row rows ih =>
    rw [checkRows] at h
    obtain ⟨here, r, skipped, h1⟩ := Fallible.bind_eq_ok h
    obtain ⟨here_eq, here_small, rfl⟩ := skipLicenses_eq_ok small skipped
    obtain ⟨_, r, checked, h2⟩ := Fallible.bind_eq_ok h1
    obtain ⟨size_fits, raw, rfl⟩ := requireEntry_eq_ok checked
    obtain ⟨chain, r, chained, h3⟩ := Fallible.bind_eq_ok h2
    obtain ⟨rfl, pos, rfl, le, _, linked⟩ := inspectChain_eq_ok chained
    obtain ⟨_, r, placed, h4⟩ := Fallible.bind_eq_ok h3
    obtain ⟨_, rfl, rfl⟩ := clusterOffset_eq_ok placed
    obtain ⟨same, r, matched, h5⟩ := Fallible.bind_eq_ok h4
    obtain ⟨held, h6⟩ := require_bind_eq_ok h5
    rw [held] at matched
    obtain ⟨inside, _, rfl⟩ := rangeMatchesPath_eq_ok matched
    obtain ⟨_, r, zero, h7⟩ := Fallible.bind_eq_ok h6
    obtain ⟨_, slack, rfl⟩ := requireZero_eq_ok zero
    obtain ⟨after, r, ended, h8⟩ := Fallible.bind_eq_ok h7
    obtain ⟨rfl, after_small, rfl⟩ := afterChain_eq_ok (clusterCount_pos pos) ended
    obtain ⟨rest, r, later, h9⟩ := Fallible.bind_eq_ok h8
    cases h9
    obtain ⟨rfl, ⟨stop, rest_placed⟩, facts, rfl⟩ := ih after_small
      (fun other mem => eleven other (List.mem_cons_of_mem _ mem))
      (fun other mem => items other (List.mem_cons_of_mem _ mem)) later
    -- the raw entry names the cluster that was expected
    have first_eq : row.item.first = here := by
      obtain ⟨place, item⟩ := items row List.mem_cons_self
      have short := eleven row List.mem_cons_self
      have bytes : q.slice place (entryBytes row.short 0x20 here row.item.size).length =
          entryBytes row.short 0x20 here row.item.size := by
        rw [length_entryBytes short, ← raw, item]
        rfl
      rw [item]
      exact firstAt_entry short here_small bytes
    rw [List.length_range'] at slack
    have file := fileAt_of_facts length pos le linked (inside pos) slack
    refine ⟨rfl, ⟨stop, ?_, ?_, pos, rest_placed⟩, ?_, rfl⟩
    · exact first_eq.trans here_eq
    · exact (length_slice _ _ _).symm
    · intro other mem
      rcases List.mem_cons.1 mem with rfl | mem
      · exact ⟨file, first_eq ▸ raw⟩
      · exact facts other mem

/-- The entries of the licenses directory as they are read. -/
def licenseItems (image : Buffer) (directory : Nat) :
    Nat → List (String × List UInt8) → List (List UInt8 × DirEntry)
  | _, [] => []
  | index, name :: names =>
    (name.2, entryAt image (directory + (index + 2) * 32)) ::
      licenseItems image directory (index + 1) names

/-- Entries that pass are those of the rows. -/
lemma checkLicenseEntries_eq_ok {directory index : Nat} {names : List (String × List UInt8)}
    {payloads : List (List UInt8)} {rows : List InspectedRow}
    (length : payloads.length = names.length)
    (h : checkLicenseEntries directory index names payloads p = (.ok rows, q)) :
    q = p ∧ rows.map (fun row => (row.short, row.item)) =
      licenseItems p directory index names := by
  induction names generalizing index payloads rows with
  | nil =>
    cases List.length_eq_zero_iff.1 length
    cases h
    exact ⟨rfl, rfl⟩
  | cons name names ih =>
    cases payloads with
    | nil => cases length
    | cons payload payloads =>
      obtain ⟨name, short⟩ := name
      rw [checkLicenseEntries] at h
      obtain ⟨item, r, got, h1⟩ := Fallible.bind_eq_ok h
      obtain ⟨_, rfl, rfl⟩ := parseEntry_eq_ok got
      obtain ⟨_, h2⟩ := require_bind_eq_ok h1
      obtain ⟨rest, r, later, h3⟩ := Fallible.bind_eq_ok h2
      cases h3
      obtain ⟨rfl, items⟩ := ih (Nat.succ.inj length) later
      refine ⟨rfl, ?_⟩
      rw [List.map_cons, items]
      rfl

/-- What an accepted image holds of a distribution that begins behind the model. -/
structure DistributionAt (image : Buffer) (first : Nat) : Prop where
  name : (image.slice 262816 32).take 11 = ascii "LICENSES   "
  attributes : image.byte 262827 = 0x10
  placed : ∃ stop, stop ≤ 65503 ∧ Placed 0 first (imageRows image) stop
  licenses : ∃ row, (imageRows image)[2]? = some row ∧ row.first = firstAt image 262816 + 1
  dot : image.slice (offsetOf (firstAt image 262816)) 32 =
    entryBytes (ascii ".          ") 0x10 (firstAt image 262816) 0
  dotdot : image.slice (offsetOf (firstAt image 262816) + 32) 32 =
    entryBytes (ascii "..         ") 0x10 0 0
  slack : ZeroRange image (offsetOf (firstAt image 262816) + 256)
    (offsetOf (firstAt image 262816) + 8192)
  raw : ∀ index row, (imageRows image)[index]? = some row →
    image.slice (distributionEntry (firstAt image 262816) index) 32 =
      entryBytes row.short 0x20 row.first row.size
  file : ∀ row ∈ imageRows image, FileAt image row.first row.size

/-- The names and the entries of the distribution's files in the image. -/
def imageItems (image : Buffer) : List (List UInt8 × DirEntry) :=
  distributionNames.zipIdx.map fun (name, index) =>
    (name.2, entryAt image (distributionEntry (firstAt image 262816) index))

/-- Rows that were read from the entries of the image are its rows. -/
lemma map_toRow {rows : List InspectedRow}
    (items : rows.map (fun row => (row.short, row.item)) = imageItems p) :
    rows.map (InspectedRow.toRow p) = imageRows p := by
  have whole := congrArg (List.map fun pair : List UInt8 × DirEntry =>
    (⟨pair.1, p.slice (offsetOf pair.2.first) pair.2.size, pair.2.first, pair.2.size⟩ :
      DistributionRow)) items
  rw [List.map_map, imageItems, List.map_map] at whole
  exact whole

/-- The names of the rows have eleven bytes. -/
lemma items_eleven {rows : List InspectedRow}
    (items : rows.map (fun row => (row.short, row.item)) = imageItems p) :
    ∀ row ∈ rows, row.short.length = 11 ∧ ∃ place, row.item = entryAt p place := by
  intro row mem
  have there : (row.short, row.item) ∈ imageItems p := items ▸ List.mem_map_of_mem mem
  obtain ⟨⟨name, index⟩, known, same⟩ := List.mem_map.1 there
  obtain ⟨short, item⟩ := Prod.mk.inj same
  refine ⟨?_, _, item.symm⟩
  rw [← short]
  exact names_eleven name (List.fst_mem_of_mem_zipIdx known)

/-- The entry of a row is where the row's number says. -/
lemma items_getElem {rows : List InspectedRow} {index : Nat} {row : InspectedRow}
    (items : rows.map (fun row => (row.short, row.item)) = imageItems p)
    (at_index : rows[index]? = some row) :
    row.item = entryAt p (distributionEntry (firstAt p 262816) index) := by
  have there := congrArg (fun l => l[index]?) items
  simp only [imageItems, List.getElem?_map, at_index, Option.map_some, List.getElem?_zipIdx] at there
  cases known : distributionNames[index]? with
  | none =>
    rw [known] at there
    cases there
  | some name =>
    rw [known] at there
    have same := (Prod.mk.inj (Option.some.inj there)).2
    rw [same, Nat.zero_add]

/-- What the licenses directory's own entries say. -/
lemma checkLicenses_eq_ok {after licensesFirst : Nat} {licenseRoot sourceRoot : DirEntry}
    (h : checkLicenses after licenseRoot sourceRoot p = (.ok licensesFirst, q)) :
    q = p ∧ licensesFirst = firstAt p 262816 ∧
      firstAt p 262816 = after + clusterCount licenseRoot.size % 2 ^ 16 +
        clusterCount sourceRoot.size % 2 ^ 16 ∧
      (p.slice 262816 32).take 11 = ascii "LICENSES   " ∧ p.byte 262827 = 0x10 ∧
      p.slice (offsetOf (firstAt p 262816)) 32 =
        entryBytes (ascii ".          ") 0x10 (firstAt p 262816) 0 ∧
      p.slice (offsetOf (firstAt p 262816) + 32) 32 =
        entryBytes (ascii "..         ") 0x10 0 0 := by
  rw [checkLicenses] at h
  obtain ⟨_, r, got, h1⟩ := Fallible.bind_eq_ok h
  obtain ⟨_, rfl, rfl⟩ := parseEntry_eq_ok got
  obtain ⟨_, r, counted, h2⟩ := Fallible.bind_eq_ok h1
  obtain ⟨_, rfl, rfl⟩ := clusters_eq_ok counted
  obtain ⟨_, r, added, h3⟩ := Fallible.bind_eq_ok h2
  obtain ⟨_, rfl, rfl⟩ := add16_eq_ok added
  obtain ⟨_, r, counted, h4⟩ := Fallible.bind_eq_ok h3
  obtain ⟨_, rfl, rfl⟩ := clusters_eq_ok counted
  obtain ⟨_, r, added, h5⟩ := Fallible.bind_eq_ok h4
  obtain ⟨_, rfl, rfl⟩ := add16_eq_ok added
  obtain ⟨named, h6⟩ := require_bind_eq_ok h5
  obtain ⟨name, attributes, first⟩ := of_decide_eq_true named
  obtain ⟨_, r, placed, h7⟩ := Fallible.bind_eq_ok h6
  obtain ⟨_, rfl, rfl⟩ := clusterOffset_eq_ok placed
  obtain ⟨_, r, got, h8⟩ := Fallible.bind_eq_ok h7
  obtain ⟨_, rfl, rfl⟩ := parseEntry_eq_ok got
  obtain ⟨_, r, got, h9⟩ := Fallible.bind_eq_ok h8
  obtain ⟨_, rfl, rfl⟩ := parseEntry_eq_ok got
  obtain ⟨_, r, checked, h10⟩ := Fallible.bind_eq_ok h9
  obtain ⟨_, dot, rfl⟩ := requireEntry_eq_ok checked
  obtain ⟨_, r, checked, h11⟩ := Fallible.bind_eq_ok h10
  obtain ⟨_, dotdot, rfl⟩ := requireEntry_eq_ok checked
  cases h11
  exact ⟨rfl, rfl, first, name, attributes, dot, dotdot⟩

/-- The two entries of the root directory and those of the licenses directory are all. -/
lemma imageItems_eq {license source : String × List UInt8} {names : List (String × List UInt8)}
    (all : distributionNames = license :: source :: names) :
    imageItems p = (license.2, entryAt p 262752) :: (source.2, entryAt p 262784) ::
      licenseItems p (offsetOf (firstAt p 262816)) 0 names := by
  have rest : ∀ (names : List (String × List UInt8)) (index : Nat),
      (names.zipIdx (index + 2)).map (fun (name, i) =>
        (name.2, entryAt p (distributionEntry (firstAt p 262816) i))) =
        licenseItems p (offsetOf (firstAt p 262816)) index names := by
    intro names
    induction names with
    | nil => exact fun _ => rfl
    | cons name names ih =>
      intro index
      have here : distributionEntry (firstAt p 262816) (index + 2) =
          offsetOf (firstAt p 262816) + (index + 2) * 32 := if_neg (by omega)
      rw [List.zipIdx_cons, List.map_cons, licenseItems, ← ih (index + 1), ← here]
  rw [imageItems, all, List.zipIdx_cons, List.map_cons, List.zipIdx_cons, List.map_cons]
  exact congrArg _ (congrArg _ (rest names 0))

/-- Files that pass are the distribution's. -/
lemma checkDistributionFiles_eq_ok {first count : Nat} {license source : String × List UInt8}
    {names : List (String × List UInt8)} {licensePayload sourcePayload : List UInt8}
    {payloads : List (List UInt8)} {licenses : List Nat}
    (all : distributionNames = license :: source :: names) (pos : 0 < count)
    (length : p.length = imageBytes) (six : payloads.length = names.length)
    (h : checkDistributionFiles (tableOf p) (List.range' first count) license source names
      licensePayload sourcePayload payloads p = (.ok licenses, q)) :
    q = p ∧ DistributionAt p (first + count) ∧
      licenses = firstAt p 262816 :: (imageRows p).flatMap DistributionRow.clusters := by
  rw [checkDistributionFiles] at h
  -- the checks in the source's order, each with what it says of the image
  obtain ⟨_, r, got, h1⟩ := Fallible.bind_eq_ok h
  obtain ⟨_, rfl, rfl⟩ := parseEntry_eq_ok got
  obtain ⟨_, r, got, h2⟩ := Fallible.bind_eq_ok h1
  obtain ⟨_, rfl, rfl⟩ := parseEntry_eq_ok got
  obtain ⟨_, r, ended, h3⟩ := Fallible.bind_eq_ok h2
  obtain ⟨rfl, after_small, rfl⟩ := afterChain_eq_ok pos ended
  obtain ⟨_, r, directory, h4⟩ := Fallible.bind_eq_ok h3
  obtain ⟨rfl, rfl, licenses_first, name, attributes, dot, dotdot⟩ := checkLicenses_eq_ok directory
  obtain ⟨_, r, placed, h5⟩ := Fallible.bind_eq_ok h4
  obtain ⟨_, rfl, rfl⟩ := clusterOffset_eq_ok placed
  obtain ⟨rest, r, read, h6⟩ := Fallible.bind_eq_ok h5
  obtain ⟨rfl, rest_items⟩ := checkLicenseEntries_eq_ok six read
  obtain ⟨_, r, zero, h7⟩ := Fallible.bind_eq_ok h6
  obtain ⟨_, slack, rfl⟩ := requireZero_eq_ok zero
  obtain ⟨chains, r, checked, h8⟩ := Fallible.bind_eq_ok h7
  cases h8
  rw [show root + 96 = 262752 from rfl, show root + 128 = 262784 from rfl] at checked
  generalize rows_eq : (⟨license.1, license.2, entryAt r 262752, licensePayload⟩ ::
    ⟨source.1, source.2, entryAt r 262784, sourcePayload⟩ :: rest : List InspectedRow) = rows
    at checked
  have items : rows.map (fun row => (row.short, row.item)) = imageItems r := by
    rw [← rows_eq, List.map_cons, List.map_cons, rest_items, imageItems_eq all]
  obtain ⟨rfl, ⟨stop, placed⟩, facts, rfl⟩ := checkRows_eq_ok length after_small
    (fun row mem => (items_eleven items row mem).1) (fun row mem => (items_eleven items row mem).2)
    checked
  rw [map_toRow items] at placed
  have files : ∀ row ∈ imageRows q, FileAt q row.first row.size := by
    intro row mem
    rw [← map_toRow items] at mem
    obtain ⟨inspected, known, rfl⟩ := List.mem_map.1 mem
    exact (facts inspected known).file
  have eight : (imageRows q).length = 8 := by
    rw [imageRows, List.length_map, List.length_zipIdx]
    rfl
  -- the last file ends within the image, so all of them do
  have bound : stop ≤ 65503 := by
    have nonempty : imageRows q ≠ [] := List.ne_nil_of_length_pos (by omega)
    have last := List.getLast?_eq_some_getLast nonempty
    rw [placed.last last]
    exact (files _ (List.getLast_mem nonempty)).stop
  refine ⟨rfl, ⟨name, attributes, ⟨stop, bound, placed⟩, ?_, dot, dotdot, slack, ?_, files⟩, ?_⟩
  -- the third row begins behind the directory
  · have split : imageRows q =
        InspectedRow.toRow q ⟨license.1, license.2, entryAt q 262752, licensePayload⟩ ::
          InspectedRow.toRow q ⟨source.1, source.2, entryAt q 262784, sourcePayload⟩ ::
            rest.map (InspectedRow.toRow q) := by
      rw [← map_toRow items, ← rows_eq, List.map_cons, List.map_cons]
    rw [split] at placed eight files
    rcases tail : rest.map (InspectedRow.toRow q) with _ | ⟨third, more⟩
    · rw [tail] at eight
      cases eight
    · rw [tail] at placed
      have license_stop := (files _ List.mem_cons_self).stop
      have source_stop := (files _ (List.mem_cons_of_mem _ List.mem_cons_self)).stop
      obtain ⟨license_eq, _, _, source_eq, _, _, third_eq, _⟩ := placed
      rw [split, tail]
      refine ⟨third, rfl, ?_⟩
      have license_eq : (entryAt q 262752).first = first + count := license_eq
      have source_eq : (entryAt q 262784).first =
          (entryAt q 262752).first + clusterCount (entryAt q 262752).size := source_eq
      have third_eq : third.first = (entryAt q 262784).first +
          clusterCount (entryAt q 262784).size + 1 := third_eq
      have license_stop : (entryAt q 262752).first + clusterCount (entryAt q 262752).size ≤ 65503 :=
        license_stop
      have source_stop : (entryAt q 262784).first + clusterCount (entryAt q 262784).size ≤ 65503 :=
        source_stop
      rw [show root + 96 = 262752 from rfl, show root + 128 = 262784 from rfl] at licenses_first
      omega
  -- the entry of every row is one that was checked
  · intro index row at_index
    rw [← map_toRow items, List.getElem?_map] at at_index
    obtain ⟨inspected, known, rfl⟩ := Option.map_eq_some_iff.1 at_index
    have item := items_getElem items known
    have raw := (facts inspected (List.mem_of_getElem? known)).raw
    rw [← show inspected.item.raw = q.slice (distributionEntry (firstAt q 262816) index) 32 from
      congrArg DirEntry.raw item]
    exact raw
  · rw [map_toRow items]

/-- A distribution that passes is behind the model. -/
lemma checkDistribution_eq_ok {first count : Nat} {distribution : List (List UInt8)}
    {licenses : List Nat} (pos : 0 < count) (length : p.length = imageBytes)
    (eight : distribution.length = 8)
    (h : checkDistribution (tableOf p) (List.range' first count) distribution p =
      (.ok licenses, q)) :
    q = p ∧ DistributionAt p (first + count) ∧
      licenses = firstAt p 262816 :: (imageRows p).flatMap DistributionRow.clusters := by
  rcases distribution with _ | ⟨licensePayload, _ | ⟨sourcePayload, payloads⟩⟩
  · cases eight
  · cases eight
  · exact checkDistributionFiles_eq_ok rfl pos length (Nat.succ.inj (Nat.succ.inj eight)) h

/-- Without a distribution nothing is checked. -/
lemma checkDistribution_nil {fat : List UInt8} {modelChain : List Nat} :
    checkDistribution fat modelChain [] = pure [] := rfl

end Rows

end Promptboot.Image
