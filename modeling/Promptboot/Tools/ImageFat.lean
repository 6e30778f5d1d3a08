import Promptboot.Tools.Image

/-!
# What the image builder puts into the FAT

Each chain sets the entries of its own clusters. Chains of extents that keep clear of each other are
all in the finished table, with zeros around them.

The helper `chained_of_mem` is what a chain sets and `chained_of_outside` its frame.
`chainFat_facts` is the induction on the clusters of a chain and `chainRows_facts` the one on the
rows; the headline `buildFat_facts` says what an entry of the finished table is.
-/

namespace Promptboot.Image
open Buffer

/-- Payloads are rounded up to whole clusters. -/
def clusterCount (size : Nat) : Nat := (size + 8191) / 8192

/-- The little-endian number of two bytes. -/
def u16At (b : Buffer) (offset : Nat) : Nat :=
  (b.byte offset).toNat + 2 ^ 8 * (b.byte (offset + 1)).toNat

/-- What a chained cluster's entry holds: the next cluster, or the end mark. -/
def link (e : Extent) (cluster : Nat) : Nat :=
  if cluster + 1 = e.1 + e.2 then 0xffff else cluster + 1

/-- A table after the extents of a list are chained in it, one after another. -/
def chained (table : Nat → Nat) (extents : List Extent) : Nat → Nat :=
  extents.foldl (fun table e cluster => if Within e cluster then link e cluster else table cluster)
    table

/-- The links of the first extent, and of the rest. -/
lemma chained_cons (table : Nat → Nat) (e : Extent) (extents : List Extent) :
    chained table (e :: extents) =
      chained (fun cluster => if Within e cluster then link e cluster else table cluster) extents :=
  rfl

/-- A cluster outside all extents keeps its entry. -/
lemma chained_of_outside {table : Nat → Nat} {extents : List Extent} {cluster : Nat}
    (h : ∀ e ∈ extents, ¬Within e cluster) : chained table extents cluster = table cluster := by
  induction extents generalizing table with
  | nil => rfl
  | cons e extents ih =>
    rw [chained_cons, ih fun d mem => h d (List.mem_cons_of_mem _ mem),
      if_neg (h e List.mem_cons_self)]

/-- Extents that keep clear of each other are all chained in the end. -/
lemma chained_of_mem {table : Nat → Nat} {extents : List Extent} {cluster : Nat}
    (clear : extents.Pairwise Clear) {e : Extent} (mem : e ∈ extents) (h : Within e cluster) :
    chained table extents cluster = link e cluster := by
  induction clear generalizing table with
  | nil => cases mem
  | @cons d extents first _ ih =>
    rw [chained_cons]
    rcases List.mem_cons.1 mem with rfl | later
    · rw [chained_of_outside fun c there => (first c there).not_within h, if_pos h]
    · exact ih later

section Words
variable {b : Buffer}

/-- A half word that was put is read back. -/
lemma u16At_put_le16 {offset value : Nat} (fits : value < 65536) :
    u16At (b.put offset (le16 value)) offset = value := by
  have low : (b.put offset (le16 value)).byte offset = UInt8.ofNat value := by
    simp [Buffer.put, le16]
  have high : (b.put offset (le16 value)).byte (offset + 1) = UInt8.ofNat (value / 2 ^ 8) := by
    simp [Buffer.put, le16]
  rw [u16At, low, high, UInt8.toNat_ofNat', UInt8.toNat_ofNat']
  omega

/-- A put elsewhere leaves a half word. -/
lemma u16At_put_of_apart {offset there : Nat} {bytes : List UInt8}
    (apart : there + 2 ≤ offset ∨ offset + bytes.length ≤ there) :
    u16At (b.put offset bytes) there = u16At b there := by
  have low : (b.put offset bytes).byte there = b.byte there := if_neg (by omega)
  have high : (b.put offset bytes).byte (there + 1) = b.byte (there + 1) := if_neg (by omega)
  rw [u16At, low, high, u16At]

end Words

section Steps
variable {p q : Buffer}

/-- A count of clusters is that of a payload that is not empty. -/
lemma clusters_eq_ok {size count : Nat} (h : clusters size p = (.ok count, q)) :
    0 < size ∧ count = clusterCount size ∧ q = p := by
  rw [clusters] at h
  split_ifs at h
  · cases h
  · cases h
    exact ⟨by omega, rfl, rfl⟩
  · cases h

/-- A converted number fits. -/
lemma toU16_eq_ok {value result : Nat} {message : String}
    (h : toU16 value message p = (.ok result, q)) : value < 65536 ∧ result = value ∧ q = p := by
  rw [toU16] at h
  split at h
  case isTrue fits =>
    cases h
    exact ⟨fits, rfl, rfl⟩
  case isFalse _ => cases h

/-- A sum that was taken fits. -/
lemma checkedAdd16_eq_ok {a b result : Nat} {message : String}
    (h : checkedAdd16 a b message p = (.ok result, q)) :
    a + b < 65536 ∧ result = a + b ∧ q = p := by
  rw [checkedAdd16] at h
  split at h
  case isTrue fits =>
    cases h
    exact ⟨fits, rfl, rfl⟩
  case isFalse _ => cases h

/-- A copy that succeeds is within the buffer. -/
lemma copySlice_eq_ok {buffer result : Buffer} {offset : Nat} {bytes : List UInt8}
    (h : copySlice buffer offset bytes p = (.ok result, q)) :
    offset + bytes.length ≤ buffer.length ∧ result = buffer.put offset bytes ∧ q = p := by
  rw [copySlice] at h
  split at h
  case isTrue fits =>
    cases h
    exact ⟨fits, rfl, rfl⟩
  case isFalse _ => cases h

/-- A put within the buffer leaves its length. -/
lemma length_put_of_fits {b : Buffer} {offset : Nat} {bytes : List UInt8}
    (fits : offset + bytes.length ≤ b.length) : (b.put offset bytes).length = b.length := by
  simp only [Buffer.put]
  split_ifs <;> omega

end Steps

section Chains
variable {p q : Buffer}

/-- The turns that are left set the entries that are left. -/
lemma chainFrom_facts {fat fat' : Buffer} {first count left index : Nat}
    (total : index + left = count)
    (h : chainFrom fat first count left index p = (.ok fat', q)) :
    q = p ∧ fat'.length = fat.length ∧ (0 < left → first + count ≤ 65536) ∧
      ∀ cluster, u16At fat' (cluster * 2) =
        if Within (first + index, left) cluster then link (first, count) cluster
        else u16At fat (cluster * 2) := by
  -- on the clusters that are left: a turn sets one entry and the rest follow it
  induction left generalizing fat index with
  | zero =>
    cases h
    refine ⟨rfl, rfl, fun pos => absurd pos (by omega), fun cluster => ?_⟩
    have none : ¬Within (first + index, 0) cluster := by
      unfold Within
      omega
    rw [if_neg none]
  | succ left ih =>
    obtain ⟨cluster, r, add, h1⟩ := Fallible.bind_eq_ok h
    obtain ⟨_, rfl, rfl⟩ := checkedAdd_eq_ok add
    obtain ⟨bound, h2⟩ := require_bind_eq_ok h1
    obtain ⟨next, s, copied, h3⟩ := Fallible.bind_eq_ok h2
    obtain ⟨fits, rfl, rfl⟩ := copySlice_eq_ok copied
    obtain ⟨same, length, more, entries⟩ := ih (by omega) h3
    have bound := of_decide_eq_true bound
    have whole : first + count ≤ 65536 := by
      rcases Nat.eq_zero_or_pos left with rfl | pos
      · omega
      · exact more pos
    refine ⟨same, length.trans (length_put_of_fits fits), fun _ => whole, fun cluster => ?_⟩
    rw [entries cluster]
    by_cases later : Within (first + (index + 1), left) cluster
    · rw [if_pos later, if_pos (by unfold Within at *; omega)]
    · rw [if_neg later]
      by_cases here : cluster = first + index
      -- this turn's own entry
      · subst here
        have inside : Within (first + index, left + 1) (first + index) := by
          unfold Within
          omega
        have value : (if index + 1 = count then 0xffff else first + index + 1) =
            link (first, count) (first + index) := by
          rw [link]
          split_ifs <;> omega
        have fits : link (first, count) (first + index) < 65536 := by
          rw [← value]
          split_ifs <;> omega
        rw [if_pos inside, value, u16At_put_le16 fits]
      · have outside : ¬Within (first + index, left + 1) cluster := by
          unfold Within at *
          omega
        have two : (le16 (if index + 1 = count then 0xffff else first + index + 1)).length = 2 :=
          rfl
        rw [if_neg outside, u16At_put_of_apart (by omega)]

/-- A chain links its own clusters and leaves the others. -/
lemma chainFat_facts {fat fat' : Buffer} {first count : Nat}
    (h : chainFat fat first count p = (.ok fat', q)) :
    q = p ∧ fat'.length = fat.length ∧
      ∀ cluster, u16At fat' (cluster * 2) =
        if Within (first, count) cluster then link (first, count) cluster
        else u16At fat (cluster * 2) := by
  obtain ⟨same, length, _, entries⟩ := chainFrom_facts (Nat.zero_add count) h
  exact ⟨same, length, entries⟩

def DistributionRow.extent (row : DistributionRow) : Extent := (row.first, clusterCount row.size)

/-- The chains of the rows link their clusters and leave the others. -/
lemma chainRows_facts {fat fat' : Buffer} {rows : List DistributionRow}
    (h : chainRows fat rows p = (.ok fat', q)) :
    q = p ∧ fat'.length = fat.length ∧
      ∀ cluster, u16At fat' (cluster * 2) =
        chained (fun cluster => u16At fat (cluster * 2)) (rows.map DistributionRow.extent)
          cluster := by
  induction rows generalizing fat with
  | nil =>
    cases h
    exact ⟨rfl, rfl, fun _ => rfl⟩
  | cons row rows ih =>
    obtain ⟨count, r, counted, h1⟩ := Fallible.bind_eq_ok h
    obtain ⟨_, rfl, rfl⟩ := clusters_eq_ok counted
    obtain ⟨next, s, linked, h2⟩ := Fallible.bind_eq_ok h1
    obtain ⟨rfl, length, entries⟩ := chainFat_facts linked
    obtain ⟨same, later_length, later⟩ := ih h2
    refine ⟨same, later_length.trans length, fun cluster => ?_⟩
    rw [later cluster, List.map_cons, chained_cons, funext entries]
    rfl

/-- The extents of the files, in the order of their clusters. -/
def fileExtents (layout : Layout) (efiSize manifestSize : Nat) : List Extent :=
  [(layout.efiFirst, clusterCount efiSize), (layout.manifestFirst, clusterCount manifestSize),
    (layout.modelFirst, modelClusters)] ++ layout.distribution.map DistributionRow.extent

/-- The table before anything is chained. -/
def reservedTable : Buffer := (Buffer.zeros (sectorsPerFat * sector)).put 0 reserved

/-- The table that the builder makes. -/
structure FatFacts (layout : Layout) (efiSize manifestSize : Nat) (fat : Buffer) : Prop where
  length : fat.length = 131072
  chained : ∀ e ∈ fileExtents layout efiSize manifestSize, ∀ cluster, Within e cluster →
    u16At fat (cluster * 2) = link e cluster
  low : ∀ cluster < 4, u16At fat (cluster * 2) = u16At reservedTable (cluster * 2)
  other : ∀ cluster, 4 ≤ cluster →
    (∀ e ∈ fileExtents layout efiSize manifestSize, ¬Within e cluster) →
    u16At fat (cluster * 2) =
      if layout.distribution ≠ [] ∧ cluster = layout.licensesFirst then 0xffff else 0

/-- At first only the reserved entries are set. -/
lemma u16At_start {cluster : Nat} (above : 4 ≤ cluster) : u16At reservedTable (cluster * 2) = 0 := by
  have beyond : 0 + reserved.length ≤ cluster * 2 := by
    simp only [reserved, List.length_cons, List.length_nil]
    omega
  exact u16At_put_of_apart (.inr beyond)

/-- The builder chains the first three files, marks the licenses directory and chains the rest. -/
lemma buildFat_entries {layout : Layout} {efiSize manifestSize : Nat} {fat : Buffer}
    (h : buildFat layout efiSize manifestSize p = (.ok fat, q)) :
    q = p ∧ fat.length = 131072 ∧ ∀ cluster, u16At fat (cluster * 2) =
      chained (fun cluster =>
        if layout.distribution ≠ [] ∧ cluster = layout.licensesFirst then 0xffff
        else chained (fun cluster => u16At reservedTable (cluster * 2))
          [(layout.efiFirst, clusterCount efiSize),
            (layout.manifestFirst, clusterCount manifestSize), (layout.modelFirst, modelClusters)]
          cluster)
        (layout.distribution.map DistributionRow.extent) cluster := by
  obtain ⟨efiCount, r, counted, h1⟩ := Fallible.bind_eq_ok h
  obtain ⟨_, rfl, rfl⟩ := clusters_eq_ok counted
  obtain ⟨fat1, r, linked1, h2⟩ := Fallible.bind_eq_ok h1
  obtain ⟨rfl, length1, entries1⟩ := chainFat_facts linked1
  obtain ⟨manifestCount, r, counted, h3⟩ := Fallible.bind_eq_ok h2
  obtain ⟨_, rfl, rfl⟩ := clusters_eq_ok counted
  obtain ⟨fat2, r, linked2, h4⟩ := Fallible.bind_eq_ok h3
  obtain ⟨rfl, length2, entries2⟩ := chainFat_facts linked2
  obtain ⟨fat3, r, linked3, h5⟩ := Fallible.bind_eq_ok h4
  obtain ⟨rfl, length3, entries3⟩ := chainFat_facts linked3
  have three : ∀ cluster, u16At fat3 (cluster * 2) =
      chained (fun cluster => u16At reservedTable (cluster * 2))
        [(layout.efiFirst, clusterCount efiSize),
          (layout.manifestFirst, clusterCount manifestSize), (layout.modelFirst, modelClusters)]
        cluster := by
    intro cluster
    rw [entries3, entries2, entries1]
    rfl
  have size : fat3.length = 131072 := by
    rw [length3, length2, length1]
    rfl
  -- the rows' chains come last, behind the mark of the directory they are in
  split at h5
  case isTrue empty =>
    cases h5
    have nil := List.isEmpty_iff.1 empty
    refine ⟨rfl, size, fun cluster => ?_⟩
    rw [nil, List.map_nil, three]
    simp [chained]
  case isFalse some =>
    obtain ⟨fat4, r, marked, h6⟩ := Fallible.bind_eq_ok h5
    obtain ⟨fits, rfl, rfl⟩ := copySlice_eq_ok marked
    obtain ⟨same, length, entries⟩ := chainRows_facts h6
    have nonempty : layout.distribution ≠ [] := fun nil => some (List.isEmpty_iff.2 nil)
    refine ⟨same, length.trans ((length_put_of_fits fits).trans size), fun cluster => ?_⟩
    rw [entries]
    congr 1
    funext cluster
    by_cases here : cluster = layout.licensesFirst
    · rw [here, u16At_put_le16 (by decide), if_pos ⟨nonempty, rfl⟩]
    · have two : (le16 0xffff).length = 2 := rfl
      have elsewhere : ¬(layout.distribution ≠ [] ∧ cluster = layout.licensesFirst) :=
        fun both => here both.2
      rw [if_neg elsewhere, u16At_put_of_apart (by omega), three]

/-- The table links every file and marks the directories. -/
lemma buildFat_facts {layout : Layout} {efiSize manifestSize : Nat} {fat : Buffer}
    (clear : (fileExtents layout efiSize manifestSize).Pairwise Clear)
    (apart : ∀ e ∈ fileExtents layout efiSize manifestSize, ¬Within e layout.licensesFirst)
    (above : ∀ e ∈ fileExtents layout efiSize manifestSize, 4 ≤ e.1)
    (licenses_above : layout.distribution ≠ [] → 4 ≤ layout.licensesFirst)
    (h : buildFat layout efiSize manifestSize p = (.ok fat, q)) :
    q = p ∧ FatFacts layout efiSize manifestSize fat := by
  obtain ⟨same, length, entries⟩ := buildFat_entries h
  obtain ⟨clear_three, clear_rows, between⟩ := List.pairwise_append.1 clear
  refine ⟨same, length, ?_, ?_, ?_⟩
  · intro e mem cluster inside
    rw [entries]
    rcases List.mem_append.1 mem with three | row
    · have elsewhere : ¬(layout.distribution ≠ [] ∧ cluster = layout.licensesFirst) :=
        fun both => apart e mem (both.2 ▸ inside)
      rw [chained_of_outside fun d there => (between e three d there).not_within inside,
        if_neg elsewhere, chained_of_mem clear_three three inside]
    · exact chained_of_mem clear_rows row inside
  · intro cluster low
    have none : ∀ e ∈ fileExtents layout efiSize manifestSize, ¬Within e cluster := by
      intro e mem inside
      have first := above e mem
      unfold Within at inside
      omega
    have elsewhere : ¬(layout.distribution ≠ [] ∧ cluster = layout.licensesFirst) := by
      rintro ⟨nonempty, rfl⟩
      have first := licenses_above nonempty
      omega
    rw [entries, chained_of_outside fun e there => none e (List.mem_append_right _ there),
      if_neg elsewhere,
      chained_of_outside fun e there => none e (List.mem_append_left _ there)]
  · intro cluster above none
    rw [entries, chained_of_outside fun e there => none e (List.mem_append_right _ there),
      chained_of_outside fun e there => none e (List.mem_append_left _ there), u16At_start above]

end Chains

end Promptboot.Image
