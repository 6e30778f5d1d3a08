import Promptboot.Lib.OpenAddress
import Promptboot.Tokenizer.Bpe

/-!
# The merge index

`construct` lays the merges out in a hash table of 16-byte slots, checks how far its entries are
from their hashes and how long its clusters are, and `lookup` searches it with at most 51 probes. A
table that passes the checks is the list of merges as a map.

The helpers `inserts_insertFrom` and `lookupFrom_eq` identify the table with the library's open
addressing and `occupied_eq` its scan of the clusters; `construct_ok` reads the checks off a table
that passes them. `exists_mergeMap` makes the table the merge map that the tokenizer's results are
about (`MergeIndex.ofIndex`). The headline `construct_exact` says what an accepted table is.
-/

namespace Promptboot
open Memory OpenAddress

def tableBytes : Nat := 4194304
def tableEntries : Nat := 262144
def byteMapOffset : Nat := tableBytes

/-- The key field of a free slot. -/
def freeSlot : UInt32 := 0xffffffff

/-- The merges of a model, by rank; no id is the mark of a free slot. -/
structure MergeList where
  merges : List Merge
  ids_lt : ∀ m ∈ merges, m.left < freeSlot ∧ m.right < freeSlot ∧ m.result < freeSlot

def hashSlot (left right : UInt32) : Nat :=
  let key := left.toUInt64 <<< 32 ||| right.toUInt64
  ((key * 0x9e3779b97f4a7c15) >>> 46).toNat

/-- Where the slot of a probe starts. -/
def probeAddress (left right : UInt32) (displacement : Nat) : Nat :=
  ((hashSlot left right + displacement) &&& (tableEntries - 1)) * 16

/-- The loop of `lookup`, with the number of probes it took. -/
def lookupFrom (index : Nat → UInt8) (left right : UInt32) :
    Nat → Nat → Option (UInt32 × UInt32) × Nat
  | 0, displacement => (none, displacement)
  | n + 1, displacement =>
    let base := probeAddress left right displacement
    let foundLeft := u32At index base
    if foundLeft = freeSlot then (none, displacement + 1)
    else if foundLeft = left ∧ u32At index (base + 4) = right then
      (some (u32At index (base + 8), u32At index (base + 12)), displacement + 1)
    else lookupFrom index left right n (displacement + 1)

def TokenizerIndex.lookup (index : Nat → UInt8) (left right : UInt32) :
    Option (UInt32 × UInt32) × Nat :=
  lookupFrom index left right 51 0

/-- What the tokenizer reads off its index. -/
def MergeIndex.ofIndex (index : Nat → UInt8) : MergeIndex where
  byteToken byte := u32At index (byteMapOffset + byte.toNat * 4)
  lookup left right := (TokenizerIndex.lookup index left right).1

def indexError (kind : FieldKind) (expected actual : Nat) : ModelError :=
  ⟨.indexCorrupt, .index, 0, 0, expected, actual, kind, 0⟩

/-- The bytes that GPT-2 leaves as they are. -/
def preserved (byte : UInt8) : Bool :=
  (0x21 ≤ byte && byte ≤ 0x7e) || (0xa1 ≤ byte && byte ≤ 0xac) || 0xae ≤ byte

def gpt2Codepoint (byte : UInt8) : Nat :=
  if preserved byte then byte.toNat
  else 256 + (List.range byte.toNat).countP fun candidate => !preserved (UInt8.ofNat candidate)

def encodedByte (byte : UInt8) : List UInt8 :=
  let point := gpt2Codepoint byte
  if point < 0x80 then [UInt8.ofNat point]
  else [UInt8.ofNat (0xc0 ||| point >>> 6), UInt8.ofNat (0x80 ||| (point &&& 63))]

/-- The first token of each byte. -/
def byteIds (pieces : List (List UInt8)) : UInt8 → UInt32 :=
  pieces.zipIdx.foldl (fun ids (piece, token) =>
    if piece.length ≤ 2 then
      fun byte =>
        if ids byte = freeSlot ∧ piece = encodedByte byte then UInt32.ofNat token else ids byte
    else ids) fun _ => freeSlot

def putByteId (ids : UInt8 → UInt32) (index : Nat → UInt8) (byte : Nat) :
    Except ModelError (Nat → UInt8) :=
  let token := ids (UInt8.ofNat byte)
  if token = freeSlot then .error ⟨.state, .index, byte, 0, 1, 0, .stateField, 0⟩
  else .ok (putU32 index (byteMapOffset + byte * 4) token)

/-- The four words of a slot. -/
def putSlot (index : Nat → UInt8) (base : Nat) (merge : Merge) (rank : UInt32) : Nat → UInt8 :=
  putU32 (putU32 (putU32 (putU32 index base merge.left) (base + 4) merge.right) (base + 8)
    merge.result) (base + 12) rank

/-- The probe loop of an insertion, with the displacement it ends at. -/
def insertFrom (index : Nat → UInt8) (merge : Merge) (rank : UInt32) (displacement : Nat) :
    Except ModelError ((Nat → UInt8) × Nat) :=
  if displacement < tableEntries then
    let base := probeAddress merge.left merge.right displacement
    let left := u32At index base
    if left = freeSlot then .ok (putSlot index base merge rank, displacement)
    else if left = merge.left ∧ u32At index (base + 4) = merge.right then
      .error ⟨.tokenizerSchema, .merge, rank.toNat, 0, (u32At index (base + 12)).toNat, rank.toNat,
        .mergeDuplicate, 0⟩
    else insertFrom index merge rank (displacement + 1)
  else
    .error (indexError .indexMissBound 51 displacement)
termination_by tableEntries - displacement

/-- One merge: the index and the largest displacement so far. -/
def insertMerge (state : (Nat → UInt8) × Nat) (entry : Merge × Nat) :
    Except ModelError ((Nat → UInt8) × Nat) := do
  let (index, displacement) ← insertFrom state.1 entry.1 (UInt32.ofNat entry.2) 0
  .ok (index, max state.2 displacement)

def occupied (index : Nat → UInt8) (slot : Nat) : Bool := u32At index (slot * 16) != freeSlot

/-- The longest cluster; the scan wraps its slots as `slot & (TABLE_ENTRIES - 1)`. -/
def maxCluster (index : Nat → UInt8) : Nat := CircularScan.scan tableEntries (occupied index)

def maxHit (index : Nat → UInt8) (merges : List Merge) : Nat :=
  merges.foldl (fun hit merge => max hit (TokenizerIndex.lookup index merge.left merge.right).2) 0

/-- The checks of a table; `digests` is the error of the two digest comparisons. -/
def checkTable (digests : (Nat → UInt8) → Option ModelError) (merges : List Merge)
    (index : Nat → UInt8) (maxDisplacement : Nat) : Except ModelError (Nat → UInt8) :=
  if maxDisplacement ≠ 42 then
    .error (indexError .indexMaxDisplacement 42 maxDisplacement)
  else if maxCluster index ≠ 50 then
    .error (indexError .indexMaxCluster 50 (maxCluster index))
  else if maxHit index merges ≠ 43 then
    .error (indexError .indexHitBound 43 (maxHit index merges))
  else if maxCluster index + 1 ≠ 51 then
    .error (indexError .indexMissBound 51 (maxCluster index + 1))
  else
    match digests index with
    | some e => .error e
    | none => .ok index

/-- `construct`, for the bytes of all tokens and for all merges of the model. -/
def construct (digests : (Nat → UInt8) → Option ModelError) (pieces : List (List UInt8))
    (merges : List Merge) (index : Nat → UInt8) : Except ModelError (Nat → UInt8) := do
  let index ← (List.range 256).foldlM (putByteId (byteIds pieces)) index
  let (index, maxDisplacement) ← merges.zipIdx.foldlM insertMerge (index, 0)
  checkTable digests merges index maxDisplacement

/-- `build` fills the table with 0xff in front of `construct`. -/
def emptyTable (storage : Nat → UInt8) : Nat → UInt8 := fun a =>
  if a < tableBytes then 0xff else storage a

namespace Index

/-- The table as slots of entries. -/
def layout : Layout (UInt32 × UInt32) where
  size := tableEntries
  size_pos := by decide
  hash key := hashSlot key.1 key.2

/-- What stands in a slot. -/
def entryAt (index : Nat → UInt8) (slot : Nat) : Option ((UInt32 × UInt32) × (UInt32 × UInt32)) :=
  if u32At index (slot * 16) = freeSlot then none
  else some ((u32At index (slot * 16), u32At index (slot * 16 + 4)),
    (u32At index (slot * 16 + 8), u32At index (slot * 16 + 12)))

variable {index index' : Nat → UInt8} {left right : UInt32} {slot : Nat}

/-- A slot is free when its first word says so. -/
lemma entryAt_eq_none : entryAt index slot = none ↔ u32At index (slot * 16) = freeSlot := by
  rw [entryAt]
  split_ifs with free <;> simp [free]

/-- A slot in use has its pair and what the pair merges to. -/
lemma entryAt_eq_some (h : u32At index (slot * 16) ≠ freeSlot) :
    entryAt index slot = some ((u32At index (slot * 16), u32At index (slot * 16 + 4)),
      (u32At index (slot * 16 + 8), u32At index (slot * 16 + 12))) :=
  if_neg h

/-- The code probes the slots of the layout. -/
lemma probeAddress_eq (left right : UInt32) (d : Nat) :
    probeAddress left right d = layout.slot (left, right) d * 16 := by
  have power : tableEntries = 2 ^ 18 := by decide
  rw [probeAddress, power, Nat.and_two_pow_sub_one_eq_mod, ← power, Layout.slot, layout]

/-- `lookup` is the search of the table. -/
lemma lookupFrom_eq (index : Nat → UInt8) (left right : UInt32) (n d : Nat) :
    (lookupFrom index left right n d).1 =
      findFrom layout (entryAt index) (left, right) n d := by
  induction n generalizing d with
  | zero => rfl
  | succ n ih =>
    rw [lookupFrom, probeAddress_eq]
    by_cases free : u32At index (layout.slot (left, right) d * 16) = freeSlot
    · rw [if_pos free, findFrom_free (entryAt_eq_none.mpr free)]
    · rw [if_neg free, findFrom_occupied (entryAt_eq_some free)]
      by_cases found : u32At index (layout.slot (left, right) d * 16) = left ∧
          u32At index (layout.slot (left, right) d * 16 + 4) = right
      · rw [if_pos found, if_pos (Prod.ext found.1 found.2)]
      · rw [if_neg found, if_neg fun eq => found (Prod.mk.inj eq)]
        exact ih (d + 1)

/-- A stored slot reads back, the others stay. -/
lemma entryAt_putSlot {m : Merge} {rank : UInt32} (id : m.left < freeSlot) (s : Nat) :
    entryAt (putSlot index (slot * 16) m rank) s =
      if s = slot then some ((m.left, m.right), (m.result, rank)) else entryAt index s := by
  by_cases here : s = slot
  · subst here
    have marked : m.left ≠ freeSlot := fun eq => UInt32.lt_irrefl _ (eq ▸ id)
    rw [if_pos rfl, entryAt, putSlot, u32At_putU32, u32At_putU32_of_disjoint (by omega),
      u32At_putU32_of_disjoint (by omega), u32At_putU32_of_disjoint (by omega), u32At_putU32,
      if_neg marked, u32At_putU32_of_disjoint (by omega), u32At_putU32_of_disjoint (by omega),
      u32At_putU32, u32At_putU32_of_disjoint (by omega), u32At_putU32]
  · have kept (a : Nat) (low : s * 16 ≤ a) (high : a + 4 ≤ s * 16 + 16) :
        u32At (putSlot index (slot * 16) m rank) a = u32At index a := by
      rw [putSlot, u32At_putU32_of_disjoint (by omega), u32At_putU32_of_disjoint (by omega),
        u32At_putU32_of_disjoint (by omega), u32At_putU32_of_disjoint (by omega)]
    rw [if_neg here, entryAt, entryAt, kept _ (by omega) (by omega), kept _ (by omega) (by omega),
      kept _ (by omega) (by omega), kept _ (by omega) (by omega)]

/-- An insertion that ends well puts the merge into the first free slot of its chain. -/
lemma inserts_insertFrom {m : Merge} {rank : UInt32} {d d' : Nat} (id : m.left < freeSlot)
    (chain : ∀ e < d, ∃ k v, entryAt index (layout.slot (m.left, m.right) e) = some (k, v) ∧
      k ≠ (m.left, m.right))
    (h : insertFrom index m rank d = .ok (index', d')) :
    Inserts layout (entryAt index) (m.left, m.right) (m.result, rank) d' (entryAt index') := by
  induction hn : tableEntries - d using Nat.strong_induction_on generalizing d with
  | _ left ih =>
  rw [insertFrom] at h
  by_cases inside : d < tableEntries
  · rw [if_pos inside, probeAddress_eq] at h
    dsimp only at h
    by_cases free : u32At index (layout.slot (m.left, m.right) d * 16) = freeSlot
    · rw [if_pos free] at h
      cases h
      exact ⟨inside, chain, entryAt_eq_none.mpr free, fun s _ => entryAt_putSlot id s⟩
    · rw [if_neg free] at h
      split_ifs at h with same
      refine ih _ (by omega) (fun e he => ?_) h rfl
      rcases Nat.lt_succ_iff_lt_or_eq.mp he with before | rfl
      · exact chain e before
      · rw [entryAt, if_neg free]
        exact ⟨_, _, rfl, fun eq => same (Prod.mk.inj eq)⟩
  · rw [if_neg inside] at h
    cases h

/-- An entry of the table for a merge and its rank. -/
def entryOf (entry : Merge × Nat) : (UInt32 × UInt32) × (UInt32 × UInt32) :=
  ((entry.1.left, entry.1.right), (entry.1.result, UInt32.ofNat entry.2))

/-- Inserting merge after merge keeps the table, and no pair is inserted twice. -/
lemma represents_foldlM {l : List (Merge × Nat)}
    {entries : List ((UInt32 × UInt32) × (UInt32 × UInt32))} {x y : Nat}
    (ids : ∀ entry ∈ l, entry.1.left < freeSlot)
    (rep : Represents layout (entryAt index) entries)
    (distinct : entries.Pairwise fun a b => a.1 ≠ b.1)
    (h : l.foldlM insertMerge (index, x) = .ok (index', y)) :
    Represents layout (entryAt index') (entries ++ l.map entryOf) ∧
      (entries ++ l.map entryOf).Pairwise fun a b => a.1 ≠ b.1 := by
  induction l generalizing index x entries with
  | nil =>
    cases h
    rw [List.map_nil, List.append_nil]
    exact ⟨rep, distinct⟩
  | cons entry l ih =>
    rw [List.foldlM_cons] at h
    rcases one : insertFrom index entry.1 (UInt32.ofNat entry.2) 0 with e | ⟨index1, d⟩
    · simp only [insertMerge, one] at h
      cases h
    · have next : insertMerge (index, x) entry = .ok (index1, max x d) := by
        rw [insertMerge, one]
        rfl
      rw [next] at h
      have ins := inserts_insertFrom (ids entry (List.mem_cons_self ..))
        (fun e he => absurd he (Nat.not_lt_zero e)) one
      have fresh := rep.new_key ins
      have more : (entries ++ [entryOf entry]).Pairwise fun a b => a.1 ≠ b.1 := by
        rw [List.pairwise_append]
        refine ⟨distinct, List.pairwise_singleton _ _, fun a ha b hb eq => ?_⟩
        rw [List.mem_singleton.mp hb] at eq
        have same : a = (((entry.1.left, entry.1.right), a.2) :
            (UInt32 × UInt32) × (UInt32 × UInt32)) := Prod.ext eq rfl
        exact fresh a.2 (same ▸ ha)
      have rest := ih (fun e he => ids e (List.mem_cons_of_mem _ he)) (rep.insert ins) more h
      rwa [List.append_assoc] at rest

/-- The byte map lies behind the table. -/
lemma foldlM_putByteId {ids : UInt8 → UInt32} {l : List Nat}
    (h : l.foldlM (putByteId ids) index = .ok index') : ∀ a < tableBytes, index' a = index a := by
  induction l generalizing index with
  | nil =>
    cases h
    exact fun _ _ => rfl
  | cons byte l ih =>
    rw [List.foldlM_cons] at h
    by_cases missing : ids (UInt8.ofNat byte) = freeSlot
    · rw [putByteId, if_pos missing] at h
      cases h
    · rw [putByteId, if_neg missing] at h
      intro a lt
      have below : a < byteMapOffset + byte * 4 := Nat.lt_of_lt_of_le lt (Nat.le_add_right _ _)
      rw [ih h a lt, putU32_of_outside (.inl below)]

/-- Before the merges, every slot is free. -/
lemma entryAt_emptyTable {storage : Nat → UInt8}
    (h : ∀ a < tableBytes, index a = emptyTable storage a) :
    ∀ s < layout.size, entryAt index s = none := by
  intro s lt
  have bound : s < 262144 := lt
  have marked (a : Nat) (low : s * 16 ≤ a) (high : a < s * 16 + 4) : index a = 0xff := by
    have inside : a < tableBytes := by
      rw [tableBytes]
      omega
    rw [h a inside, emptyTable, if_pos inside]
  rw [entryAt_eq_none, u32At, marked _ (by omega) (by omega), marked _ (by omega) (by omega),
    marked _ (by omega) (by omega), marked _ (by omega) (by omega)]
  rfl

/-- A slot is in use or has no entry. -/
lemma occupied_eq (index : Nat → UInt8) (slot : Nat) :
    occupied index slot = false ↔ entryAt index slot = none := by
  rw [entryAt_eq_none, occupied, bne_eq_false_iff_eq]

/-- The table of an accepted list: the merges as a map, no pair twice, clusters as long as the scan
says, and a free slot or the pair itself within the 51 probes of every search. What the tokenizer
reads off it is the index of a merge map. -/
structure ExactMap (merges : List Merge) (index : Nat → UInt8) : Prop where
  lookup_iff : ∀ left right result rank,
    (TokenizerIndex.lookup index left right).1 = some (result, rank) ↔
    ∃ i m, merges[i]? = some m ∧ m.left = left ∧ m.right = right ∧ m.result = result ∧
      UInt32.ofNat i = rank
  distinct : merges.Pairwise fun m m' => ¬(m.left = m'.left ∧ m.right = m'.right)
  cluster : CircularScan.Longest tableEntries (occupied index) (maxCluster index)
  uncut : ∀ left right, ∃ d < 51,
    u32At index (probeAddress left right d) = freeSlot
  read : ∃ M : MergeMap,
    MergeIndex.ofIndex index = M.index fun byte => u32At index (byteMapOffset + byte.toNat * 4)

/-- A search that finds the merges of a list, with their ranks, is that of a merge map. -/
lemma exists_mergeMap {merges : List Merge} (few : merges.length ≤ tableEntries)
    (exact : ∀ left right result rank,
      (TokenizerIndex.lookup index left right).1 = some (result, rank) ↔
        ∃ i m, merges[i]? = some m ∧ m.left = left ∧ m.right = right ∧ m.result = result ∧
          UInt32.ofNat i = rank) :
    ∃ M : MergeMap, M.rule = fun left right => (TokenizerIndex.lookup index left right).1 := by
  have small {i : Nat} {m : Merge} (known : merges[i]? = some m) : i < 262144 :=
    Nat.lt_of_lt_of_le (List.getElem?_eq_some_iff.mp known).1 few
  have number {i : Nat} {m : Merge} (known : merges[i]? = some m) : (UInt32.ofNat i).toNat = i := by
    have lt := small known
    rw [UInt32.toNat_ofNat']
    omega
  refine ⟨⟨fun left right => (TokenizerIndex.lookup index left right).1, fun {l r a k} rule => ?_,
    fun {l r a l' r' a' k} rule rule' => ?_⟩, rfl⟩
  · obtain ⟨i, m, known, -, -, -, rfl⟩ := (exact l r a k).mp rule
    have lt := small known
    have same := number known
    have top : (0xffffffff : UInt32).toNat = 4294967295 := by decide +kernel
    rw [UInt32.lt_iff_toNat_lt, same, top]
    omega
  -- the rank is the place in the list, so it tells the merge
  · obtain ⟨i, m, known, rfl, rfl, -, rank⟩ := (exact l r a k).mp rule
    obtain ⟨j, m', known', rfl, rfl, -, rank'⟩ := (exact l' r' a' k).mp rule'
    have same : i = j := by
      rw [← number known, ← number known', rank, rank']
    subst same
    obtain rfl := Option.some.inj (known.symm.trans known')
    exact ⟨rfl, rfl⟩

/-- A table that represents the merges maps them exactly. -/
lemma exactMap {merges : List Merge}
    (rep : Represents layout (entryAt index) (merges.zipIdx.map entryOf))
    (distinct : (merges.zipIdx.map entryOf).Pairwise fun a b => a.1 ≠ b.1)
    (cluster : maxCluster index = 50) : ExactMap merges index := by
  have small : maxCluster index < 2 * tableEntries := by
    rw [cluster]
    decide
  have longest := CircularScan.longest_scan (by decide) small
  have uncut (left right : UInt32) :
      ∃ d < 51, entryAt index (layout.slot (left, right) d) = none := by
    obtain ⟨d, le, free⟩ := longest.free (hashSlot left right)
    rw [← maxCluster, cluster] at le
    exact ⟨d, by omega, (occupied_eq index _).mp free⟩
  have exact (left right result rank : UInt32) :
      (TokenizerIndex.lookup index left right).1 = some (result, rank) ↔
        ∃ i m, merges[i]? = some m ∧ m.left = left ∧ m.right = right ∧ m.result = result ∧
          UInt32.ofNat i = rank := by
    obtain ⟨d, lt, free⟩ := uncut left right
    rw [TokenizerIndex.lookup, lookupFrom_eq, rep.find_iff lt free, List.mem_map]
    constructor
    · rintro ⟨⟨m, i⟩, mem, eq⟩
      rw [List.mem_zipIdx_iff_getElem?] at mem
      simp only [entryOf, Prod.mk.injEq] at eq
      exact ⟨i, m, mem, eq.1.1, eq.1.2, eq.2.1, eq.2.2⟩
    · rintro ⟨i, m, mem, rfl, rfl, rfl, rfl⟩
      exact ⟨(m, i), List.mem_zipIdx_iff_getElem?.mpr mem, rfl⟩
  have few := rep.length_le distinct
  rw [List.length_map, List.length_zipIdx] at few
  refine ⟨exact, ?_, longest, fun left right => ?_, ?_⟩
  · rw [List.pairwise_map] at distinct
    rw [← List.zipIdx_map_fst 0 merges, List.pairwise_map]
    exact distinct.imp fun ne eq => ne (Prod.ext eq.1 eq.2)
  · obtain ⟨d, lt, free⟩ := uncut left right
    exact ⟨d, lt, by rw [probeAddress_eq, entryAt_eq_none.mp free]⟩
  · obtain ⟨M, rule⟩ := exists_mergeMap few exact
    exact ⟨M, by rw [MergeIndex.ofIndex, MergeMap.index, rule]⟩

/-- The checks of the table leave it, and its longest cluster is 50. -/
lemma checkTable_ok {digests : (Nat → UInt8) → Option ModelError} {merges : List Merge} {x : Nat}
    (h : checkTable digests merges index x = .ok index') :
    index' = index ∧ maxCluster index = 50 := by
  rw [checkTable] at h
  split_ifs at h with displacement cluster hit miss
  rcases digest : digests index with _ | e <;> rw [digest] at h <;> cases h
  exact ⟨rfl, not_ne_iff.mp cluster⟩

/-- A constructed index maps the merges exactly. -/
lemma construct_ok {digests : (Nat → UInt8) → Option ModelError} {pieces : List (List UInt8)}
    {list : MergeList} {storage : Nat → UInt8}
    (h : construct digests pieces list.merges (emptyTable storage) = .ok index) :
    ExactMap list.merges index := by
  rw [construct] at h
  rcases bytes : (List.range 256).foldlM (putByteId (byteIds pieces)) (emptyTable storage)
    with e | index0 <;> rw [bytes] at h
  · cases h
  replace h : (list.merges.zipIdx.foldlM insertMerge (index0, 0) >>= fun table =>
    checkTable digests list.merges table.1 table.2) = .ok index := h
  rcases table : list.merges.zipIdx.foldlM insertMerge (index0, 0) with e | ⟨index1, x⟩ <;>
    rw [table] at h
  · cases h
  obtain ⟨rfl, cluster⟩ := checkTable_ok h
  obtain ⟨rep, distinct⟩ := represents_foldlM
    (fun entry mem => (list.ids_lt entry.1 (List.fst_mem_of_mem_zipIdx mem)).1)
    (.empty (entryAt_emptyTable (foldlM_putByteId bytes))) .nil table
  exact exactMap rep distinct cluster

end Index

/-- Whatever the digests say, an index that `construct` accepts is the list of merges as a map, and
no pair stands in the list twice. -/
theorem construct_exact (digests : (Nat → UInt8) → Option ModelError) (pieces : List (List UInt8))
    (list : MergeList) (storage : Nat → UInt8) :
    match construct digests pieces list.merges (emptyTable storage) with
    | .ok index => Index.ExactMap list.merges index
    | .error _ => True := by
  rcases h : construct digests pieces list.merges (emptyTable storage) with e | index
  · trivial
  · exact Index.construct_ok h

end Promptboot
