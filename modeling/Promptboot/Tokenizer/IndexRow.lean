import Promptboot.Tokenizer.Index
import Mathlib.Data.List.Nodup

/-!
# Merges in a row

Merges whose pairs are hashed no further than to their own place in the list fill the first slots of
the table, one behind another. How far an entry is from its hash is then a number of the list, the
cluster is the whole list, and `construct` accepts a list for which these numbers are the frozen
ones.

`insertFrom_ok` and `lookupFrom_probes` count the probes of an insertion and of a search, and
`foldlM_insertMerge` is the induction on the merges, with `InRow` for the table so far. The headline
`construct_row` says which of these lists are accepted, and `rowList` is one.
-/

namespace Promptboot.Index
open Memory OpenAddress

variable {index : Nat → UInt8} {left right : UInt32} {merges : List Merge}
  {entries : List ((UInt32 × UInt32) × (UInt32 × UInt32))}

section Probes

/-- Slots of other keys from displacement `d` on. -/
def Others (index : Nat → UInt8) (left right : UInt32) (d n : Nat) : Prop :=
  ∀ e < n, ∃ k v, entryAt index (layout.slot (left, right) (d + e)) = some (k, v) ∧
    k ≠ (left, right)

/-- Behind the first of them the others are left. -/
lemma Others.tail {d n : Nat} (h : Others index left right d (n + 1)) :
    Others index left right (d + 1) n := by
  intro e lt
  have there := h (e + 1) (Nat.succ_lt_succ lt)
  rwa [Nat.add_comm e, ← Nat.add_assoc] at there

/-- The first of them is in use and not the pair's own. -/
lemma Others.head {d n : Nat} (h : Others index left right d (n + 1)) :
    u32At index (layout.slot (left, right) d * 16) ≠ freeSlot ∧
      ¬(u32At index (layout.slot (left, right) d * 16) = left ∧
        u32At index (layout.slot (left, right) d * 16 + 4) = right) := by
  obtain ⟨k, v, some, ne⟩ := h 0 (Nat.succ_pos n)
  rw [Nat.add_zero] at some
  have used : u32At index (layout.slot (left, right) d * 16) ≠ freeSlot := by
    intro free
    rw [entryAt_eq_none.mpr free] at some
    cases some
  rw [entryAt_eq_some used] at some
  obtain ⟨rfl, -⟩ := Prod.mk.inj (Option.some.inj some)
  exact ⟨used, fun same => ne (Prod.ext same.1 same.2)⟩

/-- An insertion goes to the free slot behind slots of other keys. -/
lemma insertFrom_ok {m : Merge} {rank : UInt32} {d n : Nat} (inside : d + n < tableEntries)
    (others : Others index m.left m.right d n)
    (free : entryAt index (layout.slot (m.left, m.right) (d + n)) = none) :
    insertFrom index m rank d =
      .ok (putSlot index (layout.slot (m.left, m.right) (d + n) * 16) m rank, d + n) := by
  induction n generalizing d with
  | zero =>
    rw [Nat.add_zero] at *
    rw [insertFrom, if_pos inside, probeAddress_eq]
    exact if_pos (entryAt_eq_none.mp free)
  | succ n ih =>
    obtain ⟨used, other⟩ := others.head
    rw [insertFrom, if_pos (by omega), probeAddress_eq]
    dsimp only
    rw [if_neg used, if_neg other]
    have place : d + (n + 1) = d + 1 + n := by omega
    rw [place] at inside free ⊢
    exact ih inside others.tail free

/-- A search that comes to its pair behind slots of other keys has looked at these and at it. -/
lemma lookupFrom_probes {d n fuel : Nat} (enough : n < fuel) (others : Others index left right d n)
    {v : UInt32 × UInt32}
    (there : entryAt index (layout.slot (left, right) (d + n)) = some ((left, right), v)) :
    (lookupFrom index left right fuel d).2 = d + n + 1 := by
  induction n generalizing d fuel with
  | zero =>
    obtain ⟨fuel, rfl⟩ := Nat.exists_eq_add_of_lt enough
    have used : u32At index (layout.slot (left, right) d * 16) ≠ freeSlot := by
      intro free
      rw [Nat.add_zero, entryAt_eq_none.mpr free] at there
      cases there
    rw [Nat.add_zero, entryAt_eq_some used] at there
    obtain ⟨key, -⟩ := Prod.mk.inj (Option.some.inj there)
    rw [lookupFrom, probeAddress_eq, if_neg used, if_pos (Prod.mk.inj key)]
  | succ n ih =>
    obtain ⟨fuel, rfl⟩ := Nat.exists_eq_add_of_lt enough
    obtain ⟨used, other⟩ := others.head
    rw [lookupFrom, probeAddress_eq, if_neg used, if_neg other]
    have place : d + (n + 1) = d + 1 + n := by omega
    rw [place] at there ⊢
    exact ih (by omega) others.tail there

end Probes

section Rows

/-- The entries stand in the first slots of the table, in their order. -/
def InRow (index : Nat → UInt8) (entries : List ((UInt32 × UInt32) × (UInt32 × UInt32))) : Prop :=
  ∀ s < tableEntries, entryAt index s = entries[s]?

/-- How far a merge in a row is from its hash. -/
def reach (entry : Merge × Nat) : Nat := entry.2 - hashSlot entry.1.left entry.1.right

/-- The probes of a pair that is hashed into a row of other keys. -/
lemma InRow.others (row : InRow index entries) {n : Nat} (le : n ≤ entries.length)
    (inside : n < tableEntries) (hashed : hashSlot left right ≤ n)
    (fresh : ∀ i < n, ∀ e, entries[i]? = some e → e.1 ≠ (left, right)) :
    Others index left right 0 (n - hashSlot left right) := by
  intro e lt
  have place : layout.slot (left, right) (0 + e) = hashSlot left right + e := by
    rw [Nat.zero_add]
    exact Nat.mod_eq_of_lt (show hashSlot left right + e < tableEntries by omega)
  obtain ⟨⟨k, v⟩, known⟩ : ∃ entry, entries[hashSlot left right + e]? = some entry :=
    ⟨_, List.getElem?_eq_getElem (by omega)⟩
  refine ⟨k, v, ?_, fresh _ (by omega) _ known⟩
  rw [place, row _ (by omega), known]

/-- The slot of a pair at its place in the row. -/
lemma slot_row {n : Nat} (inside : n < tableEntries) (hashed : hashSlot left right ≤ n) :
    layout.slot (left, right) (0 + (n - hashSlot left right)) = n := by
  rw [Nat.zero_add]
  change (hashSlot left right + (n - hashSlot left right)) % tableEntries = n
  rw [Nat.add_sub_cancel' hashed, Nat.mod_eq_of_lt inside]

/-- A merge more goes behind the row. -/
lemma InRow.insert (row : InRow index entries) {m : Merge} {rank : UInt32}
    (inside : entries.length < tableEntries) (id : m.left < freeSlot)
    (hashed : hashSlot m.left m.right ≤ entries.length)
    (fresh : (m.left, m.right) ∉ entries.map Prod.fst) :
    insertFrom index m rank 0 = .ok (putSlot index (entries.length * 16) m rank,
        entries.length - hashSlot m.left m.right) ∧
      InRow (putSlot index (entries.length * 16) m rank)
        (entries ++ [((m.left, m.right), (m.result, rank))]) := by
  have slot := slot_row inside hashed
  have others := row.others (Nat.le_refl _) inside hashed fun i _ e known same =>
    fresh (same ▸ List.mem_map_of_mem (List.mem_of_getElem? known))
  have free : entryAt index (layout.slot (m.left, m.right)
      (0 + (entries.length - hashSlot m.left m.right))) = none := by
    rw [slot, row _ inside]
    exact List.getElem?_eq_none (Nat.le_refl _)
  refine ⟨?_, fun s lt => ?_⟩
  · rw [insertFrom_ok (by omega) others free, slot, Nat.zero_add]
  · rw [entryAt_putSlot id, row s lt]
    split_ifs with here
    · rw [here, List.getElem?_concat_length]
    · rcases Nat.lt_or_gt_of_ne here with before | behind
      · rw [List.getElem?_append_left before]
      · rw [List.getElem?_eq_none (Nat.le_of_lt behind), List.getElem?_eq_none]
        rw [List.length_append]
        exact behind

/-- Merges that are hashed no further than to their place fill the table in a row. -/
lemma foldlM_insertMerge {x : Nat} (row : InRow index entries)
    (fits : entries.length + merges.length ≤ tableEntries)
    (ids : ∀ m ∈ merges, m.left < freeSlot)
    (hashed : ∀ entry ∈ merges.zipIdx entries.length,
      hashSlot entry.1.left entry.1.right ≤ entry.2)
    (distinct : (entries.map Prod.fst ++ merges.map fun m => (m.left, m.right)).Nodup) :
    ∃ index', (merges.zipIdx entries.length).foldlM insertMerge (index, x) =
        .ok (index', (merges.zipIdx entries.length).foldl (fun x entry => max x (reach entry)) x) ∧
      InRow index' (entries ++ (merges.zipIdx entries.length).map entryOf) := by
  induction merges generalizing index entries x with
  | nil => exact ⟨index, rfl, by rwa [List.zipIdx_nil, List.map_nil, List.append_nil]⟩
  | cons m merges ih =>
    rw [List.length_cons] at fits
    rw [List.zipIdx_cons] at hashed ⊢
    rw [List.map_cons] at distinct
    obtain ⟨-, -, apart⟩ := List.nodup_append.mp distinct
    have fresh : (m.left, m.right) ∉ entries.map Prod.fst := fun mem =>
      apart _ mem _ List.mem_cons_self rfl
    have below : hashSlot m.left m.right ≤ entries.length :=
      hashed (m, entries.length) List.mem_cons_self
    obtain ⟨run, row⟩ : insertFrom index m (UInt32.ofNat entries.length) 0 = _ ∧ InRow _ _ :=
      row.insert (by omega) (ids m List.mem_cons_self) below fresh
    have length : (entries ++ [((m.left, m.right), (m.result, UInt32.ofNat entries.length))]).length =
        entries.length + 1 := by
      rw [List.length_append]
      rfl
    have step : insertMerge (index, x) (m, entries.length) =
        .ok (putSlot index (entries.length * 16) m (UInt32.ofNat entries.length),
          max x (reach (m, entries.length))) := by
      rw [insertMerge, run]
      rfl
    have rest := @ih _ _ (max x (reach (m, entries.length))) row (by omega)
      (fun other mem => ids other (List.mem_cons_of_mem _ mem))
    rw [length] at rest
    obtain ⟨index', done, filled⟩ := rest (fun entry mem => hashed entry (List.mem_cons_of_mem _ mem))
      (by rwa [List.map_append, List.append_assoc])
    refine ⟨index', ?_, ?_⟩
    · rw [List.foldlM_cons, step]
      exact done
    · rwa [List.append_assoc] at filled

/-- The cluster of a row is the whole row. -/
lemma InRow.maxCluster_eq (row : InRow index entries) (room : entries.length < tableEntries) :
    maxCluster index = entries.length := by
  have first : ∀ s < tableEntries, occupied index s = decide (s < entries.length) := by
    intro s lt
    by_cases here : s < entries.length
    · rw [decide_eq_true here, ← Bool.not_eq_false, occupied_eq, row s lt,
        List.getElem?_eq_getElem here]
      exact Option.some_ne_none _
    · rw [decide_eq_false here, occupied_eq, row s lt]
      exact List.getElem?_eq_none (Nat.le_of_not_lt here)
  have free : occupied index entries.length = false := by
    rw [first _ room]
    exact decide_eq_false (Nat.lt_irrefl _)
  exact CircularScan.scan_eq room free (CircularScan.longest_first room first)

/-- A search for an entry of a row takes as many probes as it is far from its hash, and one. -/
lemma InRow.lookup_probes (row : InRow index entries) {i : Nat} {v : UInt32 × UInt32}
    (known : entries[i]? = some ((left, right), v)) (inside : i < tableEntries)
    (hashed : hashSlot left right ≤ i) (near : i - hashSlot left right < 51)
    (distinct : (entries.map Prod.fst).Nodup) :
    (TokenizerIndex.lookup index left right).2 = i - hashSlot left right + 1 := by
  have lt : i < entries.length := (List.getElem?_eq_some_iff.mp known).1
  have others := row.others (Nat.le_of_lt lt) inside hashed fun j before e at_j same => by
    have twice := List.nodup_iff_getElem?_ne_getElem?.mp distinct j i before
      (by rwa [List.length_map])
    rw [List.getElem?_map, List.getElem?_map, at_j, known, Option.map_some, Option.map_some,
      same] at twice
    exact twice rfl
  have there : entryAt index (layout.slot (left, right) (0 + (i - hashSlot left right))) =
      some ((left, right), v) := by
    rw [slot_row inside hashed, row i inside, known]
  rw [TokenizerIndex.lookup, lookupFrom_probes near others there, Nat.zero_add]

/-- The farthest that a merge of the list is from its hash. -/
def farthest (merges : List Merge) : Nat :=
  merges.zipIdx.foldl (fun x entry => max x (reach entry)) 0

/-- Nothing that a maximum is taken of is larger. -/
lemma reach_le_foldl {l : List (Merge × Nat)} {x : Nat} :
    x ≤ l.foldl (fun x entry => max x (reach entry)) x ∧
      ∀ entry ∈ l, reach entry ≤ l.foldl (fun x entry => max x (reach entry)) x := by
  induction l generalizing x with
  | nil => exact ⟨Nat.le_refl x, fun _ mem => absurd mem List.not_mem_nil⟩
  | cons head l ih =>
    obtain ⟨start, rest⟩ := @ih (max x (reach head))
    rw [List.foldl_cons]
    refine ⟨Nat.le_trans (Nat.le_max_left ..) start, fun entry mem => ?_⟩
    rcases List.mem_cons.mp mem with rfl | mem
    · exact Nat.le_trans (Nat.le_max_right ..) start
    · exact rest entry mem

/-- A maximum of successors. -/
lemma foldl_succ_reach {l : List (Merge × Nat)} {x : Nat} :
    l.foldl (fun hit entry => max hit (reach entry + 1)) (x + 1) =
      l.foldl (fun x entry => max x (reach entry)) x + 1 := by
  induction l generalizing x with
  | nil => rfl
  | cons head l ih =>
    rw [List.foldl_cons, List.foldl_cons, ← ih, Nat.succ_max_succ]

/-- The longest search for a merge of a row. -/
lemma InRow.maxHit_eq (row : InRow index (merges.zipIdx.map entryOf)) (some : merges ≠ [])
    (fits : merges.length ≤ tableEntries) (near : farthest merges < 51)
    (hashed : ∀ entry ∈ merges.zipIdx, hashSlot entry.1.left entry.1.right ≤ entry.2)
    (distinct : (merges.map fun m => (m.left, m.right)).Nodup) :
    maxHit index merges = farthest merges + 1 := by
  have keys : (merges.zipIdx.map entryOf).map Prod.fst = merges.map fun m => (m.left, m.right) := by
    rw [List.map_map, ← List.zipIdx_map_fst 0 merges, List.map_map, List.zipIdx_map_fst]
    rfl
  have probes : ∀ hit, ∀ entry ∈ merges.zipIdx,
      max hit (TokenizerIndex.lookup index entry.1.left entry.1.right).2 =
        max hit (reach entry + 1) := by
    intro hit entry mem
    have at_place := List.mem_zipIdx_iff_getElem?.mp mem
    have lt := (List.getElem?_eq_some_iff.mp at_place).1
    have known : (merges.zipIdx.map entryOf)[entry.2]? = Option.some (entryOf entry) := by
      rw [List.getElem?_map, List.getElem?_zipIdx, at_place, Option.map_some, Nat.zero_add]
      rfl
    have below : reach entry < 51 := Nat.lt_of_le_of_lt (reach_le_foldl.2 entry mem) near
    rw [row.lookup_probes known (by omega) (hashed entry mem) below (keys ▸ distinct)]
    rfl
  have whole : maxHit index merges = (merges.zipIdx.map Prod.fst).foldl (fun hit merge =>
      max hit (TokenizerIndex.lookup index merge.left merge.right).2) 0 := by
    rw [List.zipIdx_map_fst]
    rfl
  rw [whole, List.foldl_map, List.foldl_ext _ _ _ probes, farthest]
  cases merges with
  | nil => exact absurd rfl some
  | cons m merges =>
    rw [List.zipIdx_cons, List.foldl_cons, List.foldl_cons, ← foldl_succ_reach, Nat.zero_max,
      Nat.zero_max]

end Rows

section Accepts

/-- What an element of a list sets and the others keep, a fold has in the end. -/
lemma foldl_reaches {α σ : Type} {f : σ → α → σ} {P : σ → Prop} {Q : α → Prop} {l : List α} {s : σ}
    (keeps : ∀ s, ∀ a ∈ l, P s → P (f s a)) (sets : ∀ s, ∀ a ∈ l, Q a → P (f s a))
    (h : P s ∨ ∃ a ∈ l, Q a) : P (l.foldl f s) := by
  induction l generalizing s with
  | nil =>
    rcases h with held | ⟨a, mem, -⟩
    · exact held
    · exact absurd mem List.not_mem_nil
  | cons head l ih =>
    refine ih (fun s a mem => keeps s a (List.mem_cons_of_mem _ mem))
      (fun s a mem => sets s a (List.mem_cons_of_mem _ mem)) ?_
    rcases h with held | ⟨a, mem, some⟩
    · exact .inl (keeps s head List.mem_cons_self held)
    · rcases List.mem_cons.mp mem with rfl | mem
      · exact .inl (sets s a List.mem_cons_self some)
      · exact .inr ⟨a, mem, some⟩

/-- A byte is encoded in one or two bytes. -/
lemma length_encodedByte (byte : UInt8) : (encodedByte byte).length ≤ 2 := by
  rw [encodedByte]
  split <;> simp

/-- A byte that is spelled by a token has an id. -/
lemma byteIds_ne {pieces : List (List UInt8)} {byte : UInt8} (few : pieces.length < 2 ^ 32)
    (spelled : encodedByte byte ∈ pieces) : byteIds pieces byte ≠ freeSlot := by
  have small : ∀ entry ∈ pieces.zipIdx, UInt32.ofNat entry.2 ≠ freeSlot := by
    intro entry mem same
    have lt := (List.getElem?_eq_some_iff.mp (List.mem_zipIdx_iff_getElem?.mp mem)).1
    have number := congrArg UInt32.toNat same
    have top : freeSlot.toNat = 4294967295 := by decide +kernel
    rw [UInt32.toNat_ofNat', top] at number
    omega
  rw [byteIds]
  refine foldl_reaches (P := fun ids : UInt8 → UInt32 => ids byte ≠ freeSlot)
    (Q := fun entry : List UInt8 × Nat => entry.1 = encodedByte byte)
    (fun ids entry mem held => ?_) (fun ids entry mem same => ?_) ?_
  · dsimp only
    split_ifs
    · dsimp only
      split_ifs
      · exact small entry mem
      · exact held
    · exact held
  · have short : entry.1.length ≤ 2 := same ▸ length_encodedByte byte
    dsimp only
    rw [if_pos short]
    split_ifs with new
    · exact small entry mem
    · exact fun free => new ⟨free, same⟩
  · obtain ⟨i, known⟩ := List.mem_iff_getElem?.mp spelled
    exact .inr ⟨(_, i), List.mem_zipIdx_iff_getElem?.mpr known, rfl⟩

/-- Where every byte has an id the byte map is written. -/
lemma foldlM_putByteId_ok {ids : UInt8 → UInt32} (known : ∀ byte, ids byte ≠ freeSlot)
    (l : List Nat) : ∃ index', l.foldlM (putByteId ids) index = .ok index' := by
  induction l generalizing index with
  | nil => exact ⟨index, rfl⟩
  | cons byte l ih =>
    obtain ⟨index', rest⟩ := @ih (putU32 index (byteMapOffset + byte * 4) (ids (UInt8.ofNat byte)))
    refine ⟨index', ?_⟩
    rw [List.foldlM_cons, putByteId, if_neg (known _)]
    exact rest

/-- A list in a row with the frozen numbers is accepted, if the digests are in order. -/
theorem construct_row {digests : (Nat → UInt8) → Option ModelError} {pieces : List (List UInt8)}
    {list : MergeList} {storage : Nat → UInt8} (digest : ∀ index, digests index = none)
    (few : pieces.length < 2 ^ 32) (spelled : ∀ byte, encodedByte byte ∈ pieces)
    (length : list.merges.length = 50) (far : farthest list.merges = 42)
    (hashed : ∀ entry ∈ list.merges.zipIdx, hashSlot entry.1.left entry.1.right ≤ entry.2)
    (distinct : (list.merges.map fun m => (m.left, m.right)).Nodup) :
    ∃ index, construct digests pieces list.merges (emptyTable storage) = .ok index := by
  have size : tableEntries = 262144 := rfl
  obtain ⟨blank, bytes⟩ := @foldlM_putByteId_ok (emptyTable storage) _
    (fun byte => byteIds_ne few (spelled byte)) (List.range 256)
  have none : InRow blank [] := fun s lt => entryAt_emptyTable (foldlM_putByteId bytes) s lt
  obtain ⟨index, table, row⟩ := @foldlM_insertMerge blank list.merges [] 0 none
    (by rw [List.length_nil]; omega) (fun m mem => (list.ids_lt m mem).1) hashed distinct
  rw [List.nil_append] at row
  have count : (list.merges.zipIdx.map entryOf).length = 50 := by
    rw [List.length_map, List.length_zipIdx, length]
  have room : (list.merges.zipIdx.map entryOf).length < tableEntries := by omega
  have cluster : maxCluster index = 50 := (row.maxCluster_eq room).trans count
  have hit : maxHit index list.merges = 43 := by
    have some : list.merges ≠ [] := List.ne_nil_of_length_pos (by omega)
    rw [row.maxHit_eq some (by omega) (by omega) hashed distinct, far]
  refine ⟨index, ?_⟩
  rw [construct, bytes]
  change (list.merges.zipIdx.foldlM insertMerge (blank, 0) >>= fun table =>
    checkTable digests list.merges table.1 table.2) = .ok index
  have displacement : list.merges.zipIdx.foldlM insertMerge (blank, 0) = .ok (index, 42) :=
    table.trans (by rw [← far]; rfl)
  have passes : checkTable digests list.merges index 42 = .ok index := by
    rw [checkTable, cluster, hit, digest]
    rfl
  have next (check : (Nat → UInt8) × Nat → Except ModelError (Nat → UInt8)) :
      (Except.ok (index, 42) >>= check) = check (index, 42) := rfl
  rw [displacement, next, passes]

end Accepts

end Promptboot.Index

namespace Promptboot
open Index

/-- Fifty merges: 43 are hashed to the first slot, then one to each slot. The factor is the inverse
of the hash's. -/
def rowMerges : List Merge :=
  (List.range 50).map fun i =>
    let product := if i < 43 then UInt64.ofNat i else UInt64.ofNat i <<< 46
    let key := product * 0xf1de83e19937733d
    ⟨(key >>> 32).toUInt32, key.toUInt32, 0, i⟩

/-- Their ids are no marks of free slots. -/
lemma rowMerges_ids : ∀ m ∈ rowMerges, m.left < freeSlot ∧ m.right < freeSlot ∧
    m.result < freeSlot := by
  decide +kernel

def rowList : MergeList := ⟨rowMerges, rowMerges_ids⟩

/-- A token for each byte. -/
def bytePieces : List (List UInt8) := (List.range 256).map fun byte => encodedByte (UInt8.ofNat byte)

/-- A list that is accepted. -/
theorem construct_exact_row :
    ∃ index, construct (fun _ => none) bytePieces rowList.merges (emptyTable fun _ => 0) =
      .ok index ∧ ExactMap rowList.merges index := by
  have spelled (byte : UInt8) : encodedByte byte ∈ bytePieces := by
    refine List.mem_map.mpr ⟨byte.toNat, List.mem_range.mpr byte.toNat_lt, ?_⟩
    rw [UInt8.ofNat_toNat]
  obtain ⟨index, accepted⟩ : ∃ index, construct (fun _ => none) bytePieces rowList.merges
      (emptyTable fun _ => 0) = .ok index :=
    construct_row (fun _ => rfl) (by decide +kernel) spelled (by decide +kernel) (by decide +kernel)
      (by decide +kernel) (by decide +kernel)
  refine ⟨index, accepted, ?_⟩
  generalize bytePieces = pieces at accepted
  generalize rowList = list at accepted ⊢
  have exact := construct_exact (fun _ => none) pieces list fun _ => 0
  rwa [accepted] at exact

end Promptboot
