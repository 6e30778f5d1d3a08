import Mathlib.Logic.Function.Basic
import Mathlib.Data.List.Basic
import Mathlib.Data.List.Perm.Subperm
import Mathlib.Data.Nat.ModEq
import Mathlib.Tactic.Common

/-!
# Open addressing

A table of `size` slots with linear probing that wraps round its end. `Represents` ties a table to
the entries inserted into it: each is reached from the slot of its hash over occupied slots. An
insertion keeps that, and a search that runs into a free slot before its limit finds exactly what
was inserted. The scan over two laps measures the longest circular run of occupied slots.

The helper `Represents.insert` is the step of the table's construction and `Represents.find_iff`
what a search makes of it, with `findFrom_sound` and `findFrom_complete` for the two directions. The
headline `longest_scan` rests on the invariant `Scanned`, which `Scanned.step` keeps. Where a slot is
free the scan is always that run, `scan_eq`.
-/

namespace OpenAddress

variable {κ ν : Type}

/-- The size of a table and the slot a key is hashed to. -/
structure Layout (κ : Type) where
  size : Nat
  size_pos : 0 < size
  hash : κ → Nat

/-- The slot of a probe. -/
def Layout.slot (L : Layout κ) (k : κ) (displacement : Nat) : Nat :=
  (L.hash k + displacement) % L.size

variable {L : Layout κ} {t t' : Nat → Option (κ × ν)} {entries : List (κ × ν)} {k : κ} {v : ν}

/-- Every slot is in the table. -/
lemma Layout.slot_lt (L : Layout κ) (k : κ) (d : Nat) : L.slot k d < L.size :=
  Nat.mod_lt _ L.size_pos

/-- Different probes of a lap look at different slots. -/
lemma Layout.slot_injective {d d' : Nat} (h : d < L.size) (h' : d' < L.size)
    (eq : L.slot k d = L.slot k d') : d = d' := by
  have congr : d % L.size = d' % L.size := Nat.ModEq.add_left_cancel' (L.hash k) eq
  rwa [Nat.mod_eq_of_lt h, Nat.mod_eq_of_lt h'] at congr

/-- `k` goes to the first free slot behind slots of other keys. -/
structure Inserts (L : Layout κ) (t : Nat → Option (κ × ν)) (k : κ) (v : ν) (d : Nat)
    (t' : Nat → Option (κ × ν)) : Prop where
  lt : d < L.size
  chain : ∀ d' < d, ∃ k' v', t (L.slot k d') = some (k', v') ∧ k' ≠ k
  free : t (L.slot k d) = none
  stored : ∀ s < L.size, t' s = if s = L.slot k d then some (k, v) else t s

/-- The table holds the entries, each once and reached over occupied slots. -/
structure Represents (L : Layout κ) (t : Nat → Option (κ × ν)) (entries : List (κ × ν)) : Prop where
  content : ∀ s < L.size, ∀ k v, t s = some (k, v) → (k, v) ∈ entries
  reached : ∀ k v, (k, v) ∈ entries → ∃ d < L.size, t (L.slot k d) = some (k, v) ∧
    ∀ d' < d, t (L.slot k d') ≠ none
  unique : ∀ s < L.size, ∀ s' < L.size, ∀ k v v', t s = some (k, v) → t s' = some (k, v') → s = s'

/-- An empty table represents nothing. -/
lemma Represents.empty (h : ∀ s < L.size, t s = none) : Represents L t [] where
  content s hs k v some := by rw [h s hs] at some; cases some
  reached k v mem := absurd mem List.not_mem_nil
  unique s hs s' _ k v v' some := by rw [h s hs] at some; cases some

/-- A table holds no more entries than it has slots. -/
lemma Represents.length_le (h : Represents L t entries)
    (distinct : entries.Pairwise fun a b => a.1 ≠ b.1) : entries.length ≤ L.size := by
  have nodup : entries.Nodup := distinct.imp fun ne same => ne (congrArg Prod.fst same)
  have stored : entries ⊆ (List.range L.size).filterMap t := by
    rintro ⟨k, v⟩ mem
    obtain ⟨d, _, some, _⟩ := h.reached k v mem
    exact List.mem_filterMap.mpr ⟨L.slot k d, List.mem_range.mpr (L.slot_lt k d), some⟩
  calc
    entries.length ≤ ((List.range L.size).filterMap t).length :=
      (List.subperm_of_subset nodup stored).length_le
    _ ≤ (List.range L.size).length := List.length_filterMap_le _ _
    _ = L.size := List.length_range

/-- An insertion that succeeds is of a new key. -/
lemma Represents.new_key {d : Nat} (h : Represents L t entries) (ins : Inserts L t k v d t') :
    ∀ v', (k, v') ∉ entries := by
  intro v' mem
  obtain ⟨d', lt, some, chain⟩ := h.reached k v' mem
  rcases Nat.lt_trichotomy d' d with before | rfl | behind
  · obtain ⟨k', v'', other, ne⟩ := ins.chain d' before
    rw [some] at other
    cases other
    exact ne rfl
  · rw [ins.free] at some
    cases some
  · exact chain d behind ins.free

/-- An insertion leaves the slots in use. -/
lemma Inserts.kept {d : Nat} (ins : Inserts L t k v d t') {s : Nat} (hs : s < L.size)
    (occupied : t s ≠ none) : t' s = t s := by
  rw [ins.stored s hs, if_neg]
  rintro rfl
  exact occupied ins.free

/-- An insertion adds an entry at the end. -/
lemma Represents.insert {d : Nat} (h : Represents L t entries) (ins : Inserts L t k v d t') :
    Represents L t' (entries ++ [(k, v)]) where
  content s hs k' v' some := by
    rw [ins.stored s hs] at some
    split_ifs at some with here
    · cases some
      simp
    · exact List.mem_append_left _ (h.content s hs k' v' some)
  reached k' v' mem := by
    rcases List.mem_append.mp mem with old | new
    · obtain ⟨d', lt, some, chain⟩ := h.reached k' v' old
      refine ⟨d', lt, ?_, fun d'' before => ?_⟩
      · rw [ins.kept (L.slot_lt ..) (by rw [some]; exact Option.some_ne_none _), some]
      · rw [ins.kept (L.slot_lt ..) (chain d'' before)]
        exact chain d'' before
    · obtain ⟨rfl, rfl⟩ := Prod.mk.inj (List.mem_singleton.mp new)
      refine ⟨d, ins.lt, by rw [ins.stored _ (L.slot_lt ..), if_pos rfl], fun d' before => ?_⟩
      obtain ⟨k', v', some, -⟩ := ins.chain d' before
      rw [ins.kept (L.slot_lt ..) (by rw [some]; nofun), some]
      nofun
  unique s hs s' hs' k' v' v'' some some' := by
    rw [ins.stored s hs] at some
    rw [ins.stored s' hs'] at some'
    -- the new key stands in the new slot only
    split_ifs at some some' with here here'
    · rw [here, here']
    · cases some
      exact absurd (h.content s' hs' _ _ some') (h.new_key ins _)
    · cases some'
      exact absurd (h.content s hs _ _ some) (h.new_key ins _)
    · exact h.unique s hs s' hs' k' v' v'' some some'

variable [DecidableEq κ]

/-- The search for a key, `n` probes from displacement `d` on. -/
def findFrom (L : Layout κ) (t : Nat → Option (κ × ν)) (k : κ) : Nat → Nat → Option ν
  | 0, _ => none
  | n + 1, d =>
    match t (L.slot k d) with
    | none => none
    | some (k', v) => if k' = k then some v else findFrom L t k n (d + 1)

/-- A search ends at a free slot. -/
lemma findFrom_free {n d : Nat} (h : t (L.slot k d) = none) : findFrom L t k (n + 1) d = none := by
  rw [findFrom, h]

/-- A search goes on at a slot with another key. -/
lemma findFrom_occupied {n d : Nat} {k' : κ} (h : t (L.slot k d) = some (k', v)) :
    findFrom L t k (n + 1) d = if k' = k then some v else findFrom L t k n (d + 1) := by
  rw [findFrom, h]

/-- What a search finds is in the table under the key. -/
lemma findFrom_sound {n d : Nat} (h : findFrom L t k n d = some v) :
    ∃ d', t (L.slot k d') = some (k, v) := by
  induction n generalizing d with
  | zero => cases h
  | succ n ih =>
    rw [findFrom] at h
    rcases hd : t (L.slot k d) with _ | ⟨k', v'⟩ <;> rw [hd] at h
    · cases h
    · dsimp only at h
      split_ifs at h with same
      · cases h
        exact ⟨d, by rw [hd, same]⟩
      · exact ih h

/-- A search finds what stands behind occupied slots of other keys. -/
lemma findFrom_complete {n d d' : Nat} (le : d ≤ d') (lt : d' < d + n)
    (some : t (L.slot k d') = some (k, v))
    (chain : ∀ e < d', ∃ k' v', t (L.slot k e) = Option.some (k', v') ∧ k' ≠ k) :
    findFrom L t k n d = Option.some v := by
  induction n generalizing d with
  | zero => omega
  | succ n ih =>
    rw [findFrom]
    by_cases here : d = d'
    · rw [here, some]
      exact if_pos rfl
    · obtain ⟨k', v', other, ne⟩ := chain d (by omega)
      rw [other]
      exact (if_neg ne).trans (ih (by omega) (by omega))

/-- A search that comes to a free slot within its limit finds exactly what was inserted. -/
lemma Represents.find_iff {limit d : Nat} (h : Represents L t entries) (lt : d < limit)
    (free : t (L.slot k d) = none) :
    findFrom L t k limit 0 = some v ↔ (k, v) ∈ entries := by
  constructor
  · intro found
    obtain ⟨d', some⟩ := findFrom_sound found
    exact h.content _ (L.slot_lt ..) k v some
  · intro mem
    obtain ⟨d', lt', some, chain⟩ := h.reached k v mem
    have before : d' < limit := by
      by_contra long
      exact chain d (by omega) free
    refine findFrom_complete (Nat.zero_le _) (by omega) some fun e he => ?_
    obtain ⟨⟨k', v'⟩, occupied⟩ := Option.ne_none_iff_exists'.mp (chain e he)
    refine ⟨k', v', occupied, ?_⟩
    rintro rfl
    have same := h.unique _ (L.slot_lt ..) _ (L.slot_lt ..) k' v' v occupied some
    have := L.slot_injective (by omega) lt' same
    omega

end OpenAddress

/-!
The longest circular run.
-/

namespace CircularScan

/-- `n` occupied slots from `s` on, round the end of the circle. -/
def Run (size : Nat) (occupied : Nat → Bool) (s n : Nat) : Prop :=
  ∀ i < n, occupied ((s + i) % size) = true

/-- The scan over two laps, which ends in the second at the first free slot. -/
def scanFrom (size : Nat) (occupied : Nat → Bool) (slot longest current : Nat) : Nat :=
  if slot < 2 * size then
    let next := if occupied (slot % size) then current + 1 else 0
    let longest := max longest next
    if size ≤ slot ∧ next = 0 then longest
    else scanFrom size occupied (slot + 1) longest next
  else longest
termination_by 2 * size - slot

variable {size : Nat} {occupied : Nat → Bool}

/-- The invariant of the scan: `current` slots up to here are occupied and no more, and `longest`
is the longest run so far. -/
structure Scanned (size : Nat) (occupied : Nat → Bool) (slot longest current : Nat) : Prop where
  current_le : current ≤ slot
  current_run : Run size occupied (slot - current) current
  current_max : ∀ s n, s + n = slot → Run size occupied s n → n ≤ current
  longest_run : ∃ s, s + longest ≤ slot ∧ Run size occupied s longest
  longest_max : ∀ s n, s + n ≤ slot → Run size occupied s n → n ≤ longest
  lap : ∀ i, size ≤ i → i < slot → occupied (i % size) = true

/-- Before the first slot no run is seen. -/
lemma Scanned.start : Scanned size occupied 0 0 0 where
  current_le := Nat.le_refl 0
  current_run := nofun
  current_max s n eq _ := by omega
  longest_run := ⟨0, Nat.le_refl 0, nofun⟩
  longest_max s n le _ := by omega
  lap i _ lt := by omega

/-- A slot more, occupied or free. -/
lemma Scanned.step {slot longest current : Nat} (h : Scanned size occupied slot longest current)
    (lap : size ≤ slot → occupied (slot % size) = true) :
    Scanned size occupied (slot + 1)
      (max longest (if occupied (slot % size) then current + 1 else 0))
      (if occupied (slot % size) then current + 1 else 0) := by
  obtain ⟨current_le, current_run, current_max, ⟨s, fits, run⟩, longest_max, old⟩ := h
  have lap' : ∀ i, size ≤ i → i < slot + 1 → occupied (i % size) = true := by
    intro i le lt
    rcases Nat.lt_succ_iff_lt_or_eq.mp lt with before | rfl
    · exact old i le before
    · exact lap le
  by_cases taken : occupied (slot % size) = true
  · simp only [taken, if_true]
    have longer : Run size occupied (slot - current) (current + 1) := by
      intro i hi
      rcases Nat.lt_succ_iff_lt_or_eq.mp hi with before | rfl
      · exact current_run i before
      · rwa [Nat.sub_add_cancel current_le]
    have ending : ∀ s n, s + n = slot + 1 → Run size occupied s n → n ≤ current + 1 := by
      intro s n eq run
      cases n with
      | zero => omega
      | succ n =>
        have shorter := current_max s n (by omega) fun i hi => run i (by omega)
        omega
    refine ⟨by omega, by rwa [Nat.add_sub_add_right], ending, ?_, ?_, lap'⟩
    · rcases Nat.le_total longest (current + 1) with le | le
      · rw [Nat.max_eq_right le]
        exact ⟨slot - current, by omega, longer⟩
      · rw [Nat.max_eq_left le]
        exact ⟨s, by omega, run⟩
    · intro s n le run
      rcases Nat.lt_succ_iff_lt_or_eq.mp (Nat.lt_succ_of_le le) with before | eq
      · exact Nat.le_trans (longest_max s n (by omega) run) (Nat.le_max_left _ _)
      · exact Nat.le_trans (ending s n eq run) (Nat.le_max_right _ _)
  · simp only [taken, Bool.false_eq_true, if_false, Nat.max_zero]
    -- no run of a positive length ends at a free slot
    have ending : ∀ s n, s + n = slot + 1 → Run size occupied s n → n = 0 := by
      intro s n eq run
      cases n with
      | zero => rfl
      | succ n =>
        have last := run n (Nat.lt_succ_self n)
        rw [show s + n = slot by omega] at last
        exact absurd last taken
    refine ⟨Nat.zero_le _, nofun, fun s n eq run => (ending s n eq run).le, ⟨s, by omega, run⟩, ?_,
      lap'⟩
    intro s n le run
    rcases Nat.lt_succ_iff_lt_or_eq.mp (Nat.lt_succ_of_le le) with before | eq
    · exact longest_max s n (by omega) run
    · rw [ending s n eq run]
      exact Nat.zero_le _

/-- A run starts in the first lap, if one wants it to. -/
lemma Run.normalize {s n : Nat} (h : Run size occupied s n) : Run size occupied (s % size) n := by
  intro i hi
  rw [Nat.mod_add_mod]
  exact h i hi

/-- What a scan finds that stays below two laps is the longest circular run. -/
def Longest (size : Nat) (occupied : Nat → Bool) (longest : Nat) : Prop :=
  (∃ s, Run size occupied s longest) ∧ ∀ s n, Run size occupied s n → n ≤ longest

/-- From any slot on, the scan ends with the longest run. -/
lemma longest_of_scanned (size_pos : 0 < size) {slot longest current : Nat}
    (h : Scanned size occupied slot longest current)
    (small : scanFrom size occupied slot longest current < 2 * size) :
    Longest size occupied (scanFrom size occupied slot longest current) := by
  -- on the slots that are left of the two laps
  induction h' : 2 * size - slot using Nat.strong_induction_on
    generalizing slot longest current with
  | _ left ih =>
  rw [scanFrom] at small ⊢
  by_cases inside : slot < 2 * size
  · rw [if_pos inside] at small ⊢
    dsimp only at small ⊢
    by_cases stop : size ≤ slot ∧ (if occupied (slot % size) then current + 1 else 0) = 0
    -- the first free slot of the second lap: no run of the circle goes across it
    · rw [if_pos stop, stop.2, Nat.max_zero]
      have isFree : occupied (slot % size) = false := by
        by_contra taken
        rw [Bool.not_eq_false] at taken
        have zero := stop.2
        rw [taken] at zero
        exact absurd zero (Nat.succ_ne_zero _)
      obtain ⟨s, -, run⟩ := h.longest_run
      refine ⟨⟨s, run⟩, fun s n run => ?_⟩
      have start := Nat.mod_lt s size_pos
      by_cases fits : s % size + n ≤ slot
      · exact h.longest_max _ n fits run.normalize
      · have across := run.normalize (slot - s % size) (by omega)
        rw [Nat.add_sub_cancel' (by omega), isFree] at across
        cases across
    · rw [if_neg stop] at small ⊢
      refine ih _ (by omega) (h.step fun le => ?_) small rfl
      by_contra isFree
      exact stop ⟨le, if_neg isFree⟩
  -- two laps without a free slot
  · rw [if_neg inside] at small
    have full : Run size occupied 0 (2 * size) := by
      intro i hi
      have second := h.lap (i % size + size) (by omega)
        (by have := Nat.mod_lt i size_pos; omega)
      rw [Nat.zero_add]
      rwa [Nat.add_mod_right, Nat.mod_mod] at second
    have := h.longest_max 0 (2 * size) (by omega) full
    omega

/-- The scan from the start. -/
def scan (size : Nat) (occupied : Nat → Bool) : Nat := scanFrom size occupied 0 0 0

/-- Unless every slot is occupied, the scan measures the longest circular run. -/
theorem longest_scan (size_pos : 0 < size) (small : scan size occupied < 2 * size) :
    Longest size occupied (scan size occupied) :=
  longest_of_scanned size_pos .start small

/-- What the scan finds is the length of a run. -/
lemma run_of_scanned {slot longest current : Nat}
    (h : Scanned size occupied slot longest current) :
    ∃ s, Run size occupied s (scanFrom size occupied slot longest current) := by
  obtain ⟨s, -, run⟩ := h.longest_run
  -- on the slots that are left of the two laps
  induction h' : 2 * size - slot using Nat.strong_induction_on
    generalizing slot longest current s with
  | _ left ih =>
  rw [scanFrom]
  by_cases inside : slot < 2 * size
  · rw [if_pos inside]
    dsimp only
    by_cases stop : size ≤ slot ∧ (if occupied (slot % size) then current + 1 else 0) = 0
    · rw [if_pos stop, stop.2, Nat.max_zero]
      exact ⟨s, run⟩
    · rw [if_neg stop]
      have next := h.step fun le => by
        by_contra isFree
        exact stop ⟨le, if_neg isFree⟩
      obtain ⟨s', -, run'⟩ := next.longest_run
      exact ih _ (by omega) next s' run' rfl
  · rw [if_neg inside]
    exact ⟨s, run⟩

/-- Where a slot is free no run goes round the circle. -/
lemma Run.lt {s n free : Nat} (h : Run size occupied s n) (lt : free < size)
    (isFree : occupied free = false) : n < size := by
  by_contra long
  have start := Nat.mod_lt s (Nat.zero_lt_of_lt lt)
  have there := h.normalize ((free + size - s % size) % size)
    (Nat.lt_of_lt_of_le (Nat.mod_lt _ (Nat.zero_lt_of_lt lt)) (Nat.le_of_not_lt long))
  rw [Nat.add_mod_mod, Nat.add_sub_cancel' (by omega), Nat.add_mod_right, Nat.mod_eq_of_lt lt,
    isFree] at there
  cases there

/-- Where a slot is free the scan is the longest run. -/
lemma scan_eq {n free : Nat} (lt : free < size) (isFree : occupied free = false)
    (longest : Longest size occupied n) : scan size occupied = n := by
  obtain ⟨s, run⟩ := run_of_scanned (.start : Scanned size occupied 0 0 0)
  have below : scan size occupied < size := run.lt lt isFree
  have small : scan size occupied < 2 * size := by omega
  have found := longest_scan (Nat.zero_lt_of_lt lt) small
  obtain ⟨there, run⟩ := found.1
  obtain ⟨here, same⟩ := longest.1
  exact Nat.le_antisymm (longest.2 there _ run) (found.2 here _ same)

/-- Where the first slots are occupied and no others, these are the longest run. -/
lemma longest_first {n : Nat} (lt : n < size) (first : ∀ s < size, occupied s = decide (s < n)) :
    Longest size occupied n := by
  refine ⟨⟨0, fun i below => ?_⟩, fun s m run => ?_⟩
  · rw [Nat.zero_add, Nat.mod_eq_of_lt (by omega), first i (by omega)]
    exact decide_eq_true below
  · by_contra long
    have start := Nat.mod_lt s (Nat.zero_lt_of_lt lt)
    by_cases inside : s % size < n
    · have free := run.normalize (n - s % size) (by omega)
      rw [Nat.add_sub_cancel' (Nat.le_of_lt inside), Nat.mod_eq_of_lt lt, first n lt] at free
      exact absurd (of_decide_eq_true free) (Nat.lt_irrefl n)
    · have free := run.normalize 0 (by omega)
      rw [Nat.add_zero, Nat.mod_mod, first _ start] at free
      exact inside (of_decide_eq_true free)

/-- Every stretch that is longer than the longest run has a free slot. -/
lemma Longest.free {longest : Nat} (h : Longest size occupied longest) (s : Nat) :
    ∃ i ≤ longest, occupied ((s + i) % size) = false := by
  by_contra full
  have run : Run size occupied s (longest + 1) := by
    intro i hi
    by_contra isFree
    exact full ⟨i, by omega, by simpa using isFree⟩
  have := h.2 s _ run
  omega

end CircularScan
