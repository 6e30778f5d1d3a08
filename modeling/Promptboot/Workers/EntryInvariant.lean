import Mathlib.Data.Fintype.Card
import Mathlib.Data.Fintype.EquivFin
import Promptboot.Workers.Entry

/-!
# The invariant of an entry

Where every callback stands bounds what the shared words can hold. Slots and mask bits follow the
order of arrival, the barrier is in one of four phases, and once it is open all flags are published,
so that every callback reaches one and the same verdict.

`Own` is what a callback knows by itself, `Slots` and `Gate` what holds of the shared words;
`EntryInv` is all of them. The helpers `reached_update_same` and `reached_update_succ` count who has
got past a stage, and the four lemmas of `Gate` (`arrive`, `reset`, `release`, `spin`) move the
barrier on.
-/

namespace Promptboot

/-- The slot that a callback has obtained. -/
def EntryPc.slot : EntryPc → Option Nat
  | .takeSlot | .rejectSlot | .turnedAway => none
  | .mark slot | .rejectMark slot | .storeReady slot | .loadGeneration slot | .arrive slot _
  | .resetArrivals slot | .release slot | .spin slot _ | .readPeer slot _ _ | .rejectReady slot _
  | .storeBackend slot _ | .loadRejection slot _ | .callWorker slot _ | .storeStatus slot _ _ _
  | .storeRestored slot _ _ | .countReturn slot _ _ | .returned slot _ _ => some slot

/-- How far a callback has come. The bit is set from 2 on, the flags are published from 4 on, it has
arrived at the barrier from 6 on and left it from 8 on. -/
def EntryPc.stage : EntryPc → Nat
  | .takeSlot | .rejectSlot | .turnedAway => 0
  | .mark _ => 1
  | .rejectMark _ => 2
  | .storeReady _ => 3
  | .loadGeneration _ => 4
  | .arrive _ _ => 5
  | .resetArrivals _ | .release _ | .spin _ _ => 6
  | .readPeer _ _ _ => 8
  | .rejectReady _ _ => 9
  | .storeBackend _ _ => 10
  | .loadRejection _ _ | .callWorker _ _ => 11
  | .storeStatus _ _ _ _ => 12
  | .storeRestored _ _ _ => 13
  | .countReturn _ _ _ => 14
  | .returned _ _ _ => 15

def EntryPc.published (pc : EntryPc) : Prop := 4 ≤ pc.stage

/-- `all_ready` and `common_avx2` once a callback has read all peers. -/
def EntryPc.verdict : EntryPc → Option Verdict
  | .rejectReady _ v | .storeBackend _ v | .loadRejection _ v | .callWorker _ v
  | .storeStatus _ v _ _ | .storeRestored _ v _ | .countReturn _ v _ | .returned _ v _ => some v
  | _ => none

/-- Whether a callback calls `inference_worker_entry`, once that is decided. -/
def EntryPc.calls : EntryPc → Option Bool
  | .callWorker _ _ => some true
  | .storeStatus _ _ called _ | .storeRestored _ _ called | .countReturn _ _ called
  | .returned _ _ called => some called
  | _ => none

/-- A processor has a slot from the first stage on. -/
lemma EntryPc.slot_ne_none_iff (pc : EntryPc) : pc.slot ≠ none ↔ 1 ≤ pc.stage := by
  cases pc <;> simp [slot, stage]

namespace Processors
variable {n : Nat} (cpus : Processors n)

def allReady : Bool := decide (∀ c, cpus.ready c = true)

def commonAvx2 : Bool := decide (∀ c, cpus.capable c = true)

/-- The verdict that everybody should reach. -/
def verdict : Verdict := ⟨cpus.allReady, cpus.commonAvx2⟩

/-- The worker status that a callback should record. -/
def outcome (c : Fin (n + 2)) : Nat :=
  if cpus.allReady then cpus.workerStatus c else 42

/-- Reading a peer's flags narrows the verdict. -/
lemma read_flags (v : Verdict) (c : Fin (n + 2)) :
    MpCall.Verdict.read v (cpus.flags c) =
      ⟨v.allReady && cpus.ready c, v.commonAvx2 && cpus.capable c⟩ := by
  rw [MpCall.Verdict.read, flags, capable]
  cases cpus.ready c <;> cases cpus.avx2 c <;> rfl

end Processors

namespace MpCall
variable {n : Nat} {pc : Fin (n + 2) → EntryPc} {c : Fin (n + 2)} {p q : EntryPc}

/-- The number of callbacks that have come as far as `stage`. -/
def reached (pc : Fin (n + 2) → EntryPc) (stage : Nat) : Nat :=
  (Finset.univ.filter fun c => stage ≤ (pc c).stage).card

/-- A step within a stage leaves the count of the stage. -/
lemma reached_update_same {stage : Nat} (h : pc c = p) (same : stage ≤ q.stage ↔ stage ≤ p.stage) :
    reached (Function.update pc c q) stage = reached pc stage := by
  rw [reached, reached]
  congr 1
  ext d
  by_cases own : d = c
  · subst own
    simp [h, same]
  · simp [own]

/-- A step into a stage adds one to its count. -/
lemma reached_update_succ {stage : Nat} (h : pc c = p) (before : p.stage < stage)
    (after : stage ≤ q.stage) :
    reached (Function.update pc c q) stage = reached pc stage + 1 := by
  have fresh : c ∉ Finset.univ.filter fun d => stage ≤ (pc d).stage := by
    simp [h, before]
  rw [reached, reached, ← Finset.card_insert_of_notMem fresh]
  congr 1
  ext d
  by_cases own : d = c
  · subst own
    simp [after]
  · simp [own]

/-- No more processors reach a stage than there are. -/
lemma reached_le (pc : Fin (n + 2) → EntryPc) (stage : Nat) : reached pc stage ≤ n + 2 := by
  have le := Finset.card_filter_le Finset.univ fun c => stage ≤ (pc c).stage
  rwa [Finset.card_univ, Fintype.card_fin] at le

/-- A count is full when all have reached the stage. -/
lemma reached_full_iff {stage : Nat} :
    reached pc stage = n + 2 ↔ ∀ c, stage ≤ (pc c).stage := by
  have card : (Finset.univ : Finset (Fin (n + 2))).card = n + 2 := by simp
  constructor
  · intro full c
    have all := Finset.filter_card_eq (full.trans card.symm)
    exact all c (Finset.mem_univ c)
  · intro all
    rw [reached, Finset.filter_true_of_mem fun c _ => all c, card]

/-- A processor before a stage is missing in its count. -/
lemma reached_lt {stage : Nat} (h : pc c = p) (before : p.stage < stage) :
    reached pc stage < n + 2 := by
  apply lt_of_le_of_ne (reached_le pc stage)
  intro full
  have := reached_full_iff.1 full c
  rw [h] at this
  omega

/-- Slots are handed out in order, each once. -/
structure Slots (nextSlot : Nat) (pc : Fin (n + 2) → EntryPc) : Prop where
  count : nextSlot = reached pc 1
  lt : ∀ c k, (pc c).slot = some k → k < nextSlot
  distinct : ∀ c d k, (pc c).slot = some k → (pc d).slot = some k → c = d

/-- With all slots taken, each has its callback. -/
lemma Slots.covers {nextSlot : Nat} (slots : Slots nextSlot pc) (all : ∀ c, 1 ≤ (pc c).stage) :
    ∀ k < n + 2, ∃ c, (pc c).slot = some k := by
  have full : nextSlot = n + 2 := slots.count.trans (reached_full_iff.2 all)
  have obtained : ∀ c, ∃ k : Fin (n + 2), (pc c).slot = some k.val := by
    intro c
    obtain ⟨k, some⟩ := Option.ne_none_iff_exists'.1 ((pc c).slot_ne_none_iff.2 (all c))
    exact ⟨⟨k, full ▸ slots.lt c k some⟩, some⟩
  choose slot slot_eq using obtained
  have inj : Function.Injective slot := by
    intro c d same
    exact slots.distinct c d _ (slot_eq c) (same ▸ slot_eq d)
  intro k lt
  obtain ⟨c, eq⟩ := Finite.surjective_of_injective inj ⟨k, lt⟩
  exact ⟨c, by rw [slot_eq c, eq]⟩

/-- A bit is set exactly for the slot of a callback that has marked it. -/
def Marks (slotMasks : Nat → BitVec 64) (pc : Fin (n + 2) → EntryPc) : Prop :=
  ∀ k, (slotMasks (k / 64)).getLsbD (k % 64) = true ↔
    ∃ c, (pc c).slot = some k ∧ 2 ≤ (pc c).stage

/-- The phases of the entry barrier. -/
inductive Gate (generation arrivals : Nat) (pc : Fin (n + 2) → EntryPc) : Prop
  | gathering (closed : generation = 0) (short : ∀ c, (pc c).stage ≤ 5 ∨ ∃ k, pc c = .spin k 0)
    (count : arrivals = reached pc 6) (missing : arrivals < n + 2)
  | resetting (closed : generation = 0) (last : Fin (n + 2)) (slot : Nat)
    (at_reset : pc last = .resetArrivals slot)
    (others : ∀ c, c ≠ last → ∃ k, pc c = .spin k 0)
  | releasing (closed : generation = 0) (still : arrivals = 0) (last : Fin (n + 2)) (slot : Nat)
    (at_release : pc last = .release slot) (others : ∀ c, c ≠ last → ∃ k, pc c = .spin k 0)
  | opened (passed : generation = 1) (still : arrivals = 0)
    (through : ∀ c, (∃ k, pc c = .spin k 0) ∨ 8 ≤ (pc c).stage)

namespace Gate
variable {generation arrivals : Nat}

/-- While somebody is in front of the barrier it gathers. -/
lemma before (gate : Gate generation arrivals pc) (h : pc c = p) (early : p.stage ≤ 5) :
    generation = 0 ∧ (∀ d, (pc d).stage ≤ 5 ∨ ∃ k, pc d = .spin k 0) ∧ arrivals = reached pc 6 := by
  cases gate with
  | gathering closed short count _ => exact ⟨closed, short, count⟩
  | resetting _ last slot at_reset others =>
    by_cases own : c = last
    · rw [← own, h] at at_reset
      simp [at_reset, EntryPc.stage] at early
    · obtain ⟨k, spins⟩ := others c own
      rw [h] at spins
      simp [spins, EntryPc.stage] at early
  | releasing _ _ last slot at_release others =>
    by_cases own : c = last
    · rw [← own, h] at at_release
      simp [at_release, EntryPc.stage] at early
    · obtain ⟨k, spins⟩ := others c own
      rw [h] at spins
      simp [spins, EntryPc.stage] at early
  | opened _ _ through =>
    rcases through c with ⟨k, spins⟩ | late
    · rw [h] at spins
      simp [spins, EntryPc.stage] at early
    · rw [h] at late
      omega

/-- Once somebody is behind the barrier it is open. -/
lemma behind (gate : Gate generation arrivals pc) (h : pc c = p) (late : 8 ≤ p.stage) :
    generation = 1 ∧ arrivals = 0 ∧ ∀ d, (∃ k, pc d = .spin k 0) ∨ 8 ≤ (pc d).stage := by
  cases gate with
  | gathering _ short _ _ =>
    rcases short c with early | ⟨k, spins⟩
    · rw [h] at early
      omega
    · rw [h] at spins
      simp [spins, EntryPc.stage] at late
  | resetting _ last slot at_reset others =>
    by_cases own : c = last
    · rw [← own, h] at at_reset
      simp [at_reset, EntryPc.stage] at late
    · obtain ⟨k, spins⟩ := others c own
      rw [h] at spins
      simp [spins, EntryPc.stage] at late
  | releasing _ _ last slot at_release others =>
    by_cases own : c = last
    · rw [← own, h] at at_release
      simp [at_release, EntryPc.stage] at late
    · obtain ⟨k, spins⟩ := others c own
      rw [h] at spins
      simp [spins, EntryPc.stage] at late
  | opened passed still through => exact ⟨passed, still, through⟩

/-- A step before the barrier keeps the gate. -/
lemma stay_before (gate : Gate generation arrivals pc) (h : pc c = p) (early : p.stage ≤ 5)
    (next : q.stage ≤ 5) : Gate generation arrivals (Function.update pc c q) := by
  obtain ⟨closed, short, count⟩ := gate.before h early
  refine .gathering closed ?_ ?_ ?_
  · intro d
    by_cases own : d = c
    · subst own
      simp [next]
    · rw [Function.update_of_ne own]
      exact short d
  · rw [count, reached_update_same h (by omega)]
  · rw [count]
    exact reached_lt h (by omega)

/-- A step behind the barrier keeps the gate. -/
lemma stay_behind (gate : Gate generation arrivals pc) (h : pc c = p) (late : 8 ≤ p.stage)
    (next : 8 ≤ q.stage) : Gate generation arrivals (Function.update pc c q) := by
  obtain ⟨passed, still, through⟩ := gate.behind h late
  refine .opened passed still ?_
  intro d
  by_cases own : d = c
  · subst own
    simp [next]
  · rw [Function.update_of_ne own]
    exact through d

/-- The callback that arrives last resets the barrier, the others spin. -/
lemma arrive {slot : Nat} (gate : Gate generation arrivals pc) (h : pc c = .arrive slot 0) :
    Gate generation (arrivals + 1)
      (Function.update pc c
        (if arrivals + 1 = n + 2 then .resetArrivals slot else .spin slot 0)) := by
  obtain ⟨closed, short, count⟩ := gate.before h (by simp [EntryPc.stage])
  have next : arrivals + 1 = reached (Function.update pc c (.spin slot 0)) 6 := by
    rw [count, reached_update_succ h (by simp [EntryPc.stage]) (by simp [EntryPc.stage])]
  split
  case isTrue last =>
    refine .resetting closed c slot (Function.update_self c _ pc) ?_
    intro d other
    have arrived := reached_full_iff.1 (next.symm.trans last) d
    rw [Function.update_of_ne other] at arrived ⊢
    rcases short d with early | spins
    · omega
    · exact spins
  case isFalse waits =>
    have le := next.trans_le (reached_le _ 6)
    refine .gathering closed ?_ next (by omega)
    intro d
    by_cases own : d = c
    · subst own
      right
      exact ⟨slot, Function.update_self d _ pc⟩
    · rw [Function.update_of_ne own]
      exact short d

/-- Resetting the arrivals keeps the gate. -/
lemma reset {slot : Nat} (gate : Gate generation arrivals pc) (h : pc c = .resetArrivals slot) :
    Gate generation 0 (Function.update pc c (.release slot)) := by
  cases gate with
  | gathering _ short _ _ =>
    rcases short c with early | ⟨k, spins⟩
    · simp [h, EntryPc.stage] at early
    · rw [h] at spins
      cases spins
  | resetting closed last k at_reset others =>
    obtain rfl : c = last := by
      by_contra other
      obtain ⟨k, spins⟩ := others c other
      rw [h] at spins
      cases spins
    refine .releasing closed rfl c slot (Function.update_self c _ pc) ?_
    intro d other
    rw [Function.update_of_ne other]
    exact others d other
  | releasing _ _ last k at_release others =>
    by_cases own : c = last
    · rw [← own, h] at at_release
      cases at_release
    · obtain ⟨k, spins⟩ := others c own
      rw [h] at spins
      cases spins
  | opened _ _ through =>
    rcases through c with ⟨k, spins⟩ | late
    · rw [h] at spins
      cases spins
    · simp [h, EntryPc.stage] at late

/-- Opening the barrier keeps the gate. -/
lemma release {slot : Nat} (gate : Gate generation arrivals pc) (h : pc c = .release slot)
    (next : 8 ≤ q.stage) : Gate (generation + 1) arrivals (Function.update pc c q) := by
  cases gate with
  | gathering _ short _ _ =>
    rcases short c with early | ⟨k, spins⟩
    · simp [h, EntryPc.stage] at early
    · rw [h] at spins
      cases spins
  | resetting _ last k at_reset others =>
    by_cases own : c = last
    · rw [← own, h] at at_reset
      cases at_reset
    · obtain ⟨k, spins⟩ := others c own
      rw [h] at spins
      cases spins
  | releasing closed still last k at_release others =>
    obtain rfl : c = last := by
      by_contra other
      obtain ⟨k, spins⟩ := others c other
      rw [h] at spins
      cases spins
    refine .opened (by rw [closed]) still ?_
    intro d
    by_cases own : d = c
    · subst own
      simp [next]
    · rw [Function.update_of_ne own]
      exact .inl (others d own)
  | opened _ _ through =>
    rcases through c with ⟨k, spins⟩ | late
    · rw [h] at spins
      cases spins
    · simp [h, EntryPc.stage] at late

/-- Who sees another generation at the barrier finds it open. -/
lemma spin {slot : Nat} (gate : Gate generation arrivals pc) (h : pc c = .spin slot 0)
    (changed : generation ≠ 0) (next : 8 ≤ q.stage) :
    Gate generation arrivals (Function.update pc c q) := by
  cases gate with
  | gathering closed _ _ _ => exact absurd closed changed
  | resetting closed _ _ _ _ => exact absurd closed changed
  | releasing closed _ _ _ _ _ => exact absurd closed changed
  | opened passed still through =>
    refine .opened passed still ?_
    intro d
    by_cases own : d = c
    · subst own
      simp [next]
    · rw [Function.update_of_ne own]
      exact through d

end Gate

/-- What a callback has left in the record of its slot. -/
structure Own (cpus : Processors n) (c : Fin (n + 2)) (stage : Nat) (record : ApRecord) : Prop where
  ready : 4 ≤ stage → record.ready = cpus.flags c
  backend : 11 ≤ stage → record.backend = cpus.commonAvx2.toNat
  workerStatus : 13 ≤ stage → record.workerStatus = cpus.outcome c
  restored : 14 ≤ stage → record.restored = (cpus.restored c).toNat

/-- A verdict on the first `peer` slots. -/
structure Judges (cpus : Processors n) (pc : Fin (n + 2) → EntryPc) (peer : Nat) (v : Verdict) :
    Prop where
  lt : peer < n + 2
  ready : v.allReady = true ↔ ∀ d k, (pc d).slot = some k → k < peer → cpus.ready d = true
  capable : v.commonAvx2 = true ↔ ∀ d k, (pc d).slot = some k → k < peer → cpus.capable d = true

/-- What the locals of a callback hold. -/
def Locals (cpus : Processors n) (pc : Fin (n + 2) → EntryPc) (c : Fin (n + 2)) : EntryPc → Prop
  | .rejectSlot | .turnedAway | .rejectMark _ => False
  | .arrive _ generation | .spin _ generation => generation = 0
  | .readPeer _ peer v => Judges cpus pc peer v
  | .rejectReady _ v => v = cpus.verdict ∧ cpus.allReady = false
  | .storeBackend _ v => v = cpus.verdict
  | .loadRejection _ v | .callWorker _ v => v = cpus.verdict ∧ cpus.allReady = true
  | .storeStatus _ v called status =>
    v = cpus.verdict ∧ called = cpus.allReady ∧ status = cpus.outcome c
  | .storeRestored _ v called | .countReturn _ v called | .returned _ v called =>
    v = cpus.verdict ∧ called = cpus.allReady
  | _ => True

structure EntryInv (cpus : Processors n) (s : MpCall n) : Prop where
  slots : Slots s.nextSlot s.pc
  marks : Marks s.slotMasks s.pc
  gate : Gate s.generation s.arrivals s.pc
  counted : s.callbacksReturned = reached s.pc 15
  quiet : cpus.allReady = true → s.rejection = 0
  flagged : ∀ c, 10 ≤ (s.pc c).stage → cpus.allReady = false → s.rejection ≠ 0
  own : ∀ c k, (s.pc c).slot = some k → Own cpus c (s.pc c).stage (s.records k)
  locals : ∀ c, Locals cpus s.pc c (s.pc c)

end MpCall

end Promptboot
