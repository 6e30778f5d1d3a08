import Promptboot.Lib.Bits
import Promptboot.Workers.EntryInvariant

/-!
# Every entry agrees

Each access keeps the invariant, so every run does. From the invariant of a run in which all
callbacks have returned, `dispatch_token` finds exactly what it checks for.

There is a lemma for each access, under the name of its program counter (`takeSlot`, `arrive`,
`release`, `callWorker` and so on); `EntryInv.step` collects them and `run_inv` is the run.
`inspectMask_eq_zero_iff` and `inspect_eq_zero_iff` read the loops of the inspection, and
`EntryInv.protocol` is `EntryProtocol`.
-/

namespace Promptboot.MpCall
variable {n : Nat} {cpus : Processors n} {s t : MpCall n} {pc pc' : Fin (n + 2) → EntryPc}
  {c : Fin (n + 2)} {p q : EntryPc}

/-- A verdict depends on the slots only. -/
lemma Judges.congr {peer : Nat} {v : Verdict} (judges : Judges cpus pc peer v)
    (slots : ∀ d, (pc' d).slot = (pc d).slot) : Judges cpus pc' peer v := by
  refine ⟨judges.lt, ?_, ?_⟩
  · simp only [slots]
    exact judges.ready
  · simp only [slots]
    exact judges.capable

/-- What a processor knows depends on the slots only. -/
lemma Locals.congr (locals : Locals cpus pc c p) (slots : ∀ d, (pc' d).slot = (pc d).slot) :
    Locals cpus pc' c p := by
  cases p with
  | readPeer slot peer v => exact Judges.congr locals slots
  | _ => exact locals

/-- Before the barrier the locals say nothing about the other callbacks. -/
lemma Locals.early (locals : Locals cpus pc c p) (early : p.stage ≤ 6) : Locals cpus pc' c p := by
  cases p with
  | readPeer slot peer v => simp [EntryPc.stage] at early
  | _ => exact locals

/-- A step within its slot leaves every slot. -/
lemma slot_update (h : pc c = p) (slot : q.slot = p.slot) (d : Fin (n + 2)) :
    (Function.update pc c q d).slot = (pc d).slot := by
  by_cases own : d = c
  · subst own
    rw [Function.update_self, h, slot]
  · rw [Function.update_of_ne own]

/-- A step within its slot keeps the slots. -/
lemma Slots.update {nextSlot : Nat} (slots : Slots nextSlot pc) (h : pc c = p)
    (slot : q.slot = p.slot) (started : 1 ≤ q.stage ↔ 1 ≤ p.stage) :
    Slots nextSlot (Function.update pc c q) := by
  refine ⟨?_, ?_, ?_⟩
  · rw [slots.count, reached_update_same h started]
  · intro d k some
    rw [slot_update h slot] at some
    exact slots.lt d k some
  · intro d e k left right
    rw [slot_update h slot] at left right
    exact slots.distinct d e k left right

/-- A step that marks nothing keeps the marks. -/
lemma Marks.update {slotMasks : Nat → BitVec 64} (marks : Marks slotMasks pc) (h : pc c = p)
    (slot : q.slot = p.slot) (marked : 2 ≤ q.stage ↔ 2 ≤ p.stage) :
    Marks slotMasks (Function.update pc c q) := by
  intro k
  rw [marks k]
  refine exists_congr fun d => ?_
  rw [slot_update h slot]
  by_cases own : d = c
  · subst own
    rw [Function.update_self, h, marked]
  · rw [Function.update_of_ne own]

/-- Setting one bit marks one more slot. -/
lemma getLsbD_mark (slotMasks : Nat → BitVec 64) (slot k : Nat) :
    (Function.update slotMasks (slot / 64)
      (slotMasks (slot / 64) ||| 1#64 <<< (slot % 64)) (k / 64)).getLsbD (k % 64) = true ↔
      (slotMasks (k / 64)).getLsbD (k % 64) = true ∨ k = slot := by
  by_cases word : k / 64 = slot / 64
  · rw [word, Function.update_self, Bits.getLsbD_set (Nat.mod_lt k (by decide)), Bool.or_eq_true,
      decide_eq_true_iff]
    refine or_congr_right ⟨fun bit => ?_, fun same => by rw [same]⟩
    rw [← Nat.div_add_mod k 64, word, bit, Nat.div_add_mod]
  · rw [Function.update_of_ne word]
    refine ⟨.inl, fun either => either.resolve_right ?_⟩
    rintro rfl
    exact word rfl

/-- A record stays as it was as long as its stages do. -/
lemma Own.stay {stage stage' : Nat} {record : ApRecord} (own : Own cpus c stage record)
    (thresholds : ∀ m, m = 4 ∨ m = 11 ∨ m = 13 ∨ m = 14 → m ≤ stage' → m ≤ stage) :
    Own cpus c stage' record where
  ready late := own.ready (thresholds 4 (by simp) late)
  backend late := own.backend (thresholds 11 (by simp) late)
  workerStatus late := own.workerStatus (thresholds 13 (by simp) late)
  restored late := own.restored (thresholds 14 (by simp) late)

namespace EntryInv

/-- A callback that has marked its slot takes a step: what it must show about itself. -/
lemma move (inv : EntryInv cpus s) {slot : Nat} (h : s.pc c = p) (slot_p : p.slot = some slot)
    (slot_q : q.slot = some slot) (marked_p : 2 ≤ p.stage) (marked_q : 2 ≤ q.stage)
    (code : t.pc = s.pc) (nextSlot : t.nextSlot = s.nextSlot) (masks : t.slotMasks = s.slotMasks)
    (gate : Gate t.generation t.arrivals (Function.update s.pc c q))
    (counted : t.callbacksReturned = reached (Function.update s.pc c q) 15)
    (quiet : cpus.allReady = true → t.rejection = 0)
    (keeps : s.rejection ≠ 0 → t.rejection ≠ 0)
    (flagged : 10 ≤ q.stage → cpus.allReady = false → t.rejection ≠ 0)
    (others : ∀ k, k ≠ slot → t.records k = s.records k)
    (own : Own cpus c q.stage (t.records slot))
    (locals : Locals cpus s.pc c q) : EntryInv cpus (t.goto c q) := by
  have same : q.slot = p.slot := slot_q.trans slot_p.symm
  -- the others stand where they stood, and their records are untouched
  refine ⟨?_, ?_, ?_, ?_, quiet, ?_, ?_, ?_⟩
  · simp only [goto, code, nextSlot]
    exact inv.slots.update h same (by omega)
  · simp only [goto, code, masks]
    exact inv.marks.update h same (by omega)
  · simp only [goto, code]
    exact gate
  · simp only [goto, code]
    exact counted
  · intro d late unready
    simp only [goto, code] at late ⊢
    by_cases itself : d = c
    · subst itself
      rw [Function.update_self] at late
      exact flagged late unready
    · rw [Function.update_of_ne itself] at late
      exact keeps (inv.flagged d late unready)
  · intro d k some
    simp only [goto, code] at some ⊢
    rw [slot_update h same] at some
    by_cases itself : d = c
    · subst itself
      rw [h, slot_p, Option.some.injEq] at some
      rw [Function.update_self, ← some]
      exact own
    · have other : k ≠ slot := by
        rintro rfl
        exact itself (inv.slots.distinct d c k some (by rw [h, slot_p]))
      rw [Function.update_of_ne itself, others k other]
      exact inv.own d k some
  · intro d
    simp only [goto, code]
    by_cases itself : d = c
    · subst itself
      rw [Function.update_self]
      exact locals.congr (slot_update h same)
    · rw [Function.update_of_ne itself]
      exact (inv.locals d).congr (slot_update h same)

/-- What a processor knows where it is. -/
lemma locals_at (inv : EntryInv cpus s) (h : s.pc c = p) : Locals cpus s.pc c p :=
  h ▸ inv.locals c

/-- What is in a processor's record where it is. -/
lemma own_at (inv : EntryInv cpus s) (h : s.pc c = p) {slot : Nat} (slot_p : p.slot = some slot) :
    Own cpus c p.stage (s.records slot) := by
  have own := inv.own c slot (by rw [h, slot_p])
  rwa [h] at own

/-- The first access of a callback: its slot is the next and within range. -/
lemma takeSlot (inv : EntryInv cpus s) (h : s.pc c = .takeSlot) :
    EntryInv cpus (s.step cpus c) := by
  have room : s.nextSlot < n + 2 := by
    rw [inv.slots.count]
    exact reached_lt h (by simp [EntryPc.stage])
  obtain ⟨_, short, _⟩ := inv.gate.before h (by simp [EntryPc.stage])
  -- whoever holds a slot held it before, or is the processor that takes one now
  have fresh : ∀ d k, (Function.update s.pc c (.mark s.nextSlot) d).slot = some k →
      (d = c ∧ k = s.nextSlot) ∨ (d ≠ c ∧ (s.pc d).slot = some k) := by
    intro d k some
    by_cases own : d = c
    · subst own
      rw [Function.update_self, EntryPc.slot, Option.some.injEq] at some
      exact .inl ⟨rfl, some.symm⟩
    · rw [Function.update_of_ne own] at some
      exact .inr ⟨own, some⟩
  simp only [step, h]
  rw [if_neg (by omega)]
  refine ⟨⟨?_, ?_, ?_⟩, ?_, ?_, ?_, inv.quiet, ?_, ?_, ?_⟩ <;> simp only [goto]
  · rw [inv.slots.count, reached_update_succ h (by simp [EntryPc.stage]) (by simp [EntryPc.stage])]
  · intro d k some
    rcases fresh d k some with ⟨_, rfl⟩ | ⟨_, before⟩
    · exact Nat.lt_succ_self _
    · exact Nat.lt_succ_of_lt (inv.slots.lt d k before)
  · intro d e k left right
    rcases fresh d k left with ⟨rfl, rfl⟩ | ⟨_, before⟩
    · rcases fresh e _ right with ⟨rfl, _⟩ | ⟨_, before⟩
      · rfl
      · exact absurd (inv.slots.lt e _ before) (lt_irrefl _)
    · rcases fresh e k right with ⟨rfl, rfl⟩ | ⟨_, before'⟩
      · exact absurd (inv.slots.lt d _ before) (lt_irrefl _)
      · exact inv.slots.distinct d e k before before'
  · intro k
    rw [inv.marks k]
    refine exists_congr fun d => ?_
    by_cases own : d = c
    · subst own
      simp [h, EntryPc.stage]
    · rw [Function.update_of_ne own]
  · exact inv.gate.stay_before h (by simp [EntryPc.stage]) (by simp [EntryPc.stage])
  · rw [inv.counted, reached_update_same h (by simp [EntryPc.stage])]
  · intro d late unready
    by_cases own : d = c
    · subst own
      simp [EntryPc.stage] at late
    · rw [Function.update_of_ne own] at late
      exact inv.flagged d late unready
  · intro d k some
    rcases fresh d k some with ⟨rfl, _⟩ | ⟨own, before⟩
    · rw [Function.update_self]
      exact ⟨by simp [EntryPc.stage], by simp [EntryPc.stage], by simp [EntryPc.stage],
        by simp [EntryPc.stage]⟩
    · rw [Function.update_of_ne own]
      exact inv.own d k before
  · intro d
    by_cases own : d = c
    · subst own
      rw [Function.update_self]
      trivial
    · rw [Function.update_of_ne own]
      apply (inv.locals d).early
      rcases short d with early | ⟨k, spins⟩
      · omega
      · simp [spins, EntryPc.stage]

/-- Nobody else has the slot, so its bit was not set. -/
lemma mark {slot : Nat} (inv : EntryInv cpus s) (h : s.pc c = .mark slot) :
    EntryInv cpus (s.step cpus c) := by
  -- nobody else has this slot, so its bit is still clear
  have unset : (s.slotMasks (slot / 64)).getLsbD (slot % 64) = false := by
    rw [← Bool.not_eq_true, inv.marks slot]
    rintro ⟨d, some, marked⟩
    obtain rfl := inv.slots.distinct d c slot some (by rw [h, EntryPc.slot])
    simp [h, EntryPc.stage] at marked
  have same : (EntryPc.storeReady slot).slot = (EntryPc.mark slot).slot := rfl
  simp only [step, h]
  rw [if_neg (by rw [Bits.and_bit_ne_zero_iff (Nat.mod_lt slot (by decide)), unset]; simp)]
  refine ⟨?_, ?_, ?_, ?_, inv.quiet, ?_, ?_, ?_⟩ <;> simp only [goto]
  · exact inv.slots.update h same (by simp [EntryPc.stage])
  -- the bits that are set are those of the callbacks that have marked
  · intro k
    rw [getLsbD_mark, inv.marks k]
    constructor
    · rintro (⟨d, some, marked⟩ | rfl)
      · refine ⟨d, by rwa [slot_update h same], ?_⟩
        rw [Function.update_of_ne (by rintro rfl; simp [h, EntryPc.stage] at marked)]
        exact marked
      · exact ⟨c, by rw [slot_update h same, h, EntryPc.slot], by simp [EntryPc.stage]⟩
    · rintro ⟨d, some, marked⟩
      rw [slot_update h same] at some
      by_cases own : d = c
      · subst own
        rw [h, EntryPc.slot, Option.some.injEq] at some
        exact .inr some.symm
      · rw [Function.update_of_ne own] at marked
        exact .inl ⟨d, some, marked⟩
  · exact inv.gate.stay_before h (by simp [EntryPc.stage]) (by simp [EntryPc.stage])
  · rw [inv.counted, reached_update_same h (by simp [EntryPc.stage])]
  · intro d late unready
    by_cases own : d = c
    · subst own
      simp [EntryPc.stage] at late
    · rw [Function.update_of_ne own] at late
      exact inv.flagged d late unready
  · intro d k some
    rw [slot_update h same] at some
    by_cases own : d = c
    · subst own
      rw [Function.update_self]
      exact ⟨by simp [EntryPc.stage], by simp [EntryPc.stage], by simp [EntryPc.stage],
        by simp [EntryPc.stage]⟩
    · rw [Function.update_of_ne own]
      exact inv.own d k some
  · intro d
    by_cases own : d = c
    · subst own
      rw [Function.update_self]
      trivial
    · rw [Function.update_of_ne own]
      exact (inv.locals d).congr (slot_update h same)

/-- A step that only reads: the callback itself is all that changes. -/
lemma look (inv : EntryInv cpus s) {slot : Nat} (h : s.pc c = p) (slot_p : p.slot = some slot)
    (slot_q : q.slot = some slot) (marked_p : 2 ≤ p.stage) (marked_q : 2 ≤ q.stage)
    (gate : Gate s.generation s.arrivals (Function.update s.pc c q))
    (returned : 15 ≤ q.stage ↔ 15 ≤ p.stage)
    (flagged : 10 ≤ q.stage → cpus.allReady = false → s.rejection ≠ 0)
    (thresholds : ∀ m, m = 4 ∨ m = 11 ∨ m = 13 ∨ m = 14 → m ≤ q.stage → m ≤ p.stage)
    (locals : Locals cpus s.pc c q) : EntryInv cpus (s.goto c q) :=
  inv.move h slot_p slot_q marked_p marked_q rfl rfl rfl gate
    (inv.counted.trans (reached_update_same h returned).symm) inv.quiet id flagged
    (fun _ _ => rfl) ((inv.own_at h slot_p).stay thresholds) locals

/-- Storing the own flags keeps the invariant. -/
lemma storeReady {slot : Nat} (inv : EntryInv cpus s) (h : s.pc c = .storeReady slot) :
    EntryInv cpus (s.step cpus c) := by
  simp only [step, h]
  refine inv.move h rfl rfl (by simp [EntryPc.stage]) (by simp [EntryPc.stage]) rfl rfl rfl
    (inv.gate.stay_before h (by simp [EntryPc.stage]) (by simp [EntryPc.stage]))
    (inv.counted.trans (reached_update_same h (by simp [EntryPc.stage])).symm) inv.quiet id
    (by simp [EntryPc.stage]) (fun k other => Function.update_of_ne other _ _) ?_ trivial
  simp only [setRecord, Function.update_self]
  exact ⟨fun _ => rfl, by simp [EntryPc.stage], by simp [EntryPc.stage], by simp [EntryPc.stage]⟩

/-- Reading the generation keeps the invariant. -/
lemma loadGeneration {slot : Nat} (inv : EntryInv cpus s) (h : s.pc c = .loadGeneration slot) :
    EntryInv cpus (s.step cpus c) := by
  obtain ⟨closed, _⟩ := inv.gate.before h (by simp [EntryPc.stage])
  simp only [step, h]
  refine inv.look h rfl rfl (by simp [EntryPc.stage]) (by simp [EntryPc.stage])
    (inv.gate.stay_before h (by simp [EntryPc.stage]) (by simp [EntryPc.stage]))
    (by simp [EntryPc.stage]) (by simp [EntryPc.stage]) ?_ closed
  simp only [EntryPc.stage]
  omega

/-- Arriving keeps the invariant. -/
lemma arrive {slot generation : Nat} (inv : EntryInv cpus s)
    (h : s.pc c = .arrive slot generation) : EntryInv cpus (s.step cpus c) := by
  obtain rfl : generation = 0 := inv.locals_at h
  have gate := inv.gate.arrive h
  simp only [step, h]
  -- whether it resets the barrier or spins, it has now arrived
  have next : ∀ q : EntryPc, q.slot = some slot → q.stage = 6 → Locals cpus s.pc c q →
      Gate s.generation (s.arrivals + 1) (Function.update s.pc c q) →
        EntryInv cpus ({ s with arrivals := s.arrivals + 1 }.goto c q) := by
    intro q slot_q stage locals gate
    have stage_p : (EntryPc.arrive slot 0).stage = 5 := rfl
    refine inv.move h rfl slot_q (by omega) (by omega) rfl rfl rfl gate
      (inv.counted.trans (reached_update_same h (by omega)).symm) inv.quiet id (by omega)
      (fun _ _ => rfl) ((inv.own_at h rfl).stay ?_) locals
    omega
  split
  case isTrue last =>
    rw [if_pos last] at gate
    exact next _ rfl rfl trivial gate
  case isFalse waits =>
    rw [if_neg waits] at gate
    exact next _ rfl rfl rfl gate

/-- Resetting the arrivals keeps the invariant. -/
lemma resetArrivals {slot : Nat} (inv : EntryInv cpus s) (h : s.pc c = .resetArrivals slot) :
    EntryInv cpus (s.step cpus c) := by
  simp only [step, h]
  refine inv.move h rfl rfl (by simp [EntryPc.stage]) (by simp [EntryPc.stage]) rfl rfl rfl
    (inv.gate.reset h) (inv.counted.trans (reached_update_same h (by simp [EntryPc.stage])).symm)
    inv.quiet id (by simp [EntryPc.stage]) (fun _ _ => rfl) ((inv.own_at h rfl).stay ?_) trivial
  simp only [EntryPc.stage]
  omega

/-- Behind the barrier a callback starts from the first peer. -/
lemma judges_zero : Judges cpus pc 0 ⟨true, true⟩ :=
  ⟨by omega, by simp, by simp⟩

/-- Opening the barrier keeps the invariant. -/
lemma release {slot : Nat} (inv : EntryInv cpus s) (h : s.pc c = .release slot) :
    EntryInv cpus (s.step cpus c) := by
  simp only [step, h]
  refine inv.move h rfl rfl (by simp [EntryPc.stage]) (by simp [EntryPc.stage]) rfl rfl rfl
    (inv.gate.release h (by simp [EntryPc.stage]))
    (inv.counted.trans (reached_update_same h (by simp [EntryPc.stage])).symm) inv.quiet id
    (by simp [EntryPc.stage]) (fun _ _ => rfl) ((inv.own_at h rfl).stay ?_) judges_zero
  simp only [EntryPc.stage]
  omega

/-- Waiting at the barrier keeps the invariant. -/
lemma spin {slot generation : Nat} (inv : EntryInv cpus s) (h : s.pc c = .spin slot generation) :
    EntryInv cpus (s.step cpus c) := by
  obtain rfl : generation = 0 := inv.locals_at h
  simp only [step, h]
  split
  case isTrue closed => exact inv
  case isFalse changed =>
    refine inv.look h rfl rfl (by simp [EntryPc.stage]) (by simp [EntryPc.stage])
      (inv.gate.spin h changed (by simp [EntryPc.stage])) (by simp [EntryPc.stage])
      (by simp [EntryPc.stage]) ?_ judges_zero
    simp only [EntryPc.stage]
    omega

/-- Behind the barrier all have arrived, and the flags to be read are the published ones. -/
lemma published (inv : EntryInv cpus s) (h : s.pc c = p) (late : 8 ≤ p.stage) :
    (∀ d, 6 ≤ (s.pc d).stage) ∧ ∀ peer < n + 2,
      ∃ d, (s.pc d).slot = some peer ∧ (s.records peer).ready = cpus.flags d := by
  obtain ⟨_, _, through⟩ := inv.gate.behind h late
  have arrived : ∀ d, 6 ≤ (s.pc d).stage := by
    intro d
    rcases through d with ⟨k, spins⟩ | late
    · simp [spins, EntryPc.stage]
    · omega
  refine ⟨arrived, fun peer lt => ?_⟩
  obtain ⟨d, some⟩ := inv.slots.covers (fun d => le_trans (by decide) (arrived d)) peer lt
  exact ⟨d, some, (inv.own d peer some).ready (le_trans (by decide) (arrived d))⟩

end EntryInv

/-- Reading one peer extends the verdict by its callback. -/
lemma Judges.read {nextSlot peer : Nat} {v : Verdict} {d : Fin (n + 2)}
    (judges : Judges cpus pc peer v) (slots : Slots nextSlot pc) (at_peer : (pc d).slot = some peer) :
    ((v.allReady && cpus.ready d) = true ↔
        ∀ e k, (pc e).slot = some k → k < peer + 1 → cpus.ready e = true) ∧
      ((v.commonAvx2 && cpus.capable d) = true ↔
        ∀ e k, (pc e).slot = some k → k < peer + 1 → cpus.capable e = true) := by
  have extend : ∀ (known : Bool) (flag : Fin (n + 2) → Bool),
      (known = true ↔ ∀ e k, (pc e).slot = some k → k < peer → flag e = true) →
        ((known && flag d) = true ↔
          ∀ e k, (pc e).slot = some k → k < peer + 1 → flag e = true) := by
    intro known flag before
    rw [Bool.and_eq_true, before]
    constructor
    · rintro ⟨earlier, this⟩ e k some lt
      rcases Nat.lt_succ_iff_lt_or_eq.1 lt with lt | rfl
      · exact earlier e k some lt
      · rwa [slots.distinct e d k some at_peer]
    · intro all
      exact ⟨fun e k some lt => all e k some (by omega), all d peer at_peer (by omega)⟩
  exact ⟨extend _ _ judges.ready, extend _ _ judges.capable⟩

namespace EntryInv

/-- Reading a peer's flags keeps the invariant. -/
lemma readPeer {slot peer : Nat} {v : Verdict} (inv : EntryInv cpus s)
    (h : s.pc c = .readPeer slot peer v) : EntryInv cpus (s.step cpus c) := by
  have judges : Judges cpus s.pc peer v := inv.locals_at h
  obtain ⟨arrived, published⟩ := inv.published h (by simp [EntryPc.stage])
  obtain ⟨d, at_peer, flags⟩ := published peer judges.lt
  obtain ⟨ready, capable⟩ := judges.read inv.slots at_peer
  simp only [step, h]
  rw [flags, cpus.read_flags]
  have next : ∀ q : EntryPc, q.slot = some slot → 8 ≤ q.stage → q.stage ≤ 10 →
      (10 ≤ q.stage → cpus.allReady = true) → Locals cpus s.pc c q →
        EntryInv cpus (s.goto c q) := by
    intro q slot_q low high agreed locals
    have stage_p : (EntryPc.readPeer slot peer v).stage = 8 := rfl
    refine inv.look h rfl slot_q (by omega) (by omega)
      (inv.gate.stay_behind h (by omega) low) (by omega) ?_ (by omega) locals
    intro late unready
    rw [agreed late] at unready
    cases unready
  split
  case isTrue last =>
    -- all slots are below the number of workers
    have full : ∀ e k, (s.pc e).slot = some k → k < peer + 1 := by
      intro e k some
      rw [last]
      exact lt_of_lt_of_le (inv.slots.lt e k some) (inv.slots.count ▸ reached_le s.pc 1)
    have everybody : ∀ e, ∃ k, (s.pc e).slot = some k := by
      intro e
      apply Option.ne_none_iff_exists'.1
      rw [EntryPc.slot_ne_none_iff]
      exact le_trans (by decide) (arrived e)
    have all : ∀ flag : Fin (n + 2) → Bool,
        (∀ e k, (s.pc e).slot = some k → k < peer + 1 → flag e = true) ↔
          ∀ e, flag e = true := by
      intro flag
      constructor
      · intro below e
        obtain ⟨k, some⟩ := everybody e
        exact below e k some (full e k some)
      · intro all e _ _ _
        exact all e
    have verdict : (⟨v.allReady && cpus.ready d, v.commonAvx2 && cpus.capable d⟩ : Verdict) =
        cpus.verdict := by
      rw [all] at ready capable
      rw [Processors.verdict, Processors.allReady, Processors.commonAvx2, Verdict.mk.injEq]
      constructor
      · rw [Bool.eq_iff_iff, ready, decide_eq_true_iff]
      · rw [Bool.eq_iff_iff, capable, decide_eq_true_iff]
    rw [verdict, judged]
    split
    case isTrue agreed => exact next _ rfl (by simp [EntryPc.stage]) le_rfl (fun _ => agreed) rfl
    case isFalse unready =>
      exact next _ rfl (by simp [EntryPc.stage]) (by simp [EntryPc.stage])
        (by simp [EntryPc.stage]) ⟨rfl, Bool.eq_false_of_not_eq_true unready⟩
  case isFalse more =>
    have lt := judges.lt
    exact next _ rfl le_rfl (by simp [EntryPc.stage]) (by simp [EntryPc.stage])
      ⟨by omega, ready, capable⟩

/-- Rejecting a peer that is not ready keeps the invariant. -/
lemma rejectReady {slot : Nat} {v : Verdict} (inv : EntryInv cpus s)
    (h : s.pc c = .rejectReady slot v) : EntryInv cpus (s.step cpus c) := by
  obtain ⟨rfl, unready⟩ := inv.locals_at h
  simp only [step, h]
  refine inv.move h rfl rfl (by simp [EntryPc.stage]) (by simp [EntryPc.stage]) rfl rfl rfl
    (inv.gate.stay_behind h (by simp [EntryPc.stage]) (by simp [EntryPc.stage]))
    (inv.counted.trans (reached_update_same h (by simp [EntryPc.stage])).symm) ?_ ?_ ?_
    (fun _ _ => rfl) ((inv.own_at h rfl).stay ?_) rfl
  · intro agreed
    rw [agreed] at unready
    cases unready
  · exact fun _ => Nat.succ_ne_zero 41
  · exact fun _ _ => Nat.succ_ne_zero 41
  · simp only [EntryPc.stage]
    omega

/-- Storing the backend keeps the invariant. -/
lemma storeBackend {slot : Nat} {v : Verdict} (inv : EntryInv cpus s)
    (h : s.pc c = .storeBackend slot v) : EntryInv cpus (s.step cpus c) := by
  obtain rfl : v = cpus.verdict := inv.locals_at h
  have before := inv.own_at h rfl
  have flagged := inv.flagged c (by simp [h, EntryPc.stage])
  have next : ∀ q : EntryPc, q.slot = some slot → 11 ≤ q.stage → q.stage ≤ 12 →
      Locals cpus s.pc c q → EntryInv cpus ((s.setRecord slot
        { s.records slot with backend := cpus.verdict.commonAvx2.toNat }).goto c q) := by
    intro q slot_q low high locals
    have stage_p : (EntryPc.storeBackend slot cpus.verdict).stage = 10 := rfl
    refine inv.move h rfl slot_q (by omega) (by omega) rfl rfl rfl
      (inv.gate.stay_behind h (by omega) (by omega))
      (inv.counted.trans (reached_update_same h (by omega)).symm)
      inv.quiet id (fun _ => flagged) (fun k other => Function.update_of_ne other _ _) ?_ locals
    simp only [setRecord, Function.update_self]
    exact ⟨fun _ => before.ready (by simp [EntryPc.stage]), fun _ => rfl, by omega, by omega⟩
  simp only [step, h]
  split
  case isTrue agreed => exact next _ rfl le_rfl (by simp [EntryPc.stage]) ⟨rfl, agreed⟩
  case isFalse unready =>
    have none : cpus.allReady = false := Bool.eq_false_of_not_eq_true unready
    refine next _ rfl (by simp [EntryPc.stage]) le_rfl ⟨rfl, none.symm, ?_⟩
    rw [Processors.outcome, none]
    rfl

/-- Reading the rejection keeps the invariant. -/
lemma loadRejection {slot : Nat} {v : Verdict} (inv : EntryInv cpus s)
    (h : s.pc c = .loadRejection slot v) : EntryInv cpus (s.step cpus c) := by
  obtain ⟨rfl, agreed⟩ := inv.locals_at h
  simp only [step, h]
  rw [if_pos (inv.quiet agreed)]
  refine inv.look h rfl rfl (by simp [EntryPc.stage]) (by simp [EntryPc.stage])
    (inv.gate.stay_behind h (by simp [EntryPc.stage]) (by simp [EntryPc.stage]))
    (by simp [EntryPc.stage]) ?_ ?_ ⟨rfl, agreed⟩
  · intro _ unready
    rw [agreed] at unready
    cases unready
  · simp only [EntryPc.stage]
    omega

/-- Calling the worker keeps the invariant. -/
lemma callWorker {slot : Nat} {v : Verdict} (inv : EntryInv cpus s)
    (h : s.pc c = .callWorker slot v) : EntryInv cpus (s.step cpus c) := by
  obtain ⟨rfl, agreed⟩ := inv.locals_at h
  simp only [step, h]
  refine inv.look h rfl rfl (by simp [EntryPc.stage]) (by simp [EntryPc.stage])
    (inv.gate.stay_behind h (by simp [EntryPc.stage]) (by simp [EntryPc.stage]))
    (by simp [EntryPc.stage]) ?_ ?_ ⟨rfl, agreed.symm, ?_⟩
  · intro _ unready
    rw [agreed] at unready
    cases unready
  · simp only [EntryPc.stage]
    omega
  · rw [Processors.outcome, if_pos agreed]

/-- Storing the status keeps the invariant. -/
lemma storeStatus {slot status : Nat} {v : Verdict} {called : Bool} (inv : EntryInv cpus s)
    (h : s.pc c = .storeStatus slot v called status) : EntryInv cpus (s.step cpus c) := by
  obtain ⟨rfl, rfl, rfl⟩ := inv.locals_at h
  have before := inv.own_at h rfl
  simp only [step, h]
  refine inv.move h rfl rfl (by simp [EntryPc.stage]) (by simp [EntryPc.stage]) rfl rfl rfl
    (inv.gate.stay_behind h (by simp [EntryPc.stage]) (by simp [EntryPc.stage]))
    (inv.counted.trans (reached_update_same h (by simp [EntryPc.stage])).symm) inv.quiet id
    (fun _ => inv.flagged c (by simp [h, EntryPc.stage]))
    (fun k other => Function.update_of_ne other _ _) ?_ ⟨rfl, rfl⟩
  simp only [setRecord, Function.update_self]
  exact ⟨fun _ => before.ready (by simp [EntryPc.stage]),
    fun _ => before.backend (by simp [EntryPc.stage]), fun _ => rfl, by simp [EntryPc.stage]⟩

/-- Storing the restored state keeps the invariant. -/
lemma storeRestored {slot : Nat} {v : Verdict} {called : Bool} (inv : EntryInv cpus s)
    (h : s.pc c = .storeRestored slot v called) : EntryInv cpus (s.step cpus c) := by
  obtain ⟨rfl, rfl⟩ := inv.locals_at h
  have before := inv.own_at h rfl
  simp only [step, h]
  refine inv.move h rfl rfl (by simp [EntryPc.stage]) (by simp [EntryPc.stage]) rfl rfl rfl
    (inv.gate.stay_behind h (by simp [EntryPc.stage]) (by simp [EntryPc.stage]))
    (inv.counted.trans (reached_update_same h (by simp [EntryPc.stage])).symm) inv.quiet id
    (fun _ => inv.flagged c (by simp [h, EntryPc.stage]))
    (fun k other => Function.update_of_ne other _ _) ?_ ⟨rfl, rfl⟩
  simp only [setRecord, Function.update_self]
  exact ⟨fun _ => before.ready (by simp [EntryPc.stage]),
    fun _ => before.backend (by simp [EntryPc.stage]),
    fun _ => before.workerStatus (by simp [EntryPc.stage]), fun _ => rfl⟩

/-- Counting the return keeps the invariant. -/
lemma countReturn {slot : Nat} {v : Verdict} {called : Bool} (inv : EntryInv cpus s)
    (h : s.pc c = .countReturn slot v called) : EntryInv cpus (s.step cpus c) := by
  obtain ⟨rfl, rfl⟩ := inv.locals_at h
  simp only [step, h]
  refine inv.move h rfl rfl (by simp [EntryPc.stage]) (by simp [EntryPc.stage]) rfl rfl rfl
    (inv.gate.stay_behind h (by simp [EntryPc.stage]) (by simp [EntryPc.stage])) ?_ inv.quiet id
    (fun _ => inv.flagged c (by simp [h, EntryPc.stage])) (fun _ _ => rfl)
    ((inv.own_at h rfl).stay ?_) ⟨rfl, rfl⟩
  · rw [inv.counted, reached_update_succ h (by simp [EntryPc.stage]) (by simp [EntryPc.stage])]
  · simp only [EntryPc.stage]
    omega

/-- Every access keeps the invariant. -/
lemma step (inv : EntryInv cpus s) (c : Fin (n + 2)) : EntryInv cpus (s.step cpus c) := by
  cases h : s.pc c with
  | takeSlot => exact inv.takeSlot h
  | rejectSlot => exact absurd (inv.locals_at h) id
  | turnedAway => exact absurd (inv.locals_at h) id
  | mark slot => exact inv.mark h
  | rejectMark slot => exact absurd (inv.locals_at h) id
  | storeReady slot => exact inv.storeReady h
  | loadGeneration slot => exact inv.loadGeneration h
  | arrive slot generation => exact inv.arrive h
  | resetArrivals slot => exact inv.resetArrivals h
  | release slot => exact inv.release h
  | spin slot generation => exact inv.spin h
  | readPeer slot peer v => exact inv.readPeer h
  | rejectReady slot v => exact inv.rejectReady h
  | storeBackend slot v => exact inv.storeBackend h
  | loadRejection slot v => exact inv.loadRejection h
  | callWorker slot v => exact inv.callWorker h
  | storeStatus slot v called status => exact inv.storeStatus h
  | storeRestored slot v called => exact inv.storeRestored h
  | countReturn slot v called => exact inv.countReturn h
  | returned slot v called =>
    simp only [MpCall.step, h]
    exact inv

end EntryInv

/-- The invariant holds at first. -/
lemma entryInv_new : EntryInv cpus new := by
  have none : ∀ stage, 1 ≤ stage → reached (new : MpCall n).pc stage = 0 := by
    intro stage pos
    rw [reached, Finset.filter_false_of_mem, Finset.card_empty]
    intro c _
    simp only [new, EntryPc.stage]
    omega
  refine ⟨⟨(none 1 le_rfl).symm, ?_, ?_⟩, ?_, ?_, (none 15 (by decide)).symm, fun _ => rfl, ?_, ?_,
    fun _ => trivial⟩
  · intro c k some
    cases some
  · intro c d k some
    cases some
  · intro k
    simp [new, EntryPc.slot]
  · exact .gathering rfl (fun _ => .inl (by simp [new, EntryPc.stage])) (none 6 (by decide)).symm
      (Nat.succ_pos _)
  · intro c late
    simp [new, EntryPc.stage] at late
  · intro c k some
    cases some

/-- The invariant holds after every run. -/
lemma run_inv (cpus : Processors n) (schedule : List (Fin (n + 2))) :
    EntryInv cpus (run cpus schedule) := by
  suffices from_any : ∀ (schedule : List (Fin (n + 2))) (s : MpCall n),
      EntryInv cpus s → EntryInv cpus (schedule.foldl (step cpus) s) from
    from_any schedule new entryInv_new
  intro schedule
  induction schedule with
  | nil => exact fun _ inv => inv
  | cons c schedule ih => exact fun s inv => ih _ (inv.step c)

/-- A reported status stays, and a check that passes reports nothing. -/
lemma reject_eq_zero_iff {shared status : Nat} : reject shared status = 0 ↔ shared = 0 ∧ status = 0 := by
  rw [reject]
  split <;> omega

/-- A mask word is accepted when it is the expected one. -/
lemma inspectMask_eq_zero_iff {shared word : Nat} :
    s.inspectMask shared word = 0 ↔ shared = 0 ∧ s.slotMasks word = expectedMask n word := by
  rw [inspectMask]
  split
  case isTrue differs => simp [reject_eq_zero_iff, differs]
  case isFalse same => simp [not_not.1 same]

/-- The mask words are accepted when all are the expected ones. -/
lemma inspectMask_foldl {shared : Nat} {words : List Nat} :
    words.foldl s.inspectMask shared = 0 ↔
      shared = 0 ∧ ∀ word ∈ words, s.slotMasks word = expectedMask n word := by
  induction words generalizing shared with
  | nil => simp
  | cons word words ih =>
    rw [List.foldl_cons, ih, inspectMask_eq_zero_iff, List.forall_mem_cons, and_assoc]

/-- One record is checked for `restored` and `worker_status` when the backend is the known one. -/
lemma inspectRecord_eq {slot shared : Nat} {backend : Option Nat}
    (known : backend = none ∨ backend = some (s.records slot).backend) :
    ∃ next, s.inspectRecord (shared, backend) slot = (next, some (s.records slot).backend) ∧
      (next = 0 ↔
        shared = 0 ∧ (s.records slot).restored = 1 ∧ (s.records slot).workerStatus = 0) := by
  refine ⟨_, rfl, ?_⟩
  have same : backend.any (fun value => value != (s.records slot).backend) = false := by
    rcases known with rfl | rfl
    · rfl
    · exact bne_self_eq_false _
  rw [same, if_neg Bool.false_ne_true]
  by_cases restored : (s.records slot).restored = 1 <;>
    by_cases status : (s.records slot).workerStatus = 0 <;>
      simp [reject_eq_zero_iff, restored, status]

/-- With one backend in all records, so does the loop over them. -/
lemma inspectRecord_foldl {code : Nat} {slots : List Nat}
    (agreed : ∀ slot ∈ slots, (s.records slot).backend = code) {shared : Nat}
    {backend : Option Nat} (known : backend = none ∨ backend = some code) :
    (slots.foldl s.inspectRecord (shared, backend)).1 = 0 ↔
      shared = 0 ∧ ∀ slot ∈ slots,
        (s.records slot).restored = 1 ∧ (s.records slot).workerStatus = 0 := by
  induction slots generalizing shared backend with
  | nil => simp
  | cons slot slots ih =>
    obtain ⟨this, rest⟩ := List.forall_mem_cons.1 agreed
    obtain ⟨next, step, zero⟩ := inspectRecord_eq (s := s) (this ▸ known)
    rw [List.foldl_cons, step, ih rest (.inr (by rw [this])), zero, List.forall_mem_cons, and_assoc]

/-- The mask expected in a word has a bit for every slot below the number of workers. -/
lemma getLsbD_expectedMask {word i : Nat} (lt : i < 64) :
    (expectedMask n word).getLsbD i = decide (word * 64 + i < n + 2) := by
  rw [expectedMask]
  split
  case isTrue full =>
    rw [BitVec.getLsbD_allOnes]
    simp only [lt, decide_true]
    exact (decide_eq_true (by omega)).symm
  case isFalse some =>
    have ones : (1#64 <<< (n + 2 - word * 64) - 1#64) =
        BitVec.ofNat 64 (2 ^ (n + 2 - word * 64) - 1) := by
      apply BitVec.eq_of_toNat_eq
      have pow : 2 ^ (n + 2 - word * 64) < 2 ^ 64 := Nat.pow_lt_pow_right (by decide) (by omega)
      have pos : 0 < 2 ^ (n + 2 - word * 64) := Nat.pow_pos (by decide)
      simp only [BitVec.toNat_sub, BitVec.toNat_shiftLeft, BitVec.toNat_ofNat, Nat.shiftLeft_eq,
        Nat.one_mod, Nat.one_mul]
      omega
    rw [ones, BitVec.getLsbD_ofNat, Nat.testBit_two_pow_sub_one]
    simp only [lt, decide_true, Bool.true_and]
    exact decide_eq_decide.2 (by omega)

namespace EntryInv

/-- The masks of an entry whose callbacks have all marked their slots are the expected ones. -/
lemma masks_eq (inv : EntryInv cpus s) (all : ∀ c, 2 ≤ (s.pc c).stage) (word : Nat) :
    s.slotMasks word = expectedMask n word := by
  apply BitVec.eq_of_getLsbD_eq
  intro i lt
  have split : (word * 64 + i) / 64 = word ∧ (word * 64 + i) % 64 = i := by omega
  have marks := inv.marks (word * 64 + i)
  rw [split.1, split.2] at marks
  rw [getLsbD_expectedMask lt, Bool.eq_iff_iff, marks, decide_eq_true_iff]
  constructor
  · rintro ⟨c, some, _⟩
    have lt := inv.slots.lt c _ some
    rw [inv.slots.count] at lt
    exact lt_of_lt_of_le lt (reached_le s.pc 1)
  · intro lt
    obtain ⟨c, some⟩ := inv.slots.covers (fun c => le_trans (by decide) (all c)) _ lt
    exact ⟨c, some, all c⟩

/-- What `dispatch_token` checks once every callback has returned. -/
lemma inspect_eq_zero_iff (inv : EntryInv cpus s) (all : ∀ c, 15 ≤ (s.pc c).stage)
    (protocolStatus : Nat) :
    s.inspect protocolStatus = 0 ↔
      (∀ c, cpus.ready c = true) ∧ (∀ c, cpus.restored c = true) ∧
        (∀ c, cpus.workerStatus c = 0) ∧ protocolStatus = 0 := by
  have taken : s.nextSlot = n + 2 :=
    inv.slots.count.trans (reached_full_iff.2 fun c => le_trans (by decide) (all c))
  have counted : s.callbacksReturned = n + 2 := inv.counted.trans (reached_full_iff.2 all)
  obtain ⟨passed, still, _⟩ := inv.gate.behind (c := (0 : Fin (n + 2))) rfl (le_trans (by decide) (all 0))
  have masks : ∀ word, s.slotMasks word = expectedMask n word :=
    inv.masks_eq fun c => le_trans (by decide) (all c)
  have covers := inv.slots.covers fun c => le_trans (by decide) (all c)
  have agreed : ∀ slot ∈ List.range (n + 2), (s.records slot).backend = cpus.commonAvx2.toNat := by
    intro slot mem
    obtain ⟨c, some⟩ := covers slot (List.mem_range.1 mem)
    exact (inv.own c slot some).backend (le_trans (by decide) (all c))
  -- the slots are the processors' own, so the records speak for the processors
  have records : (∀ slot ∈ List.range (n + 2),
      (s.records slot).restored = 1 ∧ (s.records slot).workerStatus = 0) ↔
        ∀ c, cpus.restored c = true ∧ cpus.outcome c = 0 := by
    constructor
    · intro checked c
      obtain ⟨slot, some⟩ := Option.ne_none_iff_exists'.1
        ((s.pc c).slot_ne_none_iff.2 (le_trans (by decide) (all c)))
      have own := inv.own c slot some
      have lt : slot < n + 2 := taken ▸ inv.slots.lt c slot some
      obtain ⟨restored, status⟩ := checked slot (List.mem_range.2 lt)
      rw [own.restored (le_trans (by decide) (all c))] at restored
      rw [own.workerStatus (le_trans (by decide) (all c))] at status
      exact ⟨by simpa using restored, status⟩
    · intro checked slot mem
      obtain ⟨c, some⟩ := covers slot (List.mem_range.1 mem)
      have own := inv.own c slot some
      obtain ⟨restored, status⟩ := checked c
      rw [own.restored (le_trans (by decide) (all c)),
        own.workerStatus (le_trans (by decide) (all c)), restored, status]
      exact ⟨rfl, rfl⟩
  have quiet : s.rejection = 0 ↔ cpus.allReady = true := by
    refine ⟨fun zero => ?_, inv.quiet⟩
    by_contra unready
    exact inv.flagged 0 (le_trans (by decide) (all 0)) (Bool.eq_false_of_not_eq_true unready) zero
  rw [inspect, reject_eq_zero_iff, inspectRecord_foldl agreed (.inl rfl), inspectMask_foldl,
    if_neg (by omega), records, quiet, Processors.allReady, decide_eq_true_iff]
  constructor
  · rintro ⟨⟨⟨ready, _⟩, checked⟩, zero⟩
    refine ⟨ready, fun c => (checked c).1, fun c => ?_, zero⟩
    have status := (checked c).2
    rwa [Processors.outcome, Processors.allReady, if_pos (decide_eq_true ready)] at status
  · rintro ⟨ready, restored, status, zero⟩
    refine ⟨⟨⟨ready, fun word _ => masks word⟩, fun c => ⟨restored c, ?_⟩⟩, zero⟩
    rw [Processors.outcome, Processors.allReady, if_pos (decide_eq_true ready), status c]

end EntryInv

/-- What holds at any point of an entry. -/
structure EntryProtocol (cpus : Processors n) (s : MpCall n) : Prop where
  distinct : ∀ c d k, (s.pc c).slot = some k → (s.pc d).slot = some k → c = d
  within : ∀ c k, (s.pc c).slot = some k → k < n + 2
  covers : (∀ c, (s.pc c).slot ≠ none) → ∀ k < n + 2, ∃ c, (s.pc c).slot = some k
  marks : ∀ k, (s.slotMasks (k / 64)).getLsbD (k % 64) = true ↔
    ∃ c, (s.pc c).slot = some k ∧ ¬ ∃ slot, s.pc c = .mark slot
  published : ∀ c slot peer v, s.pc c = .readPeer slot peer v →
    ∀ d, (s.pc d).published ∧
      ∃ k, (s.pc d).slot = some k ∧ (s.records k).ready = cpus.flags d
  verdict : ∀ c v, (s.pc c).verdict = some v →
    v.allReady = decide (∀ d, cpus.ready d = true) ∧
      v.commonAvx2 = decide (∀ d, cpus.capable d = true)
  backend : ∀ c slot v called, s.pc c = .returned slot v called →
    (s.records slot).backend = v.commonAvx2.toNat
  agree : ∀ c d a b, (s.pc c).calls = some a → (s.pc d).calls = some b → a = b
  dispatched : (∀ c, ∃ slot v called, s.pc c = .returned slot v called) → ∀ protocolStatus,
    (dispatchToken 0 s protocolStatus = .ok () ↔
      (∀ c, cpus.ready c = true) ∧ (∀ c, cpus.restored c = true) ∧
        (∀ c, cpus.workerStatus c = 0) ∧ protocolStatus = 0)

/-- The invariant of an entry makes the protocol hold. -/
lemma EntryInv.protocol (inv : EntryInv cpus s) : EntryProtocol cpus s := by
  -- a verdict that a processor has reached is the one over all of them
  have verdict : ∀ c v, (s.pc c).verdict = some v →
      v = cpus.verdict := by
    intro c v some
    have locals := inv.locals c
    cases h : s.pc c <;> rw [h] at some locals <;>
      simp only [EntryPc.verdict, Option.some.injEq, reduceCtorEq] at some <;> subst some
    case storeBackend => exact locals
    all_goals exact locals.1
  have calls : ∀ c a, (s.pc c).calls = some a → a = cpus.allReady := by
    intro c a some
    have locals := inv.locals c
    cases h : s.pc c <;> rw [h] at some locals <;>
      simp only [EntryPc.calls, Option.some.injEq, reduceCtorEq] at some <;> subst some
    case callWorker => exact locals.2.symm
    case storeStatus => exact locals.2.1
    all_goals exact locals.2
  refine ⟨inv.slots.distinct, ?_, ?_, ?_, ?_, ?_, ?_, ?_, ?_⟩
  · intro c k some
    have lt := inv.slots.lt c k some
    rw [inv.slots.count] at lt
    exact lt_of_lt_of_le lt (reached_le _ 1)
  · intro all
    exact inv.slots.covers fun c => (EntryPc.slot_ne_none_iff _).1 (all c)
  · intro k
    rw [inv.marks k]
    refine exists_congr fun c => and_congr_right fun some => ?_
    cases h : s.pc c <;> simp [h, EntryPc.stage, EntryPc.slot] at some ⊢
  · intro c slot peer v h d
    obtain ⟨arrived, _⟩ := inv.published h (by simp [EntryPc.stage])
    have stored : 4 ≤ (s.pc d).stage := le_trans (by decide) (arrived d)
    obtain ⟨k, some⟩ := Option.ne_none_iff_exists'.1
      ((EntryPc.slot_ne_none_iff _).2 (le_trans (by decide) stored))
    exact ⟨stored, k, some, (inv.own d k some).ready stored⟩
  · intro c v some
    rw [verdict c v some]
    exact ⟨rfl, rfl⟩
  · intro c slot v called h
    have own := inv.own_at h rfl
    rw [own.backend (by simp [EntryPc.stage]), verdict c v (by rw [h]; rfl)]
    rfl
  · intro c d a b left right
    rw [calls c a left, calls d b right]
  · intro all protocolStatus
    have returned : ∀ c, 15 ≤ (s.pc c).stage := by
      intro c
      obtain ⟨slot, v, called, h⟩ := all c
      simp [h, EntryPc.stage]
    rw [← inv.inspect_eq_zero_iff returned, dispatchToken, if_neg (by simp)]
    split
    case isTrue bad => simp [bad]
    case isFalse good => simpa using good

end Promptboot.MpCall
