import Promptboot.Primitive.ArenaRun

/-!
# Arena safety

`ArenaSafe` is what holds after any run: the counters are in order, the regions handed out since the
last reset are aligned, apart and inside the committed part, and what was written before the last
reset is gone. Each successful call keeps it; a call that fails changes nothing.

The helpers are one per call: `ArenaSafe.allocate`, `ArenaSafe.reset`, `ArenaSafe.regionMut`, and
`ArenaSafe.error` for a call that fails. `ArenaSafe.call` puts them together, `ArenaRun.safe` is the
induction on the run, and the headline `arena_safe` says what the caller sees of it.
-/

namespace Promptboot.Primitive
open Memory

/-- A power of two up to 64 divides 64. -/
lemma dvd_of_isPowerOfTwo {n : Nat} (power : Arena.isPowerOfTwo n = true) (small : n ≤ 64) :
    n ∣ 64 := by
  have all : ∀ n ≤ 64, Arena.isPowerOfTwo n = true → n ∣ 64 := by decide
  exact all n small power

section Outcomes

variable {arena arena' : Arena} {m m' : Nat → UInt8}

/-- All that a successful allocation says. -/
structure Allocated (arena : Arena) (bytes alignment : Nat) (region : Region) (arena' : Arena) :
    Prop where
  divides : alignment ∣ 64
  aligned : alignment ∣ region.offset
  length_eq : region.length = bytes
  positive : 0 < bytes
  above : arena.committed ≤ region.offset
  room : region.offset + bytes ≤ arena.storageLength
  grown : arena' = { arena with
    requested := arena.requested + bytes
    committed := region.offset + bytes
    current := arena.current + bytes
    highWater := max arena.highWater (arena.current + bytes) }

/-- A sum that does not overflow is the sum. -/
lemma addOr_eq_ok {bytes left right sum : Nat} (h : arena.addOr bytes left right = .ok sum) :
    sum = left + right := by
  rw [Arena.addOr] at h
  split_ifs at h
  exact (Except.ok.inj h).symm

/-- A successful allocation is all that it says. -/
lemma allocated_of_ok {bytes alignment : Nat} {region : Region}
    (h : arena.allocate bytes alignment = .ok (region, arena')) :
    Allocated arena bytes alignment region arena' := by
  rw [Arena.allocate] at h
  obtain ⟨_, _, h⟩ := bind_eq_ok.mp h
  obtain ⟨_, some, h⟩ := bind_eq_ok.mp h
  obtain ⟨_, power, h⟩ := bind_eq_ok.mp h
  obtain ⟨raised, raise, h⟩ := bind_eq_ok.mp h
  obtain ⟨stop, sum, h⟩ := bind_eq_ok.mp h
  obtain ⟨requested, request, h⟩ := bind_eq_ok.mp h
  obtain ⟨current, now, h⟩ := bind_eq_ok.mp h
  obtain ⟨_, room, h⟩ := bind_eq_ok.mp h
  cases h
  simp only [refuse_eq_ok, Bool.or_eq_false_iff, decide_eq_false_iff_not, Bool.not_eq_false',
    Nat.not_lt] at some power room
  obtain ⟨⟨nonzero, power⟩, small⟩ := power
  have raise := addOr_eq_ok raise
  have sum := addOr_eq_ok sum
  have below : raised % alignment < alignment := Nat.mod_lt _ (by omega)
  refine ⟨dvd_of_isPowerOfTwo power small, ?_, rfl, by omega, ?_, ?_, ?_⟩
  · exact Nat.dvd_sub_mod raised
  · show arena.committed ≤ raised - raised % alignment
    omega
  · exact sum ▸ room
  · rw [addOr_eq_ok request, addOr_eq_ok now, sum]

/-- Sealing succeeds once and changes the mark only. -/
lemma sealUp_ok (h : arena.sealUp = .ok arena') :
    arena.isSealed = false ∧ arena' = { arena with isSealed := true } := by
  rw [Arena.sealUp] at h
  split_ifs at h with closed
  cases h
  exact ⟨Bool.eq_false_iff.mpr closed, rfl⟩

/-- A reset needs the seal; it clears the committed part and the counters. -/
lemma reset_ok (h : arena.reset m = .ok (arena', m')) :
    arena.isSealed = true ∧
    arena' = { arena with requested := 0, committed := 0, current := 0, isSealed := false } ∧
      m' = fillBytes m arena.storage arena.committed fun _ => 0 := by
  rw [Arena.reset] at h
  split_ifs at h with opened
  cases h
  exact ⟨by simpa using opened, rfl, rfl⟩

/-- The bounds of a region are within the committed part. -/
lemma regionBounds_ok {region : Region} {bounds : Nat × Nat}
    (h : arena.regionBounds region = .ok bounds) :
    0 < region.length ∧ region.offset + region.length ≤ arena.committed ∧
      bounds = (region.offset, region.offset + region.length) := by
  rw [Arena.regionBounds] at h
  split_ifs at h with empty _ outside
  cases h
  exact ⟨Nat.pos_of_ne_zero empty, Nat.not_lt.mp outside, rfl⟩

/-- A region that is shown lies in the committed part of a sealed arena. -/
structure Shown (arena : Arena) (region : Region) : Prop where
  isSealed : arena.isSealed = true
  positive : 0 < region.length
  committed : region.offset + region.length ≤ arena.committed

/-- A region that is shown shows its bytes. -/
lemma region_ok {region : Region} {bytes : List UInt8} (h : arena.region m region = .ok bytes) :
    Shown arena region ∧
      bytes = (List.range' (arena.storage + region.offset) region.length).map m := by
  rw [Arena.region] at h
  split_ifs at h with opened
  rcases found : arena.regionBounds region with _ | bounds <;> rw [found] at h <;> cases h
  obtain ⟨positive, committed, rfl⟩ := regionBounds_ok found
  refine ⟨⟨by simpa using opened, positive, committed⟩, ?_⟩
  dsimp only
  rw [Nat.add_sub_cancel_left]

/-- A region that is shown starts at its address. -/
lemma regionMut_ok {region : Region} {address : Nat} (h : arena.regionMut region = .ok address) :
    Shown arena region ∧ address = arena.storage + region.offset := by
  have start := Arena.regionMut_ok h
  rw [Arena.regionMut] at h
  split_ifs at h with opened
  rcases found : arena.regionBounds region with _ | bounds <;> rw [found] at h <;> cases h
  obtain ⟨positive, committed, _⟩ := regionBounds_ok found
  exact ⟨⟨by simpa using opened, positive, committed⟩, start⟩

end Outcomes

/-- What holds after any run. -/
structure ArenaSafe (storage length : Nat) (m₀ : Nat → UInt8) (log : ArenaLog) (arena : Arena)
    (m : Nat → UInt8) : Prop where
  storage_eq : arena.storage = storage
  length_eq : arena.storageLength = length
  base : 64 ∣ storage
  requested_eq : arena.requested = arena.current
  current_le : arena.current ≤ arena.committed
  committed_le : arena.committed ≤ length
  current_le_highWater : arena.current ≤ arena.highWater
  aligned : ∀ h ∈ handed log,
    h.alignment ∣ h.region.offset ∧ h.alignment ∣ storage + h.region.offset
  inside : ∀ h ∈ handed log,
    0 < h.region.length ∧ h.region.offset + h.region.length ≤ arena.committed
  disjoint : (handed log).Pairwise fun g h =>
    Disjoint (g.region.area storage) (h.region.area storage)
  written_subset : written storage log ⊆ area storage arena.committed
  stale : ∀ a ∈ everWritten storage log, a ∉ written storage log → m a = 0
  fresh : ∀ a ∉ everWritten storage log, m a = m₀ a ∨ m a = 0
  outside : ∀ a ∉ area storage length, m a = m₀ a

section Steps

variable {storage length : Nat} {m₀ m m' : Nat → UInt8} {log : ArenaLog} {arena arena' : Arena}

/-- A new arena is safe. -/
lemma arenaSafe_new (h : Arena.new storage length = .ok arena) :
    ArenaSafe storage length m₀ [] arena m₀ := by
  rw [Arena.new] at h
  split_ifs at h with empty misaligned
  cases h
  exact {
    storage_eq := rfl
    length_eq := rfl
    base := Nat.dvd_of_mod_eq_zero (by omega)
    requested_eq := rfl
    current_le := Nat.le_refl 0
    committed_le := Nat.zero_le _
    current_le_highWater := Nat.le_refl 0
    aligned := fun _ mem => absurd mem List.not_mem_nil
    inside := fun _ mem => absurd mem List.not_mem_nil
    disjoint := .nil
    written_subset := Set.empty_subset _
    stale := fun a mem => absurd mem (Set.notMem_empty a)
    fresh := fun _ _ => .inl rfl
    outside := fun _ _ => rfl }

/-- The new region starts where the committed part ends. -/
lemma ArenaSafe.allocate {bytes alignment : Nat} {region : Region}
    (safe : ArenaSafe storage length m₀ log arena m)
    (grown : Allocated arena bytes alignment region arena') :
    ArenaSafe storage length m₀ ((.allocate bytes alignment, .ok (.region region)) :: log) arena'
      m := by
  have above := grown.above
  have room := grown.room
  have sum := grown.length_eq
  obtain ⟨divides, aligned, -, positive, -, -, rfl⟩ := grown
  have requested := safe.requested_eq
  have current := safe.current_le
  exact { safe with
    requested_eq := congrArg (· + bytes) requested
    current_le := by show arena.current + bytes ≤ region.offset + bytes; omega
    committed_le := safe.length_eq ▸ room
    current_le_highWater := Nat.le_max_right _ _
    aligned := by
      rintro h (_ | ⟨_, mem⟩)
      · exact ⟨aligned, Nat.dvd_add (Nat.dvd_trans divides safe.base) aligned⟩
      · exact safe.aligned h mem
    inside := by
      rintro h (_ | ⟨_, mem⟩)
      · refine ⟨sum ▸ positive, ?_⟩
        show region.offset + region.length ≤ region.offset + bytes
        omega
      · have old := safe.inside h mem
        exact ⟨old.1, by show _ ≤ region.offset + bytes; omega⟩
    disjoint := by
      refine List.pairwise_cons.mpr ⟨fun h mem => ?_, safe.disjoint⟩
      have old := safe.inside h mem
      rw [Set.disjoint_left]
      rintro a ⟨lower, _⟩ ⟨_, upper⟩
      dsimp only at lower upper
      omega
    written_subset := by
      rintro a mem
      have old := safe.written_subset mem
      exact ⟨old.1, Nat.lt_of_lt_of_le old.2 (by show _ ≤ storage + (region.offset + bytes); omega)⟩
    }

/-- Within the range the content is written. -/
lemma fillBytes_inside {start bytes a : Nat} {content : Nat → UInt8} (mem : a ∈ area start bytes) :
    fillBytes m start bytes content a = content (a - start) := if_pos mem

/-- Outside the range nothing is written. -/
lemma fillBytes_outside {start bytes a : Nat} {content : Nat → UInt8}
    (out : a ∉ area start bytes) : fillBytes m start bytes content a = m a := if_neg out

/-- A reset clears all that could be written, since only the committed part is ever shown. -/
lemma ArenaSafe.reset (safe : ArenaSafe storage length m₀ log arena m) :
    ArenaSafe storage length m₀ ((.reset, .ok .done) :: log)
      { arena with requested := 0, committed := 0, current := 0, isSealed := false }
      (fillBytes m arena.storage arena.committed fun _ => 0) := by
  have start := safe.storage_eq
  exact { safe with
    requested_eq := rfl
    current_le := Nat.le_refl 0
    committed_le := Nat.zero_le _
    current_le_highWater := Nat.zero_le _
    aligned := fun _ mem => absurd mem List.not_mem_nil
    inside := fun _ mem => absurd mem List.not_mem_nil
    disjoint := .nil
    written_subset := Set.empty_subset _
    stale := by
      intro a ever _
      by_cases cleared : a ∈ area arena.storage arena.committed
      · exact fillBytes_inside cleared
      · rw [fillBytes_outside cleared]
        exact safe.stale a ever fun mem => cleared (start ▸ safe.written_subset mem)
    fresh := by
      intro a never
      by_cases cleared : a ∈ area arena.storage arena.committed
      · exact .inr (fillBytes_inside cleared)
      · rw [fillBytes_outside cleared]
        exact safe.fresh a never
    outside := by
      intro a out
      have beyond : a ∉ area arena.storage arena.committed := fun mem =>
        out ⟨start ▸ mem.1, Nat.lt_of_lt_of_le mem.2
          (start ▸ Nat.add_le_add_left safe.committed_le _)⟩
      rw [fillBytes_outside beyond]
      exact safe.outside a out }

/-- What is left in a shown slice lies in the committed part. -/
lemma ArenaSafe.regionMut {region : Region} {content : Nat → UInt8}
    (safe : ArenaSafe storage length m₀ log arena m) (shown : Shown arena region) :
    ArenaSafe storage length m₀ ((.regionMut region content, .ok .done) :: log) arena
      (fillBytes m (arena.storage + region.offset) region.length content) := by
  have start := safe.storage_eq
  have committed := shown.committed
  have part : region.area storage ⊆ area storage arena.committed := fun a mem =>
    ⟨Nat.le_trans (Nat.le_add_right _ _) mem.1, Nat.lt_of_lt_of_le mem.2 (by omega)⟩
  have kept {a : Nat} (out : a ∉ region.area storage) :
      fillBytes m (arena.storage + region.offset) region.length content a = m a :=
    fillBytes_outside (start ▸ out)
  exact { safe with
    written_subset := Set.union_subset part safe.written_subset
    stale := by
      rintro a ever now
      obtain ⟨out, before⟩ := not_or.mp now
      rw [kept out]
      exact safe.stale a (ever.resolve_left out) before
    fresh := by
      rintro a never
      obtain ⟨out, before⟩ := not_or.mp never
      rw [kept out]
      exact safe.fresh a before
    outside := by
      intro a out
      have beyond : a ∉ region.area storage := fun mem =>
        out ⟨(part mem).1, Nat.lt_of_lt_of_le (part mem).2
          (Nat.add_le_add_left safe.committed_le _)⟩
      rw [kept beyond]
      exact safe.outside a out }

/-- A call that fails changes neither the arena nor the memory. -/
lemma call_error {c : ArenaCall} {error : ArenaError}
    (h : arena.call m c = (.error error, arena', m')) : arena' = arena ∧ m' = m := by
  cases c with
  | allocate bytes alignment =>
    rw [Arena.call] at h
    split at h <;> cases h
    exact ⟨rfl, rfl⟩
  | sealUp =>
    rw [Arena.call] at h
    split at h <;> cases h
    exact ⟨rfl, rfl⟩
  | reset =>
    rw [Arena.call] at h
    split at h <;> cases h
    exact ⟨rfl, rfl⟩
  | region region =>
    rw [Arena.call] at h
    split at h <;> cases h
    exact ⟨rfl, rfl⟩
  | regionMut region content =>
    rw [Arena.call] at h
    split at h <;> cases h
    exact ⟨rfl, rfl⟩

/-- A failed call leaves no trace in what the log says. -/
lemma ArenaSafe.error {c : ArenaCall} {error : ArenaError}
    (safe : ArenaSafe storage length m₀ log arena m) :
    ArenaSafe storage length m₀ ((c, .error error) :: log) arena m := by
  cases c <;> exact { safe with }

/-- Every call keeps the invariant. -/
lemma ArenaSafe.call {c : ArenaCall} {answer : Except ArenaError ArenaAnswer}
    (safe : ArenaSafe storage length m₀ log arena m)
    (h : arena.call m c = (answer, arena', m')) :
    ArenaSafe storage length m₀ ((c, answer) :: log) arena' m' := by
  cases answer with
  | error error =>
    obtain ⟨rfl, rfl⟩ := call_error h
    exact safe.error
  | ok answer =>
    cases c with
    | allocate bytes alignment =>
      rw [Arena.call] at h
      split at h <;> cases h
      rename_i allocated
      exact safe.allocate (allocated_of_ok allocated)
    | sealUp =>
      rw [Arena.call] at h
      split at h <;> cases h
      rename_i closed
      obtain ⟨_, rfl⟩ := sealUp_ok closed
      exact { safe with }
    | reset =>
      rw [Arena.call] at h
      split at h <;> cases h
      rename_i cleared
      obtain ⟨_, rfl, rfl⟩ := reset_ok cleared
      exact safe.reset
    | region region =>
      rw [Arena.call] at h
      split at h <;> cases h
      exact { safe with }
    | regionMut region content =>
      rw [Arena.call] at h
      split at h <;> cases h
      rename_i given
      obtain ⟨shown, rfl⟩ := regionMut_ok given
      exact safe.regionMut shown

/-- The arena is safe after any run. -/
lemma ArenaRun.safe (run : ArenaRun storage length m₀ log arena m) :
    ArenaSafe storage length m₀ log arena m := by
  induction run with
  | new created => exact arenaSafe_new created
  | call _ called ih => exact ih.call called

end Steps

section Runs

variable {storage length : Nat} {m₀ m : Nat → UInt8} {log : ArenaLog} {arena : Arena}

/-- Whatever the calls of a run: the counters are in order, the regions handed out since the last
reset are aligned, apart and inside, only the committed part is shown, a call that fails changes
nothing, and what was written before the last reset reads as zero. -/
theorem arena_safe (run : ArenaRun storage length m₀ log arena m) :
    ArenaSafe storage length m₀ log arena m ∧
    (∀ region bytes, arena.region m region = .ok bytes →
      Shown arena region ∧
        bytes = (List.range' (storage + region.offset) region.length).map m) ∧
    (∀ region address, arena.regionMut region = .ok address →
      Shown arena region ∧ address = storage + region.offset) ∧
    ∀ c error arena' m', arena.call m c = (.error error, arena', m') → arena' = arena ∧ m' = m := by
  have safe := run.safe
  refine ⟨safe, fun region bytes shown => ?_, fun region address shown => ?_,
    fun c error arena' m' => call_error⟩
  · exact safe.storage_eq ▸ region_ok shown
  · exact safe.storage_eq ▸ regionMut_ok shown

/-- Ten bytes are handed out, written and reset: the first reads as zero. -/
theorem arena_safe_written :
    ∃ log arena m, ArenaRun 64 1000 (fun _ => 1) log arena m ∧ 64 ∈ everWritten 64 log ∧
      m 64 = 0 := by
  have run : ArenaRun 64 1000 (fun _ => 1)
      [(.reset, .ok .done), (.regionMut ⟨0, 10⟩ fun _ => 7, .ok .done), (.sealUp, .ok .done),
        (.allocate 10 8, .ok (.region ⟨0, 10⟩))] _ _ :=
    .call (.call (.call (.call (.new rfl) rfl) rfl) rfl) rfl
  have ever : 64 ∈ everWritten 64
      [(.reset, .ok .done), (.regionMut ⟨0, 10⟩ fun _ => 7, .ok .done), (.sealUp, .ok .done),
        (.allocate 10 8, .ok (.region ⟨0, 10⟩))] :=
    .inl ⟨by decide, by decide⟩
  exact ⟨_, _, _, run, ever, (arena_safe run).1.stale 64 ever (Set.notMem_empty 64)⟩

end Runs

end Promptboot.Primitive
