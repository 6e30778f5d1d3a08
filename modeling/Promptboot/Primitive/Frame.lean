import Promptboot.Primitive.Entry
import Mathlib.Data.Set.Disjoint
import Mathlib.Data.Set.BooleanAlgebra
import Mathlib.Order.CompletePartialOrder

/-!
# What a primitive writes

A call changes the result record, the declared scratch memory and, when it succeeds, the words of
the output that its record counts. Everything rests on the checked ranges: `Admitted` says what
they are and that the record is apart from them, `Prepared` that the stage lies in the scratch
memory and the output in its range, both apart from what the kernel reads.

`Refuses` is the small logic of the checks, which write nothing. The helpers
`admitted_of_checkRanges` and `Call.prepare_ok` give the two invariants, `writeFailure_spec` and
`copyBytes_of_not_mem` the writes on the two ways out. The headline `runPrimitive_frame` is the case
split on where the call ends.
-/

namespace Promptboot.Primitive
open Memory

section Refusals
variable {α β ε δ : Type}

/-- A succession succeeds when both its parts do. -/
lemma bind_eq_ok {c : Except ε α} {f : α → Except ε β} {b : β} :
    c >>= f = .ok b ↔ ∃ a, c = .ok a ∧ f a = .ok b := by
  cases c with
  | error e => exact ⟨nofun, fun ⟨_, h, _⟩ => nomatch h⟩
  | ok a => exact ⟨fun h => ⟨a, rfl, h⟩, fun ⟨_, e, h⟩ => Except.ok.inj e ▸ h⟩

/-- A refusal passes when its condition is false. -/
@[simp] lemma refuse_eq_ok {condition : Bool} {error : ε} {u : Unit} :
    refuse condition error = .ok u ↔ condition = false := by
  cases condition <;> simp [refuse]

/-- Renaming the errors keeps the successes. -/
lemma mapError_eq_ok {c : Except ε α} {f : ε → δ} {a : α} :
    c.mapError f = .ok a ↔ c = .ok a := by
  cases c <;> simp [Except.mapError]

/-- A check that stops with a status other than OK. -/
def Refuses (c : Except PrimitiveStatus α) : Prop := c ≠ .error .ok

/-- Parts that refuse with an error do so in succession. -/
lemma Refuses.bind {c : Except PrimitiveStatus α} {f : α → Except PrimitiveStatus β}
    (first : Refuses c) (rest : ∀ a, Refuses (f a)) : Refuses (c >>= f) := by
  cases c with
  | error e => exact fun h => first (congrArg Except.error (Except.error.inj h))
  | ok a => exact rest a

/-- A refusal with an error status. -/
lemma Refuses.refuse {condition : Bool} {status : PrimitiveStatus} (h : status ≠ .ok) :
    Refuses (refuse condition status) := by
  cases condition <;> simp [Refuses, Primitive.refuse, h]

/-- A success refuses nothing. -/
lemma Refuses.ok {a : α} : Refuses (.ok a) := nofun

end Refusals

/-- The check of a record's range refuses with an error. -/
lemma refuses_fixedRange (address bytes : Nat) : Refuses (fixedRange address bytes) := by
  rw [Refuses, fixedRange]
  split <;> simp

/-- A product that overflows is refused with an error. -/
lemma refuses_checkedMul (left right : Nat) : Refuses (checkedMul left right) := by
  rw [Refuses, checkedMul]
  split <;> simp

/-- The check of a declared range refuses with an error. -/
lemma refuses_declaredRange (pointer bytes : Nat) : Refuses (declaredRange pointer bytes) := by
  rw [Refuses, declaredRange, fixedRange]
  split_ifs <;> simp [Except.map]

/-- Before the result record is written the entry never stops with OK. -/
lemma refuses_checkRanges (m : Nat → UInt8) (request result : Nat) :
    Refuses (checkRanges m request result) := by
  have refused {c : Bool} {status : PrimitiveStatus} (h : status ≠ .ok) :
      Refuses (refuse c status) := .refuse h
  refine (refused (by decide)).bind fun _ => (refused (by decide)).bind fun _ => ?_
  refine (refuses_fixedRange _ _).bind fun _ => ?_
  refine (refused (by decide)).bind fun _ => (refused (by decide)).bind fun _ => ?_
  refine (refuses_fixedRange _ _).bind fun _ => (refused (by decide)).bind fun _ => ?_
  refine (refuses_checkedMul _ _).bind fun _ => (refuses_declaredRange _ _).bind fun _ => ?_
  refine (refuses_declaredRange _ _).bind fun _ => (refuses_declaredRange _ _).bind fun _ => ?_
  exact (refuses_declaredRange _ _).bind fun _ => (refused (by decide)).bind fun _ => .ok

/-- Only success has the code of success. -/
lemma PrimitiveStatus.code_eq_ok {status : PrimitiveStatus} (h : status.code = ok.code) :
    status = ok := by
  cases status <;> first | rfl | exact absurd h (by decide)

/-! ## Ranges -/

/-- The `bytes` addresses from `start` on. -/
def area (start bytes : Nat) : Set Nat := {a | start ≤ a ∧ a < start + bytes}

/-- What a pointer declares with a length; a null pointer declares nothing. -/
def declared (pointer bytes : Nat) : Set Nat := {a | pointer ≠ 0 ∧ a ∈ area pointer bytes}

def AddressRange.addresses (self : AddressRange) : Set Nat := {a | self.start ≤ a ∧ a < self.stop}

/-- The addresses of a range that may be missing. -/
def addresses (range : Option AddressRange) : Set Nat := {a | ∃ r ∈ range, a ∈ r.addresses}

/-- Two ranges that were not found to overlap share no address. -/
lemma disjoint_of_not_overlapping {left right : Option AddressRange}
    (h : overlapping left right = false) : Disjoint (addresses left) (addresses right) := by
  rw [Set.disjoint_left]
  rintro a ⟨l, rfl, lower, upper⟩ ⟨r, rfl, lower', upper'⟩
  simp only [overlapping, AddressRange.overlaps, Bool.and_eq_false_iff, decide_eq_false_iff_not]
    at h
  omega

/-- The range of a record has the record's addresses. -/
lemma fixedRange_eq {address bytes : Nat} {range : AddressRange}
    (h : fixedRange address bytes = .ok range) :
    addresses (some range) = area address bytes := by
  rw [fixedRange] at h
  split_ifs at h
  cases h
  ext a
  simp [addresses, AddressRange.addresses, area]

/-- A declared range has the declared addresses. -/
lemma addresses_declaredRange {pointer bytes : Nat} {range : Option AddressRange}
    (h : declaredRange pointer bytes = .ok range) : addresses range = declared pointer bytes := by
  rw [declaredRange] at h
  split_ifs at h with empty
  · cases h
    ext a
    simp only [addresses, declared, area, Set.mem_ofPred_eq, Option.not_mem_none, false_and,
      exists_false, false_iff]
    omega
  · rcases found : fixedRange pointer bytes with _ | r <;> rw [found] at h <;> cases h
    rw [fixedRange_eq found]
    ext a
    simp only [declared, Set.mem_ofPred_eq]
    exact (and_iff_right (not_or.mp empty).1).symm

/-- The ranges of a call whose ranges are checked, and the result record apart from them. -/
structure Admitted (m : Nat → UInt8) (request result : Nat) (c : Call) : Prop where
  request_eq : c.request = readRequest m request
  declared_eq : c.outputBytesDeclared = c.request.outputCapacityWords * 4
  requestRange : addresses (some c.requestRange) = area request requestSize
  input : addresses c.inputRange = declared c.request.input c.request.inputBytes
  aux : addresses c.auxRange = declared c.request.aux c.request.auxBytes
  output : addresses c.outputRange = declared c.request.output c.outputBytesDeclared
  scratch : addresses c.scratchRange = declared c.request.scratch c.request.scratchBytes
  apart : ∀ range ∈ [some c.requestRange, c.inputRange, c.auxRange],
    Disjoint (area result resultSize) (addresses range)

/-- A call whose ranges pass the checks is admitted. -/
lemma admitted_of_checkRanges {m : Nat → UInt8} {request result : Nat} {c : Call}
    (h : checkRanges m request result = .ok c) : Admitted m request result c := by
  rw [checkRanges] at h
  obtain ⟨_, _, h⟩ := bind_eq_ok.mp h
  obtain ⟨_, _, h⟩ := bind_eq_ok.mp h
  obtain ⟨resultRange, resultFixed, h⟩ := bind_eq_ok.mp h
  obtain ⟨_, _, h⟩ := bind_eq_ok.mp h
  obtain ⟨_, _, h⟩ := bind_eq_ok.mp h
  obtain ⟨requestRange, requestFixed, h⟩ := bind_eq_ok.mp h
  obtain ⟨_, free, h⟩ := bind_eq_ok.mp h
  obtain ⟨outputBytes, product, h⟩ := bind_eq_ok.mp h
  obtain ⟨inputRange, input, h⟩ := bind_eq_ok.mp h
  obtain ⟨auxRange, aux, h⟩ := bind_eq_ok.mp h
  obtain ⟨outputRange, output, h⟩ := bind_eq_ok.mp h
  obtain ⟨scratchRange, scratch, h⟩ := bind_eq_ok.mp h
  obtain ⟨_, others, h⟩ := bind_eq_ok.mp h
  cases h
  refine ⟨rfl, ?_, fixedRange_eq requestFixed, addresses_declaredRange input,
    addresses_declaredRange aux, addresses_declaredRange output,
    addresses_declaredRange scratch, ?_⟩
  · rw [checkedMul] at product
    split_ifs at product
    exact (Except.ok.inj product).symm
  · rw [refuse_eq_ok, List.any_eq_false] at others
    have requestApart : overlapping (some requestRange) (some resultRange) = false :=
      refuse_eq_ok.mp free
    have from_result {range : Option AddressRange}
        (mem : range ∈ [inputRange, auxRange, outputRange, scratchRange]) :
        Disjoint (area result resultSize) (addresses range) :=
      fixedRange_eq resultFixed ▸
        disjoint_of_not_overlapping (Bool.eq_false_iff.mpr (others range mem))
    simp only [List.forall_mem_cons, List.not_mem_nil, false_imp_iff, forall_const, and_true]
    refine ⟨?_, from_result (by simp), from_result (by simp)⟩
    exact fixedRange_eq resultFixed ▸ (disjoint_of_not_overlapping requestApart).symm

/-! ## The stage -/

/-- A region handed out is within the storage. -/
lemma Arena.allocate_ok {arena arena' : Arena} {bytes alignment : Nat} {region : Region}
    (h : arena.allocate bytes alignment = .ok (region, arena')) :
    region.length = bytes ∧ region.offset + bytes ≤ arena.storageLength ∧
      arena'.storage = arena.storage := by
  rw [Arena.allocate] at h
  obtain ⟨_, _, h⟩ := bind_eq_ok.mp h
  obtain ⟨_, _, h⟩ := bind_eq_ok.mp h
  obtain ⟨_, _, h⟩ := bind_eq_ok.mp h
  obtain ⟨raised, _, h⟩ := bind_eq_ok.mp h
  obtain ⟨stop, sum, h⟩ := bind_eq_ok.mp h
  obtain ⟨_, _, h⟩ := bind_eq_ok.mp h
  obtain ⟨_, _, h⟩ := bind_eq_ok.mp h
  obtain ⟨_, room, h⟩ := bind_eq_ok.mp h
  cases h
  rw [Arena.addOr] at sum
  split_ifs at sum
  have eq := Except.ok.inj sum
  rw [refuse_eq_ok, decide_eq_false_iff_not, Nat.not_lt] at room
  exact ⟨rfl, eq ▸ room, rfl⟩

/-- A region that is shown starts at its address. -/
lemma Arena.regionMut_ok {arena : Arena} {region : Region} {address : Nat}
    (h : arena.regionMut region = .ok address) : address = arena.storage + region.offset := by
  rw [Arena.regionMut] at h
  split_ifs at h
  rcases bounds : arena.regionBounds region with _ | ⟨start, stop⟩ <;> rw [bounds] at h <;> cases h
  rw [Arena.regionBounds] at bounds
  split_ifs at bounds
  cases bounds
  rfl

/-- The stage lies in the scratch memory. -/
lemma Call.openStage_ok {c : Call} {bytes stage : Nat} {usage : ArenaUsage}
    (h : c.openStage bytes = .ok (stage, usage)) :
    c.request.scratch ≤ stage ∧
      stage + bytes ≤ c.request.scratch + c.request.scratchBytes := by
  rw [Call.openStage] at h
  obtain ⟨arena, created, h⟩ := bind_eq_ok.mp h
  obtain ⟨⟨region, grown⟩, allocated, h⟩ := bind_eq_ok.mp h
  obtain ⟨closed, sealedUp, h⟩ := bind_eq_ok.mp h
  obtain ⟨_, mutable, h⟩ := bind_eq_ok.mp h
  cases h
  rw [mapError_eq_ok] at created allocated sealedUp mutable
  obtain ⟨length, room, storage⟩ := Arena.allocate_ok allocated
  have start : arena.storage = c.request.scratch ∧
      arena.storageLength = c.request.scratchBytes := by
    rw [Arena.new] at created
    split_ifs at created
    cases created
    exact ⟨rfl, rfl⟩
  have kept : closed.storage = grown.storage := by
    rw [Arena.sealUp] at sealedUp
    split_ifs at sealedUp
    cases sealedUp
    rfl
  have address := Arena.regionMut_ok mutable
  omega

/-- A call ready for its kernel. -/
structure Prepared (c : Call) (s : Schema) (stage : Nat) : Prop where
  schema_eq : schema c.request = .ok s
  small : s.outputWords < 2 ^ 32
  capacity : s.outputWords ≤ c.request.outputCapacityWords
  staged : area stage (s.outputWords * 4) ⊆ declared c.request.scratch c.request.scratchBytes
  output : c.request.output ≠ 0
  apart : ∀ pair ∈ c.forbidden, Disjoint (addresses pair.1) (addresses pair.2)

/-- An accepted schema is that of the request and has few words. -/
lemma Call.checkSchema_ok {c : Call} {s : Schema} (h : c.checkSchema = .ok s) :
    schema c.request = .ok s ∧ s.outputWords < 2 ^ 32 := by
  rw [Call.checkSchema] at h
  obtain ⟨found, shape, h⟩ := bind_eq_ok.mp h
  obtain ⟨_, bound, h⟩ := bind_eq_ok.mp h
  cases h
  rw [refuse_eq_ok, decide_eq_false_iff_not] at bound
  exact ⟨mapError_eq_ok.mp shape, by omega⟩

/-- An accepted call has an output and a scratch that suffice. -/
lemma Call.checkLengths_ok {c : Call} {s : Schema} {u : Unit}
    (h : c.checkLengths s = .ok u) :
    c.request.output ≠ 0 ∧ s.outputWords ≤ c.request.outputCapacityWords ∧
      c.request.scratch ≠ 0 := by
  rw [Call.checkLengths] at h
  obtain ⟨_, _, h⟩ := bind_eq_ok.mp h
  obtain ⟨_, _, h⟩ := bind_eq_ok.mp h
  obtain ⟨_, output, h⟩ := bind_eq_ok.mp h
  obtain ⟨_, capacity, h⟩ := bind_eq_ok.mp h
  obtain ⟨_, scratch, _⟩ := bind_eq_ok.mp h
  rw [refuse_eq_ok, decide_eq_false_iff_not] at output capacity scratch
  exact ⟨output, Nat.not_lt.mp capacity, scratch⟩

/-- A call that is prepared has passed all checks. -/
lemma Call.prepare_ok {c : Call} {s : Schema} {stage : Nat} {usage : ArenaUsage}
    (h : c.prepare = .ok (s, stage, usage)) : Prepared c s stage := by
  rw [Call.prepare] at h
  obtain ⟨_, forbidden, h⟩ := bind_eq_ok.mp h
  obtain ⟨_, _, h⟩ := bind_eq_ok.mp h
  obtain ⟨_, shape, h⟩ := bind_eq_ok.mp h
  obtain ⟨_, _, h⟩ := bind_eq_ok.mp h
  obtain ⟨_, lengths, h⟩ := bind_eq_ok.mp h
  obtain ⟨_, _, h⟩ := bind_eq_ok.mp h
  obtain ⟨⟨_, _⟩, opened, h⟩ := bind_eq_ok.mp h
  cases h
  obtain ⟨shape, small⟩ := Call.checkSchema_ok shape
  obtain ⟨output, capacity, scratch⟩ := Call.checkLengths_ok lengths
  obtain ⟨low, high⟩ := Call.openStage_ok opened
  refine ⟨shape, small, capacity, ?_, output, fun pair mem => ?_⟩
  · rintro a ⟨lower, upper⟩
    exact ⟨scratch, by omega, by omega⟩
  · rw [Call.checkForbidden, refuse_eq_ok, List.any_eq_false] at forbidden
    exact disjoint_of_not_overlapping (Bool.eq_false_iff.mpr (forbidden pair mem))

/-! ## The result record -/

/-- Storing the fields of a record changes nothing outside. -/
lemma storeFields_sameOutside {size : Nat} {fields : List (Nat × UInt32)}
    (inside : ∀ field ∈ fields, field.1 + 4 ≤ size) (m : Nat → UInt8) (base : Nat) :
    SameOutside base (base + size) m (storeFields m base fields) := by
  refine SameOutside.foldl (fun m field mem => ?_) m
  have bound := inside field mem
  exact .putU32 (Nat.le_add_right _ _) (by omega)

/-- A field reads back when no later one covers it. -/
lemma u32At_storeFields {fields : List (Nat × UInt32)} {offset : Nat}
    (apart : ∀ field ∈ fields, field.1 + 4 ≤ offset ∨ offset + 4 ≤ field.1) (m : Nat → UInt8)
    (base : Nat) (value : UInt32) :
    u32At (storeFields m base ((offset, value) :: fields)) (base + offset) = value := by
  have kept (m : Nat → UInt8) :
      u32At (storeFields m base fields) (base + offset) = u32At m (base + offset) := by
    induction fields generalizing m with
    | nil => rfl
    | cons field fields ih =>
      have here := apart field (List.mem_cons_self ..)
      rw [storeFields, List.foldl_cons, ← storeFields,
        ih fun field mem => apart field (List.mem_cons_of_mem _ mem)]
      exact u32At_putU32_of_disjoint (by omega)
  rw [storeFields, List.foldl_cons, ← storeFields, kept, u32At_putU32]

/-- The usage fields lie in the record, behind the others. -/
lemma mem_usageFields {usage : ArenaUsage} {field : Nat × UInt32} (h : field ∈ usageFields usage) :
    40 ≤ field.1 ∧ field.1 + 4 ≤ resultSize := by
  simp only [usageFields, long, List.cons_append, List.nil_append, List.mem_cons,
    List.not_mem_nil, or_false] at h
  rcases h with rfl | rfl | rfl | rfl | rfl | rfl | rfl | rfl | rfl | rfl <;>
    exact ⟨by omega, by simp [resultSize]⟩

/-- The fields of a failure lie in the record. -/
lemma failureSafe_inside : ∀ field ∈ failureSafe, field.1 + 4 ≤ resultSize := by decide

/-- A failure's status and its zero output words are the first fields, the others lie behind. -/
lemma Failure.fields_eq (self : Failure) (operation : UInt32) :
    ∃ rest, self.fields operation = (0, self.status.code) :: (4, 0) :: rest ∧
      ∀ field ∈ rest, 8 ≤ field.1 ∧ field.1 + 4 ≤ resultSize := by
  refine ⟨[(8, operation), (12, self.arena.code), (16, self.index)] ++ long 24 self.needed ++
    long 32 self.available ++ (self.usage.map usageFields).getD [], rfl, fun field mem => ?_⟩
  rcases List.mem_append.mp mem with front | counters
  · simp only [long, List.cons_append, List.nil_append, List.mem_cons, List.not_mem_nil,
      or_false] at front
    rcases front with rfl | rfl | rfl | rfl | rfl | rfl | rfl <;>
      exact ⟨by omega, by simp [resultSize]⟩
  · cases given : self.usage with
    | none =>
      rw [given] at counters
      cases counters
    | some usage =>
      rw [given] at counters
      have place := mem_usageFields (show field ∈ usageFields usage from counters)
      omega

/-- The record carries the status and no output words. -/
def Failed (m : Nat → UInt8) (result : Nat) (status : UInt32) : Prop :=
  u32At m result = status ∧ u32At m (result + 4) = 0

/-- A failure is written to the record and nowhere else. -/
lemma writeFailure_spec (m : Nat → UInt8) (result : Nat) (operation : UInt32) (failure : Failure) :
    Failed (writeFailure m result operation failure).2 result
        (writeFailure m result operation failure).1 ∧
      SameOutside result (result + resultSize) m (writeFailure m result operation failure).2 := by
  obtain ⟨rest, eq, bounds⟩ := failure.fields_eq operation
  simp only [writeFailure, eq]
  refine ⟨⟨?_, ?_⟩, storeFields_sameOutside ?_ m result⟩
  · refine u32At_storeFields (fun field mem => .inr ?_) m result _
    rcases List.mem_cons.mp mem with rfl | mem
    · exact Nat.le_refl 4
    · have bound := bounds field mem
      omega
  · rw [storeFields, List.foldl_cons, ← storeFields]
    refine u32At_storeFields (fun field mem => .inr ?_) _ result 0
    exact (bounds field mem).1
  · intro field mem
    rcases List.mem_cons.mp mem with rfl | mem
    · exact (by decide : 0 + 4 ≤ resultSize)
    rcases List.mem_cons.mp mem with rfl | mem
    · exact (by decide : 4 + 4 ≤ resultSize)
    · exact (bounds field mem).2

/-- The record of a call that succeeds counts its output words. -/
lemma u32At_success (m : Nat → UInt8) (result : Nat) (usage : ArenaUsage) (outputWords : UInt32) :
    let m' := storeFields m result (usageFields usage ++
      [(4, outputWords), (0, PrimitiveStatus.ok.code)])
    u32At m' (result + 4) = outputWords ∧ SameOutside result (result + resultSize) m m' := by
  refine ⟨?_, storeFields_sameOutside (fun field mem => ?_) m result⟩
  · rw [storeFields, List.foldl_append, ← storeFields, ← storeFields]
    exact u32At_storeFields (by simp) _ result outputWords
  · rcases List.mem_append.mp mem with counters | last
    · exact (mem_usageFields counters).2
    · simp only [List.mem_cons, List.not_mem_nil, or_false] at last
      rcases last with rfl | rfl
      · exact (by decide : 4 + 4 ≤ resultSize)
      · exact (by decide : 0 + 4 ≤ resultSize)

/-! ## The call -/

/-- Outside the area the memory is the same. -/
lemma eq_of_not_mem_area {low bytes a : Nat} {m m' : Nat → UInt8}
    (h : SameOutside low (low + bytes) m m') (out : a ∉ area low bytes) : m' a = m a :=
  h a (by simp only [area, Set.mem_ofPred_eq] at out; omega)

/-- Outside the target the memory is the same. -/
lemma copyBytes_of_not_mem {m : Nat → UInt8} {source target bytes a : Nat}
    (out : a ∉ area target bytes) : copyBytes m source target bytes a = m a :=
  if_neg out

/-- What a call with checked ranges leaves: a failure in the record alone, a failure behind the
kernel, or the output. -/
lemma runPrimitive_checked {kernel : Kernel} {m m' : Nat → UInt8} {request result : Nat}
    {status : UInt32} {c : Call} (checked : checkRanges m request result = .ok c)
    (run : runPrimitive kernel m request result = (status, m')) :
    (Failed m' result status ∧ ∀ a ∉ area result resultSize, m' a = m a) ∨
      ∃ s stage, Prepared c s stage ∧
        ((Failed m' result status ∧
            ∀ a ∉ area result resultSize ∪ area stage (s.outputWords * 4), m' a = m a) ∨
          (status = PrimitiveStatus.ok.code ∧ (u32At m' (result + 4)).toNat = s.outputWords ∧
            ∀ a ∉ area result resultSize ∪ area stage (s.outputWords * 4) ∪
              area c.request.output (s.outputWords * 4), m' a = m a)) := by
  have safe := storeFields_sameOutside failureSafe_inside m result
  rw [runPrimitive, checked] at run
  dsimp only at run
  rcases prepared : c.prepare with failure | ⟨s, stage, usage⟩
  · rw [prepared] at run
    obtain ⟨failed, record⟩ :=
      writeFailure_spec (storeFields m result failureSafe) result c.request.operation failure
    rw [show writeFailure _ _ _ _ = (status, m') from run] at failed record
    exact .inl ⟨failed, fun a out => eq_of_not_mem_area (safe.trans record) out⟩
  have ready := Call.prepare_ok prepared
  refine .inr ⟨s, stage, ready, ?_⟩
  rw [prepared] at run
  have inside := kernel.inside c.request s stage (storeFields m result failureSafe) ready.schema_eq
  rcases executed : kernel.execute c.request.operation c.request.input c.request.aux stage
    c.request.dim0 c.request.dim1 c.request.dim2 c.request.dim3 c.request.position
    (storeFields m result failureSafe) with ⟨outcome, n⟩
  rw [executed] at inside
  simp only [executed] at run
  -- up to here the record has been cleared and the stage has been computed
  have staged (a : Nat) (record : a ∉ area result resultSize)
      (stages : a ∉ area stage (s.outputWords * 4)) : n a = m a :=
    (eq_of_not_mem_area inside stages).trans (eq_of_not_mem_area safe record)
  split_ifs at run with stopped
  · obtain ⟨failed, record⟩ := writeFailure_spec n result c.request.operation
      ⟨outcome.status, .primitiveScratch, outcome.index, 0, 0, some usage⟩
    rw [run] at failed record
    refine .inl ⟨failed, fun a out => ?_⟩
    obtain ⟨notRecord, notStage⟩ := not_or.mp out
    exact (eq_of_not_mem_area record notRecord).trans (staged a notRecord notStage)
  · obtain ⟨count, record⟩ := u32At_success (copyBytes n stage c.request.output (s.outputWords * 4))
      result usage (UInt32.ofNat s.outputWords)
    obtain ⟨rfl, rfl⟩ := Prod.mk.inj run
    refine .inr ⟨rfl, ?_, fun a out => ?_⟩
    · rw [count, UInt32.toNat_ofNat', Nat.mod_eq_of_lt ready.small]
    · obtain ⟨others, notOutput⟩ := not_or.mp out
      obtain ⟨notRecord, notStage⟩ := not_or.mp others
      rw [eq_of_not_mem_area record notRecord, copyBytes_of_not_mem notOutput]
      exact staged a notRecord notStage

/-- What the kernel reads. -/
def readAddresses (request : Nat) (r : PrimitiveRequest) : Set Nat :=
  area request requestSize ∪ declared r.input r.inputBytes ∪ declared r.aux r.auxBytes

section Apart
variable {m : Nat → UInt8} {request result stage a : Nat} {c : Call} {s : Schema}

/-- An address that is read lies in one of three checked ranges. -/
lemma Admitted.mem_read (ranges : Admitted m request result c)
    (h : a ∈ readAddresses request c.request) :
    ∃ range ∈ [some c.requestRange, c.inputRange, c.auxRange], a ∈ addresses range := by
  rcases h with (inRequest | inInput) | inAux
  · exact ⟨_, by simp, ranges.requestRange ▸ inRequest⟩
  · exact ⟨_, by simp, ranges.input ▸ inInput⟩
  · exact ⟨_, by simp, ranges.aux ▸ inAux⟩

/-- What a call reads is not in its record. -/
lemma Admitted.not_mem_record (ranges : Admitted m request result c)
    (h : a ∈ readAddresses request c.request) : a ∉ area result resultSize := by
  obtain ⟨range, mem, here⟩ := ranges.mem_read h
  exact fun record => Set.disjoint_left.mp (ranges.apart range mem) record here

/-- What a call reads is not in the staged output. -/
lemma Prepared.not_mem_stage (ready : Prepared c s stage) (ranges : Admitted m request result c)
    (h : a ∈ readAddresses request c.request) : a ∉ area stage (s.outputWords * 4) := by
  obtain ⟨range, mem, here⟩ := ranges.mem_read h
  intro inStage
  refine Set.disjoint_left.mp (ready.apart (c.scratchRange, range) ?_)
    (ranges.scratch ▸ ready.staged inStage) here
  simp only [List.mem_cons, List.not_mem_nil, or_false] at mem
  rcases mem with rfl | rfl | rfl <;> simp [Call.forbidden]

/-- The output words lie in the declared output. -/
lemma Prepared.mem_output (ready : Prepared c s stage) (ranges : Admitted m request result c)
    (h : a ∈ area c.request.output (s.outputWords * 4)) : a ∈ addresses c.outputRange := by
  obtain ⟨lower, upper⟩ := h
  have capacity := ready.capacity
  rw [ranges.output, ranges.declared_eq]
  exact ⟨ready.output, lower, by omega⟩

/-- What a call reads is not in its output. -/
lemma Prepared.not_mem_output (ready : Prepared c s stage) (ranges : Admitted m request result c)
    (h : a ∈ readAddresses request c.request) :
    a ∉ area c.request.output (s.outputWords * 4) := by
  obtain ⟨range, mem, here⟩ := ranges.mem_read h
  intro inOutput
  refine Set.disjoint_left.mp (ready.apart (c.outputRange, range) ?_)
    (ready.mem_output ranges inOutput) here
  simp only [List.mem_cons, List.not_mem_nil, or_false] at mem
  rcases mem with rfl | rfl | rfl <;> simp [Call.forbidden]

end Apart

/-- A call that stops changes the record and the scratch memory only, and its record carries the
status and no output words, or is as it was. A call that succeeds also changes the words of the
output that the record counts. What the kernel reads stays. -/
theorem runPrimitive_frame (kernel : Kernel) (m : Nat → UInt8) (request result : Nat) :
    let r := readRequest m request
    let status := (runPrimitive kernel m request result).1
    let m' := (runPrimitive kernel m request result).2
    let outputWords := (u32At m' (result + 4)).toNat
    (status ≠ PrimitiveStatus.ok.code →
        (∀ a ∉ area result resultSize ∪ declared r.scratch r.scratchBytes, m' a = m a) ∧
          ((∀ a ∈ area result resultSize, m' a = m a) ∨
            u32At m' result = status ∧ outputWords = 0)) ∧
      (status = PrimitiveStatus.ok.code →
        outputWords ≤ r.outputCapacityWords ∧
          ∀ a ∉ area result resultSize ∪ declared r.scratch r.scratchBytes ∪
            area r.output (outputWords * 4), m' a = m a) ∧
      ∀ a ∈ readAddresses request r, m' a = m a := by
  intro r status m' outputWords
  rcases checked : checkRanges m request result with stop | c
  -- the record is not written before its ranges are checked
  · have run : runPrimitive kernel m request result = (stop.code, m) := by
      rw [runPrimitive, checked]
    have same : m' = m := congrArg Prod.snd run
    refine ⟨fun _ => ⟨fun a _ => congrFun same a, .inl fun a _ => congrFun same a⟩,
      fun ok => ?_, fun a _ => congrFun same a⟩
    have ok : stop = .ok := PrimitiveStatus.code_eq_ok ((congrArg Prod.fst run).symm.trans ok)
    exact absurd (ok ▸ checked) (refuses_checkRanges m request result)
  have ranges := admitted_of_checkRanges checked
  have eq : r = c.request := ranges.request_eq.symm
  rw [eq]
  rcases runPrimitive_checked checked (rfl : _ = (status, m')) with
    ⟨failed, frame⟩ | ⟨s, stage, ready, ⟨failed, frame⟩ | ⟨ok, count, frame⟩⟩
  -- a call that is refused only writes its record
  · have zero : outputWords = 0 := congrArg UInt32.toNat failed.2
    refine ⟨fun _ => ⟨fun a out => frame a (not_or.mp out).1, .inr ⟨failed.1, zero⟩⟩,
      fun _ => ⟨by omega, fun a out => frame a (not_or.mp (not_or.mp out).1).1⟩,
      fun a read => frame a (ranges.not_mem_record read)⟩
  · have zero : outputWords = 0 := congrArg UInt32.toNat failed.2
    have outside (a : Nat) (out : a ∉ area result resultSize ∪
        declared c.request.scratch c.request.scratchBytes) : m' a = m a :=
      frame a fun mem => out (mem.imp_right fun inStage => ready.staged inStage)
    refine ⟨fun _ => ⟨outside, .inr ⟨failed.1, zero⟩⟩,
      fun _ => ⟨by omega, fun a out => outside a (not_or.mp out).1⟩, fun a read => ?_⟩
    exact frame a (not_or.mpr ⟨ranges.not_mem_record read, ready.not_mem_stage ranges read⟩)
  · have count : outputWords = s.outputWords := count
    refine ⟨fun stopped => absurd ok stopped, fun _ => ⟨count ▸ ready.capacity, fun a out => ?_⟩,
      fun a read => ?_⟩
    · rw [count] at out
      exact frame a fun mem => out (mem.imp_left fun mem =>
        mem.imp_right fun inStage => ready.staged inStage)
    · exact frame a (not_or.mpr ⟨not_or.mpr ⟨ranges.not_mem_record read,
        ready.not_mem_stage ranges read⟩, ready.not_mem_output ranges read⟩)

end Promptboot.Primitive
