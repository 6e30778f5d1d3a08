import Promptboot.Model.Open

/-!
# The directories of an opened container

No check of the header, of the section directory or of the tensor directory panics, whatever the
bytes are. Where they pass, the sections are the frozen ones and the tensors fill the last of them.

`NoPanic` has a rule for each construct, and every check two lemmas: that it does not panic
(`noPanic_checkSection`, `noPanic_checkTensor`) and what holds where it passes
(`checkSection_facts`, `checkTensor_facts`). The loops follow by induction, and the headline
`openDirectories_facts` builds `Directories`.
-/

namespace Promptboot.Opening
open Buffer

section Rules
variable {α β : Type}

/-- A succession succeeds when both its parts do. -/
lemma bind_eq_ok {c : Opening α} {f : α → Opening β} {b : β} (h : c >>= f = .ok b) :
    ∃ a, c = .ok a ∧ f a = .ok b := by
  cases c with
  | error e => cases h
  | ok a => exact ⟨a, rfl, h⟩

/-- Behind a success the second part runs. -/
lemma bind_ok {c : Opening α} {f : α → Opening β} {a : α} (h : c = .ok a) : c >>= f = f a := by
  rw [h]
  rfl

/-- A computation that does not panic. -/
def NoPanic (c : Opening α) : Prop := c ≠ fault

/-- A value alone does not panic. -/
lemma NoPanic.pure {a : α} : NoPanic (pure a : Opening α) := by
  intro h
  cases h

/-- A success is no panic. -/
lemma NoPanic.of_ok {c : Opening α} {a : α} (h : c = .ok a) : NoPanic c := by
  rw [h]
  exact NoPanic.pure

/-- A rejection is no panic. -/
lemma NoPanic.reject {error : ModelError} : NoPanic (reject error : Opening α) := by
  intro h
  cases h

/-- The second part has to be safe behind a success only. -/
lemma NoPanic.bind {c : Opening α} {f : α → Opening β} (first : NoPanic c)
    (next : ∀ a, c = .ok a → NoPanic (f a)) : NoPanic (c >>= f) := by
  cases c with
  | error e =>
    intro h
    cases h
    exact first rfl
  | ok a => exact next a rfl

/-- A check does not panic. -/
lemma NoPanic.check {holds : Bool} {error : ModelError} : NoPanic (check holds error) := by
  cases holds with
  | false => exact NoPanic.reject
  | true => exact NoPanic.pure

/-- A check that succeeds holds. -/
lemma check_eq_ok {holds : Bool} {error : ModelError} {u : Unit} (h : check holds error = .ok u) :
    holds = true := by
  cases holds with
  | false => cases h
  | true => rfl

/-- Behind a check its condition holds. -/
lemma check_bind_eq_ok {holds : Bool} {error : ModelError} {f : Unit → Opening β} {b : β}
    (h : check holds error >>= f = .ok b) : holds = true ∧ f () = .ok b := by
  obtain ⟨_, checked, rest⟩ := bind_eq_ok h
  exact ⟨check_eq_ok checked, rest⟩

/-- What is behind a check may rely on it. -/
lemma NoPanic.check_bind {holds : Bool} {error : ModelError} {f : Unit → Opening β}
    (next : holds = true → NoPanic (f ())) : NoPanic (Promptboot.Opening.check holds error >>= f) :=
  NoPanic.bind NoPanic.check fun _ checked => next (check_eq_ok checked)

/-- A loop does not panic if no turn does. -/
lemma NoPanic.forM {f : α → Opening Unit} {l : List α} (each : ∀ a ∈ l, NoPanic (f a)) :
    NoPanic (l.forM f) := by
  induction l with
  | nil => exact NoPanic.pure
  | cons a l ih =>
    exact NoPanic.bind (each a List.mem_cons_self) fun _ _ =>
      ih fun b mem => each b (List.mem_cons_of_mem _ mem)

/-- All turns of a successful loop succeed. -/
lemma forM_eq_ok {f : α → Opening Unit} {l : List α} {u : Unit} (h : l.forM f = .ok u) :
    ∀ a ∈ l, f a = .ok () := by
  induction l with
  | nil => exact fun _ mem => nomatch mem
  | cons b l ih =>
    obtain ⟨_, head, tail⟩ := bind_eq_ok h
    intro a mem
    rcases List.mem_cons.1 mem with rfl | later
    · exact head
    · exact ih tail a later

section Reads
variable {bytes : Buffer}

/-- A byte within the container is read. -/
lemma byteIn_ok {offset : Nat} (inside : offset < bytes.length) :
    byteIn bytes offset = .ok (bytes.byte offset) :=
  if_pos inside

/-- A half word within the container is read. -/
lemma u16In_ok {offset : Nat} (inside : offset + 2 ≤ bytes.length) :
    u16In bytes offset = .ok (u16At bytes.byte offset) :=
  if_pos inside

/-- A word within the container is read. -/
lemma u32In_ok {offset : Nat} (inside : offset + 4 ≤ bytes.length) :
    u32In bytes offset = .ok (Memory.u32At bytes.byte offset) :=
  if_pos inside

/-- A double word within the container is read. -/
lemma u64In_ok {offset : Nat} (inside : offset + 8 ≤ bytes.length) :
    u64In bytes offset = .ok (u64At bytes.byte offset) :=
  if_pos inside

/-- A range within the container is cut out. -/
lemma sliceIn_ok {start stop : Nat} (order : start ≤ stop) (inside : stop ≤ bytes.length) :
    sliceIn bytes start stop = .ok (bytes.slice start (stop - start)) :=
  if_pos ⟨order, inside⟩

/-- A difference in order does not overflow. -/
lemma minus_ok {a b : Nat} (order : b ≤ a) : minus a b = .ok (a - b) := if_pos order

/-- A sum that fits does not overflow. -/
lemma plus_ok {a b : Nat} (fits : a + b < 2 ^ 64) : plus a b = .ok (a + b) := if_pos fits

/-- A product that fits does not overflow. -/
lemma times_ok {a b : Nat} (fits : a * b < 2 ^ 64) : times a b = .ok (a * b) := if_pos fits

/-- Comparing bytes within the container does not panic. -/
lemma noPanic_compareFrom {error : Nat → UInt8 → UInt8 → ModelError} {offset : Nat}
    {expected : List UInt8} (inside : offset + expected.length ≤ bytes.length) :
    NoPanic (compareFrom bytes error offset expected) := by
  induction expected generalizing offset with
  | nil => exact NoPanic.pure
  | cons byte expected ih =>
    rw [List.length_cons] at inside
    refine NoPanic.bind (.of_ok (byteIn_ok (by omega))) fun _ _ => ?_
    exact NoPanic.check_bind fun _ => ih (by omega)

end Reads

end Rules

section Header
variable {bytes : Buffer} {address : Nat}

/-- The checks of the header do not panic, whatever the length. -/
lemma noPanic_checkHeader : NoPanic (checkHeader address bytes) := by
  refine NoPanic.check_bind fun whole => ?_
  have length : bytes.length = modelBytes := of_decide_eq_true whole
  unfold modelBytes at length
  refine NoPanic.check_bind fun _ => ?_
  refine NoPanic.bind (noPanic_compareFrom (by rw [length]; decide)) fun _ _ => ?_
  refine NoPanic.bind (NoPanic.forM fun field mem => ?_) fun _ _ => ?_
  · have inside : field.1 + 4 ≤ 80 := by
      revert field
      decide
    exact NoPanic.bind (.of_ok (u32In_ok (by omega))) fun _ _ => NoPanic.check
  refine NoPanic.bind (NoPanic.forM fun field mem => ?_) fun _ _ => ?_
  · have inside : field.1 + 8 ≤ 128 := by
      revert field
      decide
    exact NoPanic.bind (.of_ok (u64In_ok (by omega))) fun _ _ => NoPanic.check
  refine NoPanic.bind (noPanic_compareFrom (by rw [length]; decide)) fun _ _ => ?_
  exact noPanic_compareFrom (by rw [length, List.length_replicate]; decide)

/-- Behind the checks of the header the container has its length. -/
lemma checkHeader_length {u : Unit} (h : checkHeader address bytes = .ok u) :
    bytes.length = modelBytes :=
  of_decide_eq_true (check_bind_eq_ok h).1

/-- The checks of a section do not panic. -/
lemma noPanic_checkSection {ordinal : Fin 7} {previousEnd : Nat}
    (length : bytes.length = modelBytes) : NoPanic (checkSection bytes ordinal previousEnd) := by
  have stop := section_stop ordinal
  have last := ordinal.isLt
  unfold modelBytes at *
  refine NoPanic.bind (.of_ok (u32In_ok (by omega))) fun id _ => ?_
  refine NoPanic.bind (.of_ok (u32In_ok (by omega))) fun element _ => ?_
  refine NoPanic.bind (.of_ok (u64In_ok (by omega))) fun count _ => ?_
  refine NoPanic.bind (.of_ok (u64In_ok (by omega))) fun offset _ => ?_
  refine NoPanic.bind (.of_ok (u64In_ok (by omega))) fun size _ => ?_
  refine NoPanic.check_bind fun _ => NoPanic.check_bind fun _ => NoPanic.check_bind fun _ =>
    NoPanic.check_bind fun _ => NoPanic.check_bind fun _ => NoPanic.check_bind fun after =>
    NoPanic.check_bind fun found => ?_
  have after : previousEnd ≤ offset := of_decide_eq_true after
  have found : offset = (ofSection frozenSections ordinal).offset := of_decide_eq_true found
  refine NoPanic.bind (noPanic_compareFrom ?_) fun _ _ => NoPanic.check_bind fun _ => NoPanic.pure
  rw [List.length_replicate]
  omega

/-- A section that passes is the frozen one. -/
lemma checkSection_facts {ordinal : Fin 7} {previousEnd : Nat} {found : Section}
    (h : checkSection bytes ordinal previousEnd = .ok found) :
    found = ofSection frozenSections ordinal := by
  obtain ⟨_, _, h⟩ := bind_eq_ok h
  obtain ⟨_, _, h⟩ := bind_eq_ok h
  obtain ⟨_, _, h⟩ := bind_eq_ok h
  obtain ⟨offset, _, h⟩ := bind_eq_ok h
  obtain ⟨size, _, h⟩ := bind_eq_ok h
  obtain ⟨_, h⟩ := check_bind_eq_ok h
  obtain ⟨_, h⟩ := check_bind_eq_ok h
  obtain ⟨_, h⟩ := check_bind_eq_ok h
  obtain ⟨size_eq, h⟩ := check_bind_eq_ok h
  obtain ⟨_, h⟩ := check_bind_eq_ok h
  obtain ⟨_, h⟩ := check_bind_eq_ok h
  obtain ⟨offset_eq, h⟩ := check_bind_eq_ok h
  obtain ⟨_, _, h⟩ := bind_eq_ok h
  obtain ⟨_, h⟩ := check_bind_eq_ok h
  cases h
  rw [of_decide_eq_true size_eq, of_decide_eq_true offset_eq]

/-- The checks of the sections do not panic. -/
lemma noPanic_checkSections {ordinals : List (Fin 7)} {sections : Vector Section 7}
    {previousEnd : Nat} (length : bytes.length = modelBytes) :
    NoPanic (checkSections bytes ordinals sections previousEnd) := by
  induction ordinals generalizing sections previousEnd with
  | nil => exact NoPanic.pure
  | cons ordinal rest ih =>
    exact NoPanic.bind (noPanic_checkSection length) fun _ _ => ih

/-- The sections of the ordinals that were looked at are the frozen ones. -/
lemma checkSections_facts {ordinals : List (Fin 7)} {sections found : Vector Section 7}
    {previousEnd last : Nat}
    (h : checkSections bytes ordinals sections previousEnd = .ok (found, last)) :
    ∀ k : Fin 7, k ∈ ordinals ∨ ofSection sections k = ofSection frozenSections k →
      ofSection found k = ofSection frozenSections k := by
  induction ordinals generalizing sections previousEnd with
  | nil =>
    cases h
    rintro k (none | known)
    · cases none
    · exact known
  | cons ordinal rest ih =>
    obtain ⟨one, first, h⟩ := bind_eq_ok h
    obtain rfl := checkSection_facts first
    intro k known
    refine ih h k ?_
    by_cases here : ordinal = k
    · subst here
      exact .inr (Vector.getElem_set_self _)
    · rcases known with mem | known
      · rcases List.mem_cons.1 mem with same | later
        · exact absurd same.symm here
        · exact .inl later
      · refine .inr ?_
        have apart : (ordinal : Nat) ≠ k := fun e => here (Fin.ext e)
        exact (Vector.getElem_set_ne _ _ apart).trans known

end Header

section Tensors
variable {bytes : Buffer}

/-- Where the directory says that a tensor's payload is. -/
def tensorExtent (bytes : Buffer) (id : Nat) : Extent :=
  ((ModelView.tensorMetaAt bytes.byte id).dataOffset,
    (ModelView.tensorMetaAt bytes.byte id).dataLength)

/-- The elements of a frozen tensor are counted without overflow. -/
lemma elementsOfDims_ok (id : Nat) : ∃ n, elementsOfDims (expectedTensor id).dims = .ok n := by
  obtain ⟨le0, le1, le2, le3⟩ := expectedTensor_small id
  have two := Nat.mul_le_mul le0 le1
  have three := Nat.mul_le_mul two le2
  have four := Nat.mul_le_mul three le3
  generalize (expectedTensor id).dims = dims at *
  refine ⟨dims[0] * dims[1] * dims[2] * dims[3], ?_⟩
  rw [elementsOfDims, bind_ok (times_ok (by omega)), bind_ok (times_ok (by omega)),
    times_ok (by omega)]

/-- Reading a directory entry does not panic and gives what the view's accessor reads. -/
lemma tensorMetaIn_ok {id : Nat} (length : bytes.length = modelBytes) (small : id < tensorCount) :
    ∃ n, tensorMetaIn bytes id = .ok (ModelView.tensorMetaAt bytes.byte id, n) := by
  obtain ⟨n, elements⟩ := elementsOfDims_ok id
  refine ⟨n, ?_⟩
  unfold tensorCount at small
  unfold modelBytes at length
  have stop : tensorBase id + 96 ≤ 3980448 := by
    unfold tensorBase
    omega
  rw [tensorMetaIn, bind_ok (u32In_ok (by omega)), bind_ok (u32In_ok (by omega)),
    bind_ok (u32In_ok (by omega)), bind_ok (u32In_ok (by omega)), bind_ok elements,
    bind_ok (u32In_ok (by omega)), bind_ok (u16In_ok (by omega)), bind_ok (u16In_ok (by omega)),
    bind_ok (u32In_ok (by omega)), bind_ok (u32In_ok (by omega)), bind_ok (u64In_ok (by omega)),
    bind_ok (u64In_ok (by omega))]
  rfl

/-- The checks of a tensor do not panic. -/
lemma noPanic_checkTensor {id previousEnd : Nat} (length : bytes.length = modelBytes)
    (small : id < tensorCount) : NoPanic (checkTensor bytes id previousEnd) := by
  obtain ⟨n, read⟩ := tensorMetaIn_ok length small
  have stop : tensorBase id + 96 ≤ bytes.length := by
    unfold tensorBase
    unfold tensorCount at small
    unfold modelBytes at length
    omega
  refine NoPanic.bind (.of_ok read) fun _ _ => ?_
  refine NoPanic.bind (NoPanic.forM fun _ _ => NoPanic.check) fun _ _ => ?_
  refine NoPanic.bind (NoPanic.forM fun _ _ => NoPanic.check) fun _ _ => ?_
  refine NoPanic.check_bind fun _ => NoPanic.check_bind fun _ => NoPanic.check_bind fun _ => ?_
  refine NoPanic.bind (noPanic_compareFrom ?_) fun _ _ => NoPanic.check_bind fun _ => NoPanic.pure
  rw [List.length_replicate]
  omega

/-- A tensor that passes starts where the one before it ends. -/
lemma checkTensor_facts {id previousEnd next : Nat} (length : bytes.length = modelBytes)
    (small : id < tensorCount) (h : checkTensor bytes id previousEnd = .ok next) :
    (tensorExtent bytes id).1 = previousEnd ∧
      next = (tensorExtent bytes id).1 + (tensorExtent bytes id).2 := by
  obtain ⟨n, read⟩ := tensorMetaIn_ok length small
  rw [checkTensor, bind_ok read] at h
  obtain ⟨_, _, h⟩ := bind_eq_ok h
  obtain ⟨_, _, h⟩ := bind_eq_ok h
  obtain ⟨_, h⟩ := check_bind_eq_ok h
  obtain ⟨start, h⟩ := check_bind_eq_ok h
  obtain ⟨_, h⟩ := check_bind_eq_ok h
  obtain ⟨_, _, h⟩ := bind_eq_ok h
  obtain ⟨_, h⟩ := check_bind_eq_ok h
  cases h
  exact ⟨of_decide_eq_true start, rfl⟩

/-- The loop over the tensors does not panic. -/
lemma noPanic_tensorLoop {left id previousEnd : Nat} (length : bytes.length = modelBytes)
    (total : id + left = tensorCount) : NoPanic (tensorLoop bytes left id previousEnd) := by
  induction left generalizing id previousEnd with
  | zero => exact NoPanic.pure
  | succ left ih =>
    exact NoPanic.bind (noPanic_checkTensor length (by omega)) fun _ _ => ih (by omega)

/-- The tensors that pass lie one behind another without a gap. -/
lemma tensorLoop_facts {left id previousEnd last : Nat} (length : bytes.length = modelBytes)
    (total : id + left = tensorCount) (h : tensorLoop bytes left id previousEnd = .ok last) :
    Tiled previousEnd ((List.range' id left).map (tensorExtent bytes)) last := by
  induction left generalizing id previousEnd with
  | zero =>
    cases h
    exact .nil
  | succ left ih =>
    obtain ⟨next, first, h⟩ := bind_eq_ok h
    obtain ⟨rfl, rfl⟩ := checkTensor_facts length (by omega) first
    exact .cons (ih (by omega) h)

end Tensors

section Directories
variable {bytes : Buffer} {address : Nat}

/-- The checks of header, sections and tensors do not panic. -/
lemma noPanic_openDirectories : NoPanic (openDirectories address bytes) := by
  refine NoPanic.bind noPanic_checkHeader fun _ header => ?_
  have length := checkHeader_length header
  refine NoPanic.bind (noPanic_checkSections length) fun _ _ => NoPanic.check_bind fun _ => ?_
  refine NoPanic.bind ?_ fun _ _ => NoPanic.pure
  exact NoPanic.bind (noPanic_tensorLoop length rfl) fun _ _ => NoPanic.check

/-- The tensors' payloads fill the last section, in the order of their ids. -/
structure Directories (bytes : Buffer) : Prop where
  length : bytes.length = modelBytes
  tensors : Tiled 3980480 ((List.range tensorCount).map (tensorExtent bytes)) modelBytes

/-- Behind these checks the sections are the frozen ones and the tensors tile their data. -/
lemma openDirectories_facts {sections : Vector Section 7}
    (h : openDirectories address bytes = .ok sections) :
    sections = frozenSections ∧ Directories bytes := by
  obtain ⟨_, header, h⟩ := bind_eq_ok h
  have length := checkHeader_length header
  obtain ⟨⟨found, last⟩, directory, h⟩ := bind_eq_ok h
  obtain ⟨_, h⟩ := check_bind_eq_ok h
  obtain ⟨_, valid, h⟩ := bind_eq_ok h
  cases h
  obtain ⟨stop, loop, valid⟩ := bind_eq_ok valid
  have stop_eq : stop = modelBytes := of_decide_eq_true (check_eq_ok valid)
  have tiled := tensorLoop_facts length rfl loop
  rw [← List.range_eq_range', stop_eq] at tiled
  refine ⟨?_, length, tiled⟩
  ext k lt : 1
  exact checkSections_facts directory ⟨k, lt⟩ (.inl (List.mem_finRange _))

end Directories

end Promptboot.Opening
