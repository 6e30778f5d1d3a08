import Mathlib.Algebra.Order.BigOperators.Group.List
import Mathlib.Algebra.Order.Ring.Nat
import Mathlib.Tactic.FinCases
import Promptboot.Lib.Bits
import Promptboot.Target.Session

/-!
# What is acquired is released

`execute` grants regions in order and stops anywhere; `cleanup` walks the mask of what is there.
Each region comes back with the address it was granted at, but with the pages of the static table,
which are not the pages that the REPL's prompt region was granted with.

`Granted` is the invariant of `execute`: which regions are held, at which addresses and with how
many pages. `acquire_spec` is one grant, `execute_granted` the whole of it, and `cleanup_calls`
reads the walk over the mask. `balanced_runTarget_iff_perm` compares the two lists of calls. The
headline is `balanced_runTarget_iff`, and `repl_not_balanced` is the run of the REPL.
-/

namespace Promptboot

namespace PageCall

def granted? : PageCall → Option PageRange
  | granted range => some range
  | freed _ => none

def freed? : PageCall → Option PageRange
  | granted _ => none
  | freed range => some range

end PageCall

namespace Firmware

/-- All steps up to the allocations succeed. -/
def Opens (fw : Firmware) : Prop :=
  loadedTransition fw.loadedImage = none ∧ simpleTransition fw.simpleFs = none ∧
    volumeTransition fw.root = none ∧ fileAbiTransition true fw.root = none ∧
    fileOpenTransition fw.file = none ∧ fileAbiTransition false fw.file = none ∧
    fw.started = true

/-- The region is granted at a usable address and recorded, so that the loop goes on. -/
def Accepts (fw : Firmware) (index : Fin 6) : Prop :=
  (fw.grant index).status = efiSuccess ∧ (fw.grant index).address &&& 63 = 0 ∧
    fw.emitted index = true

/-- `execute` comes to ask for the prompt region, and the firmware grants it. -/
def GrantsPrompt (fw : Firmware) : Prop :=
  fw.Opens ∧ (∀ index < 5, fw.Accepts index) ∧ (fw.grant 5).status = efiSuccess

end Firmware

namespace TargetSession

/-- Every granted range is freed once, as it was granted, and nothing else is. -/
def Balanced (calls : List PageCall) : Prop :=
  (calls.filterMap PageCall.freed?).Perm (calls.filterMap PageCall.granted?)

variable {fw : Firmware} {mode : TargetMode} {s : TargetSession}

section Release

/-- The range that `cleanup` frees for a region. -/
def heldRange (addresses : Fin 6 → Nat) (pages : Fin 6 → Nat) (index : Fin 6) : Option PageRange :=
  if addresses index ≠ 0 then some ⟨addresses index, pages index⟩ else none

/-- The ranges behind a set of regions. -/
def heldRanges (addresses : Fin 6 → Nat) (pages : Fin 6 → Nat) : List PageRange :=
  (List.finRange 6).filterMap (heldRange addresses pages)

/-- The next bit is the lowest of the ten that is pending. -/
lemma nextCleanupBit_eq (pending : BitVec 32) :
    nextCleanupBit pending = (List.range 10).find? fun bit => pending.getLsbD bit := by
  have same : ∀ l : List Nat, (∀ bit ∈ l, bit < 10) →
      (l.find? fun bit => pending &&& 1#32 <<< bit != 0) = l.find? fun bit => pending.getLsbD bit := by
    intro l below
    induction l with
    | nil => rfl
    | cons bit l ih =>
      obtain ⟨lt, below⟩ := List.forall_mem_cons.1 below
      have test : (pending &&& 1#32 <<< bit != 0) = pending.getLsbD bit := by
        rw [Bool.eq_iff_iff, bne_iff_ne]
        exact Bits.and_bit_ne_zero_iff (by omega)
      rw [List.find?_cons, List.find?_cons, test, ih below]
  exact same _ fun bit mem => List.mem_range.1 mem

/-- The least set bit comes first among the set ones. -/
lemma filter_find? {p : Nat → Bool} {l : List Nat} {b : Nat} (nodup : l.Nodup)
    (found : l.find? p = some b) :
    l.filter p = b :: l.filter fun k => p k && decide (k ≠ b) := by
  induction l with
  | nil => cases found
  | cons a l ih =>
    obtain ⟨fresh, nodup⟩ := List.nodup_cons.1 nodup
    by_cases pa : p a = true
    · rw [List.find?_cons_of_pos pa, Option.some.injEq] at found
      subst found
      rw [List.filter_cons_of_pos pa, List.filter_cons_of_neg (by simp)]
      congr 1
      apply List.filter_congr
      intro k mem
      have other : k ≠ a := fun same => fresh (same ▸ mem)
      simp [other]
    · rw [List.find?_cons_of_neg pa] at found
      rw [List.filter_cons_of_neg pa, List.filter_cons_of_neg (by simp [pa]), ih nodup found]

/-- What the release behind a bit frees. -/
def freedBy (addresses : Fin 6 → Nat) (bit : Nat) : List PageCall :=
  if bit < 4 then
    []
  else
    [.freed ⟨addresses (regionOfBit bit), (regions (regionOfBit bit)).pages⟩]

/-- A release frees the pages of its region, if they are held. -/
lemma release_calls (bit : Nat) :
    (release fw bit s).2.calls = s.calls ++ freedBy s.addresses bit := by
  rw [release, freedBy]
  split_ifs <;> first | omega | simp

/-- A release forgets the address of its own region only. -/
lemma release_addresses {bit other : Nat} (lt : bit < 10) (high : 4 ≤ other) (lt' : other < 10)
    (ne : other ≠ bit) :
    (release fw bit s).2.addresses (regionOfBit other) = s.addresses (regionOfBit other) := by
  rw [release]
  split_ifs
  any_goals rfl
  apply Function.update_of_ne
  intro same
  have val := congrArg Fin.val same
  simp only [regionOfBit, Fin.val_ofNat] at val
  omega

/-- The loop frees the region of every pending bit once, at the address it holds. -/
lemma releaseAll_calls (fw : Firmware) (pending : BitVec 32) (o : Outcome) (s : TargetSession) :
    (releaseAll fw pending o s).2.calls =
      s.calls ++ ((List.range 10).filter fun bit => pending.getLsbD bit).flatMap
        (freedBy s.addresses) := by
  induction pending, o, s using releaseAll.induct fw with
  | case1 pending o s none =>
    rw [releaseAll, none]
    have empty : (List.range 10).filter (fun bit => pending.getLsbD bit) = [] := by
      rw [List.filter_eq_nil_iff]
      intro bit mem set
      have lt := List.mem_range.1 mem
      have unset := List.find?_eq_none.1 none bit mem
      apply unset
      simpa using (Bits.and_bit_ne_zero_iff (by omega)).2 set
    simp [empty]
  | case2 pending o s bit found released ih =>
    have mem : bit < 10 := List.mem_range.1 (List.mem_of_find?_eq_some found)
    have found' : (List.range 10).find? (fun k => pending.getLsbD k) = some bit := by
      rw [← found, nextCleanupBit_eq]
    have rest : ((List.range 10).filter fun k =>
        (pending &&& ~~~(1#32 <<< bit)).getLsbD k) =
          (List.range 10).filter fun k => pending.getLsbD k && decide (k ≠ bit) := by
      apply List.filter_congr
      intro k mem
      exact Bits.getLsbD_clear (by have := List.mem_range.1 mem; omega)
    rw [releaseAll, found]
    simp only
    rw [ih, release_calls, filter_find? List.nodup_range found', rest, List.flatMap_cons,
      List.append_assoc]
    congr 2
    apply List.flatMap_congr
    intro k mem'
    rw [List.mem_filter, List.mem_range, Bool.and_eq_true, decide_eq_true_iff] at mem'
    obtain ⟨lt, _, other⟩ := mem'
    rw [freedBy, freedBy]
    split
    case isTrue low => rfl
    case isFalse high => rw [release_addresses mem (by omega) lt other]

/-- Setting a bit under a condition leaves the others. -/
lemma getLsbD_setWhen {mask : BitVec 32} {held : Prop} [Decidable held] {bit k : Nat}
    (lt : k < 32) :
    (if held then mask ||| 1#32 <<< bit else mask).getLsbD k =
      (mask.getLsbD k || (decide held && decide (k = bit))) := by
  split
  case isTrue yes => simp [Bits.getLsbD_set lt, yes]
  case isFalse no => simp [no]

/-- The mask has the bits of the regions that are held. -/
lemma getLsbD_regions {addresses : Fin 6 → Nat} {k : Nat} (lt : k < 32) :
    ∀ (l : List (Fin 6)) (mask : BitVec 32),
      (l.foldl (fun mask index =>
        if addresses index ≠ 0 then mask ||| 1#32 <<< (9 - index.val) else mask) mask).getLsbD k =
        (mask.getLsbD k || l.any fun index =>
          decide (addresses index ≠ 0) && decide (k = 9 - index.val)) := by
  intro l
  induction l with
  | nil => simp
  | cons index l ih =>
    intro mask
    rw [List.foldl_cons, ih, getLsbD_setWhen lt, List.any_cons, Bool.or_assoc]

/-- A bit of 4 to 9 is set exactly for a region that is held. -/
lemma acquiredMask_region (s : TargetSession) (index : Fin 6) :
    s.acquiredMask.getLsbD (9 - index.val) = decide (s.addresses index ≠ 0) := by
  have lt := index.isLt
  have low : ∀ k < 4, decide (9 - index.val = k) = false := by
    intro k small
    exact decide_eq_false (by omega)
  rw [acquiredMask, getLsbD_regions (by omega)]
  simp only [getLsbD_setWhen (show 9 - index.val < 32 by omega), low 0 (by decide),
    low 1 (by decide), low 2 (by decide), low 3 (by decide), Bool.and_false, Bool.or_false,
    BitVec.getLsbD_zero, Bool.false_or]
  rw [Bool.eq_iff_iff, List.any_eq_true]
  simp only [Bool.and_eq_true, decide_eq_true_iff]
  constructor
  · rintro ⟨other, _, held, same⟩
    obtain rfl : other = index := Fin.ext (by have := other.isLt; omega)
    exact held
  · exact fun held => ⟨index, List.mem_finRange index, held, rfl⟩

/-- The set bits among 4 to 9 list the regions held, the last region first. -/
lemma freedBy_mask (s : TargetSession) :
    ((List.range 10).filter fun bit => s.acquiredMask.getLsbD bit).flatMap (freedBy s.addresses) =
      ((List.finRange 6).reverse.filterMap
        (heldRange s.addresses fun index => (regions index).pages)).map .freed := by
  have bits : List.range 10 = [0, 1, 2, 3] ++ (List.finRange 6).reverse.map fun index => 9 - index.val :=
    rfl
  rw [bits, List.filter_append, List.flatMap_append]
  have none : (([0, 1, 2, 3].filter fun bit => s.acquiredMask.getLsbD bit).flatMap
      (freedBy s.addresses)) = [] := by
    rw [List.flatMap_eq_nil_iff]
    intro bit mem
    have small := (List.mem_filter.1 mem).1
    rw [freedBy, if_pos]
    fin_cases small <;> decide
  rw [none, List.nil_append]
  generalize (List.finRange 6).reverse = l
  induction l with
  | nil => rfl
  | cons index l ih =>
    have lt := index.isLt
    have back : regionOfBit (9 - index.val) = index := by
      apply Fin.ext
      simp only [regionOfBit, Fin.val_ofNat]
      omega
    rw [List.map_cons, List.filter_cons, acquiredMask_region, List.filterMap_cons, heldRange]
    by_cases held : s.addresses index ≠ 0
    · rw [if_pos (decide_eq_true held), if_pos held, List.flatMap_cons, ih, List.map_cons, freedBy,
        if_neg (by omega), back]
      rfl
    · rw [if_neg (by simpa using held), if_neg held, ih]

/-- `cleanup` frees every region that is held, at its address and with the pages of the table. -/
lemma cleanup_calls (fw : Firmware) (s : TargetSession) :
    ∃ freed : List PageRange, (cleanup fw s).2.calls = s.calls ++ freed.map .freed ∧
      freed.Perm (heldRanges s.addresses fun index => (regions index).pages) := by
  refine ⟨(List.finRange 6).reverse.filterMap
    (heldRange s.addresses fun index => (regions index).pages), ?_, ?_⟩
  · rw [cleanup, ← freedBy_mask]
    exact releaseAll_calls fw _ _ s
  · exact (List.reverse_perm _).filterMap _

end Release

section Acquire

/-- The pages that a mode asks for. -/
def askedPages (mode : TargetMode) (index : Fin 6) : Nat := (regionSpec index mode).pages

/-- The session holds just what it was granted, besides `extra`. -/
structure Granted (mode : TargetMode) (extra : List PageRange) (s : TargetSession) : Prop where
  freed : s.calls.filterMap PageCall.freed? = []
  granted : (s.calls.filterMap PageCall.granted?).Perm
    (heldRanges s.addresses (askedPages mode) ++ extra)

/-- Neither regions nor page calls differ from `t`. -/
def SamePages (t s : TargetSession) : Prop :=
  s.addresses = t.addresses ∧ s.calls = t.calls

/-- What is granted depends on the addresses and calls only. -/
lemma Granted.same {extra : List PageRange} {t : TargetSession} (held : Granted mode extra t)
    (same : SamePages t s) : Granted mode extra s := by
  obtain ⟨addresses, calls⟩ := same
  refine ⟨?_, ?_⟩
  · rw [calls]
    exact held.freed
  · rw [calls, addresses]
    exact held.granted

abbrev KeepsPages (t : TargetSession) (c : Target Unit) : Prop :=
  Fallible.Keeps (SamePages t) (fun _ => True) c

/-- A change that leaves addresses and calls keeps the pages. -/
lemma keeps_modify {t : TargetSession} {f : TargetSession → TargetSession}
    (addresses : ∀ s, (f s).addresses = s.addresses) (calls : ∀ s, (f s).calls = s.calls) :
    KeepsPages t (.modify f) :=
  .modify fun s same => ⟨(addresses s).trans same.1, (calls s).trans same.2⟩

/-- A check keeps the pages. -/
lemma keeps_lift {t : TargetSession} {f : TargetSession → Except TargetFailure Unit} :
    KeepsPages t (.lift f) :=
  .lift fun _ _ _ _ => trivial

/-- A check of the session keeps the pages. -/
lemma keeps_check {t : TargetSession} {found : Option TargetFailure} :
    KeepsPages t (check found) := by
  intro s same
  cases found with
  | none => exact ⟨same, fun _ _ => trivial⟩
  | some failure => exact ⟨same, fun _ _ => trivial⟩

/-- A record keeps the pages. -/
lemma keeps_emit {t : TargetSession} {emitted : Bool} : KeepsPages t (emit emitted) := by
  intro s same
  cases emitted with
  | false => exact ⟨same, fun _ _ => trivial⟩
  | true => exact ⟨same, fun _ _ => trivial⟩

/-- Opening the model keeps the pages. -/
lemma keeps_openModel {t : TargetSession} : KeepsPages t (openModel fw) := by
  refine .bind (keeps_modify (fun _ => rfl) fun _ => rfl) fun _ => .bind keeps_check fun _ => ?_
  refine .bind (keeps_modify (fun _ => rfl) fun _ => rfl) fun _ => .bind keeps_check fun _ => ?_
  refine .bind (keeps_modify (fun _ => rfl) fun _ => rfl) fun _ => .bind keeps_check fun _ => ?_
  refine .bind (keeps_modify (fun _ => rfl) fun _ => rfl) fun _ => .bind keeps_check fun _ => ?_
  refine .bind (keeps_modify (fun _ => rfl) fun _ => rfl) fun _ => .bind keeps_check fun _ => ?_
  exact .bind (keeps_modify (fun _ => rfl) fun _ => rfl) fun _ => .bind keeps_check fun _ => keeps_emit

/-- The check of the regions keeps the pages. -/
lemma keeps_ensureNonoverlap {t : TargetSession} : KeepsPages t ensureNonoverlap :=
  .forM fun _ _ => .forM fun _ _ => keeps_lift

/-- Closing the storage keeps the pages. -/
lemma keeps_closeStorage {t : TargetSession} : KeepsPages t (closeStorage fw) := by
  refine .bind keeps_lift fun _ => .bind keeps_lift fun _ => ?_
  refine .bind (keeps_modify (fun _ => rfl) fun _ => rfl) fun _ => ?_
  refine .bind keeps_lift fun _ => .bind keeps_lift fun _ => ?_
  refine .bind (keeps_modify (fun _ => rfl) fun _ => rfl) fun _ => .bind keeps_lift fun _ => ?_
  refine .bind (keeps_modify (fun _ => rfl) fun _ => rfl) fun _ => .bind keeps_lift fun _ => ?_
  exact keeps_modify (fun _ => rfl) fun _ => rfl

/-- Granting a region that was not held adds its range to those held. -/
lemma heldRanges_update {addresses : Fin 6 → Nat} {pages : Fin 6 → Nat} {index : Fin 6}
    {address : Nat} (absent : addresses index = 0) (some : address ≠ 0) :
    (heldRanges (Function.update addresses index address) pages).Perm
      (⟨address, pages index⟩ :: heldRanges addresses pages) := by
  have nodup : (List.finRange 6).Nodup := List.nodup_finRange 6
  have mem := List.mem_finRange index
  rw [heldRanges, heldRanges]
  generalize List.finRange 6 = l at nodup mem
  induction l with
  | nil => cases mem
  | cons other l ih =>
    obtain ⟨fresh, nodup⟩ := List.nodup_cons.1 nodup
    rw [List.filterMap_cons, List.filterMap_cons]
    by_cases here : other = index
    · subst here
      have rest : l.filterMap (heldRange (Function.update addresses other address) pages) =
          l.filterMap (heldRange addresses pages) := by
        apply List.filterMap_congr
        intro k memk
        have ne : k ≠ other := fun same => fresh (same ▸ memk)
        rw [heldRange, heldRange, Function.update_of_ne ne]
      rw [heldRange, Function.update_self, if_pos some, heldRange, absent, if_neg (by simp), rest]
    · have later := ih nodup ((List.mem_cons.1 mem).resolve_left (Ne.symm here))
      rw [heldRange, Function.update_of_ne here, ← heldRange]
      cases heldRange addresses pages other with
      | none => exact later
      | some range => exact (later.cons range).trans (List.Perm.swap _ _ _)

/-- One turn of the loop: what it leaves, and when it goes on. -/
lemma acquire_spec (fw : Firmware) (mode : TargetMode) (index : Fin 6) (s : TargetSession) :
    (acquire fw mode index s).2 =
        allocatePages (fw.grant index) index (askedPages mode index) s ∧
      ((acquire fw mode index s).1 = .ok () ↔ fw.Accepts index) := by
  have start : acquire fw mode index s = _ :=
    Fallible.bind_ok (Fallible.modify_apply
      (allocatePages (fw.grant index) index (regionSpec index mode).pages) s)
  rw [start, Firmware.Accepts]
  by_cases success : (fw.grant index).status = efiSuccess
  · have usable := fw.grant_ne_zero index success
    have held : (allocatePages (fw.grant index) index (regionSpec index mode).pages s).addresses
        index = (fw.grant index).address := by
      rw [allocatePages, if_pos success]
      exact Function.update_self _ _ _
    rw [if_neg (not_not.2 success), Fallible.bind_ok (c := check none) rfl]
    by_cases aligned : (fw.grant index).address &&& 63 = 0
    · rw [Fallible.bind_ok (by rw [Fallible.lift_apply, held, if_neg (by simp [usable, aligned])])]
      cases emitted : fw.emitted index <;> simp [emit, success, aligned, askedPages]
    · rw [Fallible.bind_error (by rw [Fallible.lift_apply, held, if_pos (.inr aligned)])]
      simp [aligned, askedPages]
  · rw [if_pos success, Fallible.bind_error (c := check (some _)) rfl]
    simp [success, askedPages]

/-- An allocation of a region not yet held is granted. -/
lemma allocatePages_granted {extra : List PageRange} {index : Fin 6} (fw : Firmware)
    (held : Granted mode extra s) (absent : s.addresses index = 0) :
    Granted mode extra (allocatePages (fw.grant index) index (askedPages mode index) s) := by
  rw [allocatePages]
  split
  case isTrue success =>
    refine ⟨?_, ?_⟩
    · simp [held.freed, PageCall.freed?]
    · simp only [List.filterMap_append]
      have more := @heldRanges_update s.addresses (askedPages mode) index (fw.grant index).address
        absent (fw.grant_ne_zero index success)
      refine (List.perm_append_comm.trans ?_).trans (more.symm.append_right extra)
      exact held.granted.cons _
  case isFalse refused => exact held

/-- An allocation leaves the other regions. -/
lemma allocatePages_addresses {grant : Grant} {index other : Fin 6} {pages : Nat}
    (ne : other ≠ index) : (allocatePages grant index pages s).addresses other = s.addresses other := by
  rw [allocatePages]
  split
  · exact Function.update_of_ne ne _ _
  · rfl

/-- The loop keeps what it was granted, and stops at the first grant it does not accept. -/
lemma acquireAll {extra : List PageRange} (fw : Firmware) (mode : TargetMode) :
    ∀ (l : List (Fin 6)), l.Nodup → ∀ s, Granted mode extra s → (∀ i ∈ l, s.addresses i = 0) →
      Granted mode extra (l.forM (acquire fw mode) s).2 ∧
        ((l.forM (acquire fw mode) s).1 = .ok () ↔ ∀ i ∈ l, fw.Accepts i) ∧
        ∀ i ∉ l, (l.forM (acquire fw mode) s).2.addresses i = s.addresses i := by
  intro l
  induction l with
  | nil =>
    intro _ s held _
    simp [held]
  | cons index l ih =>
    intro nodup s held absent
    obtain ⟨fresh, nodup⟩ := List.nodup_cons.1 nodup
    obtain ⟨here, absent⟩ := List.forall_mem_cons.1 absent
    obtain ⟨left, goes⟩ := acquire_spec fw mode index s
    have next := allocatePages_granted fw held here
    rw [Fallible.forM_cons]
    rcases turn : acquire fw mode index s with ⟨_ | _, t⟩
    · rw [turn] at left goes
      simp only [reduceCtorEq, false_iff] at goes
      rw [Fallible.bind_error turn, left]
      refine ⟨next, by simp [goes], fun i out => ?_⟩
      exact allocatePages_addresses (List.ne_of_not_mem_cons out)
    · rw [turn] at left goes
      have accepted := goes.1 rfl
      rw [← left] at next
      have others : ∀ i ≠ index, t.addresses i = s.addresses i := by
        intro i ne
        rw [show t = _ from left]
        exact allocatePages_addresses ne
      have absent' : ∀ i ∈ l, t.addresses i = 0 := by
        intro i mem
        rw [others i fun same => fresh (same ▸ mem)]
        exact absent i mem
      obtain ⟨granted, all, rest⟩ := ih nodup t next absent'
      rw [Fallible.bind_ok turn]
      refine ⟨granted, ?_, fun i out => ?_⟩
      · rw [all, List.forall_mem_cons, and_iff_right accepted]
      · rw [rest i (List.not_mem_of_not_mem_cons out), others i (List.ne_of_not_mem_cons out)]

/-- The last region is held if and only if the loop comes to it and it is granted. -/
lemma acquireAll_last (fw : Firmware) (mode : TargetMode) (last : Fin 6) :
    ∀ (l : List (Fin 6)), last ∉ l → ∀ s, s.addresses last = 0 →
      (((l ++ [last]).forM (acquire fw mode) s).2.addresses last ≠ 0 ↔
        (∀ i ∈ l, fw.Accepts i) ∧ (fw.grant last).status = efiSuccess) := by
  intro l
  induction l with
  | nil =>
    intro _ s absent
    obtain ⟨left, _⟩ := acquire_spec fw mode last s
    have only : (([] ++ [last]).forM (acquire fw mode) s).2 = (acquire fw mode last s).2 := by
      rw [List.nil_append, Fallible.forM_cons, Fallible.bind_apply]
      rcases acquire fw mode last s with ⟨_ | _, t⟩ <;> rfl
    rw [only, left, allocatePages]
    split
    case isTrue success => simp [success, fw.grant_ne_zero last success]
    case isFalse refused => simp [refused, absent]
  | cons index l ih =>
    intro fresh s absent
    obtain ⟨left, goes⟩ := acquire_spec fw mode index s
    have still : (acquire fw mode index s).2.addresses last = 0 := by
      rw [left, allocatePages_addresses (List.ne_of_not_mem_cons fresh), absent]
    rw [List.cons_append, Fallible.forM_cons]
    rcases turn : acquire fw mode index s with ⟨_ | _, t⟩
    · rw [turn] at still goes
      simp only [reduceCtorEq, false_iff] at goes
      have zero : t.addresses last = 0 := still
      rw [Fallible.bind_error turn]
      simp [zero, goes]
    · rw [turn] at still goes
      rw [Fallible.bind_ok turn, ih (List.not_mem_of_not_mem_cons fresh) t still,
        List.forall_mem_cons, and_assoc]
      simp [goes.1 rfl]

/-- The model is opened if the firmware opens it. -/
lemma openModel_ok_iff (fw : Firmware) (s : TargetSession) :
    (openModel fw s).1 = .ok () ↔ fw.Opens := by
  rw [Firmware.Opens]
  simp only [openModel, Fallible.bind_apply, Fallible.modify_apply]
  cases loadedTransition fw.loadedImage <;> simp [check]
  cases simpleTransition fw.simpleFs <;> simp
  cases volumeTransition fw.root <;> simp
  cases fileAbiTransition true fw.root <;> simp
  cases fileOpenTransition fw.file <;> simp
  cases fileAbiTransition false fw.file <;> simp
  cases fw.started <;> simp [emit]

/-- At first nothing is granted. -/
lemma granted_new : Granted mode [] new := by
  refine ⟨rfl, ?_⟩
  have none : heldRanges new.addresses (askedPages mode) = [] := by
    rw [heldRanges, List.filterMap_eq_nil_iff]
    intro index _
    rw [heldRange, if_neg (by simp [new])]
  rw [none]
  exact .nil

/-- What follows the allocations: the regions stay, and only the REPL may be granted more. -/
def Extends (mode : TargetMode) (t s : TargetSession) : Prop :=
  s.addresses = t.addresses ∧
    ∃ extra : List PageRange, (mode ≠ .repl → extra = []) ∧ s.calls = t.calls ++ extra.map .granted

/-- What keeps the pages grants nothing further. -/
lemma KeepsPages.extends {c : Target Unit} (keeps : ∀ s, KeepsPages s c) (t : TargetSession) :
    Fallible.Keeps (Extends mode t) (fun _ => True) c := by
  rintro s ⟨addresses, extra, only, calls⟩
  obtain ⟨same, calls'⟩ := (keeps s s ⟨rfl, rfl⟩).1
  exact ⟨⟨same.trans addresses, extra, only, calls'.trans calls⟩, fun _ _ => trivial⟩

/-- The adapter of the REPL may ask for its own prompt. -/
lemma extends_prepareAdapter {t : TargetSession} (repl : mode = .repl) :
    Fallible.Keeps (Extends mode t) (fun _ => True)
      (.modify (prepareAdapter fw.adapter) : Target Unit) := by
  apply Fallible.Keeps.modify
  rintro s ⟨addresses, extra, _, calls⟩
  cases fw.adapter with
  | none => exact ⟨addresses, extra, absurd repl, calls⟩
  | some range =>
    refine ⟨addresses, extra ++ [range], absurd repl, ?_⟩
    rw [prepareAdapter, calls, List.map_append, ← List.append_assoc]
    rfl

/-- Whatever the mode computes, no region is taken away. -/
lemma extends_compute (fw : Firmware) (mode : TargetMode) (t : TargetSession) :
    Extends mode t (compute fw mode t).2 := by
  have keeps : Fallible.Keeps (Extends mode t) (fun _ => True) (compute fw mode) := by
    refine .bind (KeepsPages.extends (fun _ => keeps_ensureNonoverlap) t) fun _ => ?_
    refine .bind (KeepsPages.extends (fun _ => keeps_lift) t) fun _ => ?_
    split
    case isTrue repl =>
      refine .bind (KeepsPages.extends (fun _ => keeps_closeStorage) t) fun _ => ?_
      exact .bind (extends_prepareAdapter repl) fun _ => KeepsPages.extends (fun _ => keeps_lift) t
    case isFalse other => exact KeepsPages.extends (fun _ => keeps_lift) t
  exact (keeps t ⟨rfl, [], fun _ => rfl, (List.append_nil _).symm⟩).1

/-- What was granted before stays granted. -/
lemma Granted.extends {t : TargetSession} (held : Granted mode [] t) (later : Extends mode t s) :
    ∃ extra, (mode ≠ .repl → extra = []) ∧ Granted mode extra s := by
  obtain ⟨addresses, extra, only, calls⟩ := later
  refine ⟨extra, only, ?_, ?_⟩
  · have none : (extra.map PageCall.granted).filterMap PageCall.freed? = [] := by
      simp [List.filterMap_map, PageCall.freed?, Function.comp_def]
    rw [calls, List.filterMap_append, held.freed, none, List.append_nil]
  · have all : (extra.map PageCall.granted).filterMap PageCall.granted? = extra := by
      simp [List.filterMap_map, PageCall.granted?, Function.comp_def]
    have before := held.granted
    rw [List.append_nil] at before
    rw [calls, addresses, List.filterMap_append, all]
    exact before.append_right extra

/-- What `execute` leaves to `cleanup`, wherever it stops. -/
lemma execute_granted (fw : Firmware) (mode : TargetMode) :
    ∃ extra, (extra ≠ [] → mode = .repl ∧ fw.GrantsPrompt) ∧
      Granted mode extra (execute fw mode new).2 ∧
      ((execute fw mode new).2.addresses 5 ≠ 0 ↔ fw.GrantsPrompt) := by
  have opened : SamePages new (openModel fw new).2 := (keeps_openModel new ⟨rfl, rfl⟩).1
  have opens := openModel_ok_iff fw new
  rw [execute, Firmware.GrantsPrompt]
  rcases run : openModel fw new with ⟨_ | _, t⟩
  · rw [run] at opened opens
    simp only [reduceCtorEq, false_iff] at opens
    have zero : t.addresses 5 = 0 := congrFun opened.1 5
    rw [Fallible.bind_error run]
    exact ⟨[], by simp, granted_new.same opened, by simp [zero, opens]⟩
  · rw [run] at opened opens
    have absent : ∀ i, t.addresses i = 0 := fun i => congrFun opened.1 i
    rw [Fallible.bind_ok run]
    have split : (List.finRange 6 : List (Fin 6)) = [0, 1, 2, 3, 4] ++ [5] := rfl
    obtain ⟨granted, all, _⟩ := acquireAll fw mode (List.finRange 6) (List.nodup_finRange 6) t
      (granted_new.same opened) fun i _ => absent i
    have last := acquireAll_last fw mode 5 [0, 1, 2, 3, 4] (by decide) t (absent 5)
    rw [← split] at last
    have below : (∀ i ∈ ([0, 1, 2, 3, 4] : List (Fin 6)), fw.Accepts i) ↔ ∀ i < 5, fw.Accepts i := by
      refine forall_congr' fun i => imp_congr_left ?_
      revert i
      decide
    rw [below] at last
    have prompt : fw.Opens ↔ True := iff_true_intro (opens.1 rfl)
    rcases loop : (List.finRange 6).forM (acquire fw mode) t with ⟨_ | _, u⟩
    · rw [loop] at granted last
      rw [Fallible.bind_error loop]
      exact ⟨[], by simp, granted, by rw [last, prompt, true_and]⟩
    · rw [loop] at granted last all
      have later := extends_compute fw mode u
      obtain ⟨extra, only, more⟩ := granted.extends later
      rw [Fallible.bind_ok loop]
      have all := all.1 rfl
      refine ⟨extra, fun some => ⟨not_not.1 fun other => some (only other), opens.1 rfl, ?_⟩, more, ?_⟩
      · exact ⟨fun i _ => all i (List.mem_finRange i), (all 5 (List.mem_finRange 5)).1⟩
      · rw [later.1, prompt, true_and]
        exact last

end Acquire

section Balance

/-- Every region but the REPL's prompt is asked for as the table says. -/
lemma pages_asked {index : Fin 6} (same : ¬(index = 5 ∧ mode = .repl)) :
    askedPages mode index = (regions index).pages := by
  rw [askedPages, regionSpec, if_neg same]

/-- Held ranges of two tables agree where the tables do, or where nothing is held. -/
lemma heldRanges_congr {addresses pages pages' : Fin 6 → Nat}
    (same : ∀ index, addresses index ≠ 0 → pages index = pages' index) :
    heldRanges addresses pages = heldRanges addresses pages' := by
  apply List.filterMap_congr
  intro index _
  rw [heldRange, heldRange]
  split
  case isTrue held => rw [same index held]
  case isFalse none => rfl

/-- The number of pages of a list of ranges. -/
def totalPages (ranges : List PageRange) : Nat := (ranges.map PageRange.pages).sum

/-- The pages held, region by region. -/
lemma totalPages_heldRanges (addresses pages : Fin 6 → Nat) :
    totalPages (heldRanges addresses pages) =
      ((List.finRange 6).map fun index => if addresses index ≠ 0 then pages index else 0).sum := by
  rw [heldRanges, totalPages]
  generalize List.finRange 6 = l
  induction l with
  | nil => rfl
  | cons index l ih =>
    rw [List.filterMap_cons, List.map_cons, List.sum_cons, ← ih, heldRange]
    by_cases held : addresses index ≠ 0
    · rw [if_pos held, if_pos held]
      rfl
    · rw [if_neg held, if_neg held, Nat.zero_add]

/-- A prompt region that is held was asked for with more pages than the table has. -/
lemma totalPages_lt {addresses : Fin 6 → Nat} (held : addresses 5 ≠ 0) :
    totalPages (heldRanges addresses fun index => (regions index).pages) <
      totalPages (heldRanges addresses (askedPages .repl)) := by
  rw [totalPages_heldRanges, totalPages_heldRanges]
  apply List.sum_lt_sum
  · intro index _
    split
    case isTrue _ =>
      by_cases prompt : index = 5
      · subst prompt
        decide
      · rw [pages_asked (by simp [prompt])]
    case isFalse _ => exact le_rfl
  · refine ⟨5, List.mem_finRange 5, ?_⟩
    rw [if_pos held, if_pos held]
    decide

/-- The page calls of a whole run, by what `execute` leaves. -/
lemma balanced_runTarget_iff_perm {extra : List PageRange}
    (held : Granted mode extra (execute fw mode new).2) :
    Balanced (runTarget fw mode) ↔
      (heldRanges (execute fw mode new).2.addresses fun index => (regions index).pages).Perm
        (heldRanges (execute fw mode new).2.addresses (askedPages mode) ++ extra) := by
  obtain ⟨freed, calls, perm⟩ := cleanup_calls fw (execute fw mode new).2
  have freed_eq : (freed.map PageCall.freed).filterMap PageCall.freed? = freed := by
    simp [List.filterMap_map, PageCall.freed?, Function.comp_def]
  have none : (freed.map PageCall.freed).filterMap PageCall.granted? = [] := by
    simp [List.filterMap_map, PageCall.granted?, Function.comp_def]
  rw [Balanced, runTarget, calls, List.filterMap_append, List.filterMap_append, held.freed, freed_eq,
    none, List.nil_append, List.append_nil]
  exact (perm.congr_left _).trans (held.granted.congr_right _)

/-- A REPL whose prompt is granted does not free what it was granted. -/
lemma not_balanced_repl (fw : Firmware) (prompt : fw.GrantsPrompt) :
    ¬Balanced (runTarget fw .repl) := by
  obtain ⟨extra, _, held, holds⟩ := execute_granted fw .repl
  rw [balanced_runTarget_iff_perm held]
  intro perm
  have same := (perm.map PageRange.pages).sum_nat
  have less := totalPages_lt (holds.2 prompt)
  rw [List.map_append, List.sum_append] at same
  rw [totalPages, totalPages] at less
  omega

/-- Every region is released as it was acquired, unless the REPL has its prompt region. -/
theorem balanced_runTarget_iff (fw : Firmware) (mode : TargetMode) :
    Balanced (runTarget fw mode) ↔ ¬(mode = .repl ∧ fw.GrantsPrompt) := by
  constructor
  · rintro balanced ⟨rfl, prompt⟩
    exact not_balanced_repl fw prompt balanced
  · intro other
    obtain ⟨extra, more, held, holds⟩ := execute_granted fw mode
    obtain rfl : extra = [] := by
      by_contra some
      exact other (more some)
    rw [balanced_runTarget_iff_perm held, List.append_nil]
    apply List.Perm.of_eq
    apply heldRanges_congr
    intro index some
    refine (pages_asked ?_).symm
    rintro ⟨rfl, repl⟩
    exact other ⟨repl, holds.1 some⟩

/-- Firmware on which nothing fails. -/
def smoothFirmware : Firmware where
  loadedImage := ⟨0, true, 0x1000, true⟩
  simpleFs := ⟨0, true, 0x10000, true⟩
  root := ⟨0, true, 0x10000, true, true, true⟩
  file := ⟨0, true, 0x10000, true, true, true⟩
  started := true
  grant index := ⟨0, 0x40000000 * (index.val + 1)⟩
  grant_ne_zero index _ := Nat.mul_ne_zero (by decide) (Nat.succ_ne_zero index.val)
  emitted _ := true
  load := .ok ()
  closeFile := 0
  closeRoot := 0
  closeSimple := 0
  closeLoaded := 0
  adapter := none
  session := .ok ()
  ending := .ok ()
  cleanup _ := 0

/-- The REPL's prompt region has 81 pages, of which one is freed. -/
theorem repl_not_balanced : ¬Balanced (runTarget smoothFirmware .repl) := by
  apply not_balanced_repl
  refine ⟨⟨rfl, rfl, rfl, rfl, rfl, rfl, rfl⟩, ?_, rfl⟩
  intro index _
  refine ⟨rfl, ?_, rfl⟩
  revert index
  decide

end Balance

end TargetSession

end Promptboot
