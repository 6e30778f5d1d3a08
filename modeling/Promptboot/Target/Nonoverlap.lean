import Mathlib.Tactic.FinCases
import Promptboot.Target.Session

/-!
# The overlap check and the allocations

`ensure_nonoverlap` takes the pages of a region from the static table, and the allocations take them
from `region_spec`. The two differ in the prompt region of the REPL, which is checked as one page.

The helper `ensureNonoverlap_eq_ok_iff` reads the two loops of the check as a statement about every
pair, and `inRegion_repl_iff` splits the prompt region at its first page. The headline
`ensureNonoverlap_exact_iff` says when passing the check means that the allocations keep apart.
-/

namespace Promptboot

/-- The region's pages, counted by `pages`, hold the address. -/
def InRegion (addresses : Fin 6 → Nat) (pages : Fin 6 → Nat) (index : Fin 6) (address : Nat) : Prop :=
  addresses index ≤ address ∧ address < addresses index + pages index * 4096

/-- The regions end below the end of the address space and have no address in common. -/
structure RegionsApart (addresses : Fin 6 → Nat) (pages : Fin 6 → Nat) : Prop where
  below : ∀ index, addresses index + pages index * 4096 < 2 ^ 64
  apart : ∀ left right, left ≠ right → ∀ address,
    InRegion addresses pages left address → ¬InRegion addresses pages right address

/-- The pages that the check counts. -/
def checkedPages (index : Fin 6) : Nat := (regions index).pages

/-- The pages that are asked of the firmware. -/
def allocatedPages (mode : TargetMode) (index : Fin 6) : Nat := (regionSpec index mode).pages

/-- The address lies in the prompt region of the REPL, behind its first page. -/
def InPromptTail (addresses : Fin 6 → Nat) (address : Nat) : Prop :=
  addresses 5 + 4096 ≤ address ∧ address < addresses 5 + allocatedPages .repl 5 * 4096

/-- What the check leaves out: the rest of the prompt region is below the end of the address space
and in no other region. -/
structure PromptTailApart (addresses : Fin 6 → Nat) : Prop where
  below : addresses 5 + allocatedPages .repl 5 * 4096 < 2 ^ 64
  apart : ∀ index, index ≠ 5 → ∀ address,
    InRegion addresses checkedPages index address → ¬InPromptTail addresses address

namespace TargetSession
variable {addresses : Fin 6 → Nat} {s : TargetSession}

/-- Every region has a page. -/
lemma checkedPages_pos (index : Fin 6) : 0 < checkedPages index := by
  fin_cases index <;> decide

/-- Two regions that hold something are apart exactly if one ends before the other. -/
lemma apart_iff {pages : Fin 6 → Nat} {left right : Fin 6} (left_pos : 0 < pages left)
    (right_pos : 0 < pages right) :
    (∀ address, InRegion addresses pages left address → ¬InRegion addresses pages right address) ↔
      ¬(addresses left < addresses right + pages right * 4096 ∧
        addresses right < addresses left + pages left * 4096) := by
  unfold InRegion
  constructor
  · intro apart meet
    -- the later of the two starts lies in both
    exact apart (max (addresses left) (addresses right)) (by omega) (by omega)
  · intro apart address inside
    omega

/-- The check of two regions passes when they fit and are disjoint. -/
lemma nonoverlap_eq_ok_iff {left right : Fin 6} :
    nonoverlap addresses left right = .ok () ↔
      addresses left + checkedPages left * 4096 < 2 ^ 64 ∧
        addresses right + checkedPages right * 4096 < 2 ^ 64 ∧
        ∀ address, InRegion addresses checkedPages left address →
          ¬InRegion addresses checkedPages right address := by
  rw [apart_iff (checkedPages_pos left) (checkedPages_pos right)]
  unfold nonoverlap checkedPages
  simp only
  split_ifs with outside meet
  · simp only [false_iff]
    omega
  · simp only [false_iff]
    exact fun h => h.2.2 meet
  · simp only [true_iff]
    exact ⟨by omega, by omega, meet⟩

/-- A loop of checks that read the state and leave it alone. -/
lemma forM_eq_ok_iff {ι : Type} {c : ι → Target Unit} {P : ι → Prop} {l : List ι}
    (each : ∀ i ∈ l, (c i s).2 = s ∧ ((c i s).1 = .ok () ↔ P i)) :
    (l.forM c s).2 = s ∧ ((l.forM c s).1 = .ok () ↔ ∀ i ∈ l, P i) := by
  induction l with
  | nil => exact ⟨rfl, by simp [Fallible.forM_nil]⟩
  | cons i l ih =>
    obtain ⟨kept, first⟩ := each i List.mem_cons_self
    obtain ⟨rest_kept, rest⟩ := ih fun j mem => each j (List.mem_cons_of_mem _ mem)
    rw [Fallible.forM_cons]
    cases run : c i s with
    | mk result t =>
    rw [run] at kept first
    simp only at kept first
    subst kept
    cases result with
    | error failure =>
      rw [Fallible.bind_error run]
      refine ⟨rfl, ?_⟩
      simp only [reduceCtorEq, false_iff] at first ⊢
      exact fun all => first (all i List.mem_cons_self)
    | ok u =>
      rw [Fallible.bind_ok run]
      refine ⟨rest_kept, rest.trans ?_⟩
      have here := first.1 rfl
      simp only [List.mem_cons, forall_eq_or_imp, here, true_and]

/-- The check passes exactly if the regions of the static table are apart. -/
lemma ensureNonoverlap_eq_ok_iff :
    (ensureNonoverlap s).1 = .ok () ↔ RegionsApart s.addresses checkedPages := by
  let turn (left right : Fin 6) : Target Unit := .lift fun s => nonoverlap s.addresses left right
  have pair : ∀ left right, (turn left right s).2 = s ∧
      ((turn left right s).1 = .ok () ↔ nonoverlap s.addresses left right = .ok ()) :=
    fun _ _ => ⟨rfl, Iff.rfl⟩
  have row := fun left => forM_eq_ok_iff (s := s)
    (l := (List.finRange 6).filter fun right => left < right) fun right _ => pair left right
  have all := (forM_eq_ok_iff (s := s) (l := List.finRange 6) fun left _ => row left).2
  refine all.trans ?_
  simp only [List.mem_finRange, List.mem_filter, decide_eq_true_eq, true_and, true_implies,
    nonoverlap_eq_ok_iff]
  constructor
  · intro checked
    refine ⟨fun index => ?_, fun left right ne => ?_⟩
    · by_cases zero : index = 0
      · subst zero
        exact (checked 0 1 (by decide)).1
      · exact (checked 0 index (Fin.pos_of_ne_zero zero)).2.1
    · rcases lt_or_gt_of_ne ne with before | behind
      · exact (checked left right before).2.2
      · exact fun address inside other => (checked right left behind).2.2 address other inside
  · intro apart left right before
    exact ⟨apart.below left, apart.below right, apart.apart left right before.ne⟩

/-- Outside the REPL the check counts the pages that were asked for. -/
lemma allocatedPages_eq {mode : TargetMode} (other : mode ≠ .repl) :
    allocatedPages mode = checkedPages := by
  funext index
  rw [allocatedPages, regionSpec, if_neg fun h => other h.2, checkedPages]

/-- The REPL allocates the other regions as the table says. -/
lemma allocatedPages_repl {index : Fin 6} (other : index ≠ 5) :
    allocatedPages .repl index = checkedPages index := by
  rw [allocatedPages, regionSpec, if_neg fun h => other h.1, checkedPages]

/-- A region of the REPL holds what its checked pages hold, and the prompt region its tail too. -/
lemma inRegion_repl_iff {index : Fin 6} {address : Nat} :
    InRegion addresses (allocatedPages .repl) index address ↔
      InRegion addresses checkedPages index address ∨
        (index = 5 ∧ InPromptTail addresses address) := by
  by_cases prompt : index = 5
  · subst prompt
    have whole : allocatedPages .repl 5 = 81 := by decide
    have first : checkedPages 5 = 1 := by decide
    unfold InRegion InPromptTail
    rw [whole, first]
    omega
  · unfold InRegion
    rw [allocatedPages_repl prompt]
    simp [prompt]

/-- The regions of the REPL are apart if the checked ones are and the prompt region's tail is. -/
lemma apart_repl_iff :
    RegionsApart addresses (allocatedPages .repl) ↔
      RegionsApart addresses checkedPages ∧ PromptTailApart addresses := by
  have larger : ∀ index, checkedPages index ≤ allocatedPages .repl index := by decide
  constructor
  · intro apart
    refine ⟨⟨fun index => ?_, fun left right ne address inside other => ?_⟩, apart.below 5,
      fun index ne address inside tail => ?_⟩
    · have size := Nat.mul_le_mul_right 4096 (larger index)
      exact Nat.lt_of_le_of_lt (Nat.add_le_add_left size _) (apart.below index)
    · exact apart.apart left right ne address (inRegion_repl_iff.2 (.inl inside))
        (inRegion_repl_iff.2 (.inl other))
    · exact apart.apart index 5 ne address (inRegion_repl_iff.2 (.inl inside))
        (inRegion_repl_iff.2 (.inr ⟨rfl, tail⟩))
  · rintro ⟨apart, tail⟩
    refine ⟨fun index => ?_, fun left right ne address inside other => ?_⟩
    · by_cases prompt : index = 5
      · subst prompt
        exact tail.below
      · rw [allocatedPages_repl prompt]
        exact apart.below index
    · rcases inRegion_repl_iff.1 inside with first | ⟨rfl, first⟩ <;>
        rcases inRegion_repl_iff.1 other with second | ⟨rfl, second⟩
      · exact apart.apart left right ne address first second
      · exact tail.apart left ne address first second
      · exact tail.apart right ne.symm address second first
      · exact ne rfl

/-- The check passes exactly if the allocated regions are apart: outside the REPL always, and in the
REPL where it rejects the regions as it counts them, or nothing meets the rest of the prompt
region. -/
theorem ensureNonoverlap_exact_iff (mode : TargetMode) (s : TargetSession) :
    ((ensureNonoverlap s).1 = .ok () ↔ RegionsApart s.addresses (allocatedPages mode)) ↔
      mode ≠ .repl ∨ ¬RegionsApart s.addresses checkedPages ∨ PromptTailApart s.addresses := by
  rw [ensureNonoverlap_eq_ok_iff]
  by_cases repl : mode = .repl
  · subst repl
    rw [apart_repl_iff]
    tauto
  · rw [allocatedPages_eq repl]
    simp [repl]

/-- Six regions of the REPL, the index behind the first page of the prompt region. -/
def meetingPrompt : Fin 6 → Nat
  | 0 => 0x40000000
  | 1 => 0x1000000 + 4096
  | 2 => 0x80000000
  | 3 => 0x100000000
  | 4 => 0x200000000
  | 5 => 0x1000000

/-- The check passes regions of the REPL that meet. -/
theorem ensureNonoverlap_passes_meeting :
    (ensureNonoverlap { new with addresses := meetingPrompt }).1 = .ok () ∧
      ¬RegionsApart meetingPrompt (allocatedPages .repl) := by
  have below : ∀ index, meetingPrompt index + checkedPages index * 4096 < 2 ^ 64 := by decide
  have apart : ∀ left right, left ≠ right →
      ¬(meetingPrompt left < meetingPrompt right + checkedPages right * 4096 ∧
        meetingPrompt right < meetingPrompt left + checkedPages left * 4096) := by
    decide
  refine ⟨ensureNonoverlap_eq_ok_iff.2 ⟨below, fun left right ne => ?_⟩, fun apart => ?_⟩
  · exact (apart_iff (checkedPages_pos left) (checkedPages_pos right)).2 (apart left right ne)
  · refine apart.apart 1 5 (by decide) (0x1000000 + 4096) ?_ ?_
    · exact ⟨by decide, by decide⟩
    · exact ⟨by decide, by decide⟩

end TargetSession

end Promptboot
