import Mathlib.Data.List.Sort

/-!
# The greatest elements of a list

A scan that keeps the first `n` elements of the stable descending order of what it has seen: each
element goes behind those that are not smaller, and what falls out of the window is dropped.

`take_place` is the step: placing into the window of a list is the window of placing into the list.
`foldl_take` is the scan. `place_descending` says that placing keeps the order, stable among equals,
and the headline `foldl_place` that the scan is `stableDescending`.
-/

namespace TopWindow

variable {α κ : Type} [LinearOrder κ] (key : α → κ)

/-- Puts an element behind all that are not smaller, in front of the first that is. -/
def place (x : α) (l : List α) : List α := l.orderedInsert (fun a b => key b < key a) x

/-- The greater value first, on equal values the earlier index. -/
def precedes : α × Nat → α × Nat → Bool := List.zipIdxLE fun a b => decide (key b ≤ key a)

/-- The elements with their indices, in the stable descending order. -/
def stableDescending (xs : List α) : List (α × Nat) := xs.zipIdx.mergeSort (precedes key)

section Place

variable {key} {x y : α} {l : List α}

/-- An element alone is its own window. -/
lemma place_nil : place key x [] = [x] := rfl

/-- An element goes in front of a smaller one. -/
lemma place_cons_lt (less : key y < key x) : place key x (y :: l) = x :: y :: l :=
  if_pos less

/-- An element goes behind one that is at least as large. -/
lemma place_cons_ge (atLeast : key x ≤ key y) : place key x (y :: l) = y :: place key x l :=
  if_neg (not_lt.mpr atLeast)

/-- Placing adds one element. -/
lemma length_place : (place key x l).length = l.length + 1 :=
  List.orderedInsert_length _ _ _

/-- Placing adds the element and keeps the others. -/
lemma mem_place {z : α} : z ∈ place key x l ↔ z = x ∨ z ∈ l :=
  List.mem_orderedInsert _

/-- The window does not see what is behind it. -/
lemma take_place (n : Nat) : (place key x l).take n = (place key x (l.take n)).take n := by
  induction l generalizing n with
  | nil => rw [List.take_nil]
  | cons y l ih =>
    cases n with
    | zero => rfl
    | succ n =>
      rw [List.take_succ_cons]
      rcases lt_or_ge (key y) (key x) with less | atLeast
      · rw [place_cons_lt less, place_cons_lt less, List.take_succ_cons, List.take_succ_cons]
        cases n with
        | zero => rfl
        | succ n =>
          rw [List.take_succ_cons, List.take_succ_cons, List.take_take, min_eq_left n.le_succ]
      · rw [place_cons_ge atLeast, place_cons_ge atLeast, List.take_succ_cons, List.take_succ_cons,
          ih]

variable (key) in
/-- Scanning with a window of `n` keeps the first `n` of the scan without. -/
lemma foldl_take (n : Nat) (xs start : List α) :
    xs.foldl (fun l x => (place key x l).take n) (start.take n) =
      (xs.foldl (fun l x => place key x l) start).take n := by
  induction xs generalizing start with
  | nil => rfl
  | cons x xs ih =>
    rw [List.foldl_cons, List.foldl_cons, ← take_place, ih]

/-- In a descending list the last element decides on which side of it another goes. -/
lemma place_concat_lt (less : key y < key x) : place key x (l ++ [y]) = place key x l ++ [y] := by
  induction l with
  | nil => exact place_cons_lt less
  | cons z l ih =>
    rw [List.cons_append]
    rcases lt_or_ge (key z) (key x) with below | atLeast
    · rw [place_cons_lt below, place_cons_lt below]
      rfl
    · rw [place_cons_ge atLeast, place_cons_ge atLeast, ih]
      rfl

/-- An element goes behind all that are at least as large. -/
lemma place_eq_concat (atLeast : ∀ z ∈ l, key x ≤ key z) : place key x l = l ++ [x] := by
  induction l with
  | nil => rfl
  | cons z l ih =>
    obtain ⟨first, rest⟩ := List.forall_mem_cons.mp atLeast
    rw [place_cons_ge first, ih rest]
    rfl

/-- Placing commutes with a map that keeps the keys. -/
lemma map_place {β : Type} {f : β → κ} {g : α → β} (same : ∀ a, f (g a) = key a) :
    (place key x l).map g = place f (g x) (l.map g) := by
  refine List.map_orderedInsert _ _ g l x (fun a _ => ?_) fun a _ => ?_
  · rw [same, same]
  · rw [same, same]

variable (key) in
/-- Placing one after another commutes with a map that keeps the keys. -/
lemma map_foldl_place {β : Type} (f : β → κ) (g : α → β) (same : ∀ a, f (g a) = key a)
    (xs start : List α) :
    (xs.foldl (fun l x => place key x l) start).map g =
      (xs.map g).foldl (fun l x => place f x l) (start.map g) := by
  induction xs generalizing start with
  | nil => rfl
  | cons x xs ih =>
    rw [List.foldl_cons, ih, map_place same]
    rfl

/-- The scan leaves the first of the greatest elements in front. -/
lemma head_foldl_place (xs : List α) (y : α) (l : List α) :
    (xs.foldl (fun l x => place key x l) (y :: l)).head? =
      some (xs.foldl (fun best x => if key best < key x then x else best) y) := by
  induction xs generalizing y l with
  | nil => rfl
  | cons x xs ih =>
    rw [List.foldl_cons, List.foldl_cons]
    rcases lt_or_ge (key y) (key x) with less | atLeast
    · rw [place_cons_lt less, ih, if_pos less]
    · rw [place_cons_ge atLeast, ih, if_neg (not_lt.mpr atLeast)]

variable (key) in
/-- Where the element goes. -/
lemma place_split (x : α) (l : List α) :
    ∃ front back, l = front ++ back ∧ place key x l = front ++ x :: back ∧
      (∀ y ∈ front, key x ≤ key y) ∧ ∀ y ∈ back.head?, key y < key x := by
  induction l with
  | nil => exact ⟨[], [], rfl, rfl, nofun, nofun⟩
  | cons y l ih =>
    rcases lt_or_ge (key y) (key x) with less | atLeast
    · refine ⟨[], y :: l, rfl, place_cons_lt less, nofun, fun z mem => ?_⟩
      rw [← Option.some.inj mem]
      exact less
    · obtain ⟨front, back, rfl, placed, before, behind⟩ := ih
      refine ⟨y :: front, back, rfl, ?_, List.forall_mem_cons.mpr ⟨atLeast, before⟩, behind⟩
      rw [place_cons_ge atLeast, placed]
      rfl

/-- A descending list stays one. -/
lemma place_descending (sorted : l.Pairwise fun a b => key b ≤ key a) :
    (place key x l).Pairwise fun a b => key b ≤ key a := by
  induction l with
  | nil => exact List.pairwise_singleton _ _
  | cons y l ih =>
    obtain ⟨first, rest⟩ := List.pairwise_cons.mp sorted
    rcases lt_or_ge (key y) (key x) with less | atLeast
    · rw [place_cons_lt less]
      refine List.pairwise_cons.mpr ⟨fun z mem => ?_, sorted⟩
      rcases List.mem_cons.mp mem with rfl | later
      · exact less.le
      · exact (first z later).trans less.le
    · rw [place_cons_ge atLeast]
      refine List.pairwise_cons.mpr ⟨fun z mem => ?_, ih rest⟩
      rcases mem_place.mp mem with rfl | later
      · exact atLeast
      · exact first z later

end Place

section Order

variable {key} {p q r : α × Nat}

/-- An element precedes another by its key, then by its age. -/
lemma precedes_iff :
    precedes key p q = true ↔ key q.1 < key p.1 ∨ (key q.1 = key p.1 ∧ p.2 ≤ q.2) := by
  rw [precedes, List.zipIdxLE]
  rcases lt_trichotomy (key q.1) (key p.1) with less | same | greater
  · rw [if_pos (decide_eq_true less.le), if_neg (by simpa using less)]
    exact iff_of_true rfl (.inl less)
  · rw [if_pos (decide_eq_true same.le), if_pos (decide_eq_true same.ge), decide_eq_true_iff]
    exact ⟨fun older => .inr ⟨same, older⟩, fun h => (h.resolve_left same.not_lt).2⟩
  · rw [if_neg (by simpa using greater)]
    exact iff_of_false Bool.false_ne_true
      (not_or.mpr ⟨greater.not_gt, fun h => greater.ne' h.1⟩)

/-- Placing the newest element keeps the order. -/
lemma place_precedes {l : List (α × Nat)} (sorted : l.Pairwise fun p q => precedes key p q = true)
    (older : ∀ p ∈ l, p.2 < q.2) :
    (place (fun p => key p.1) q l).Pairwise fun p q => precedes key p q = true := by
  induction l with
  | nil => exact List.pairwise_singleton _ _
  | cons p l ih =>
    obtain ⟨first, rest⟩ := List.pairwise_cons.mp sorted
    obtain ⟨p_older, older⟩ := List.forall_mem_cons.mp older
    rcases lt_or_ge (key p.1) (key q.1) with less | atLeast
    · rw [@place_cons_lt _ _ _ (fun p => key p.1) q p l less]
      refine List.pairwise_cons.mpr ⟨fun r mem => precedes_iff.mpr (.inl ?_), sorted⟩
      rcases List.mem_cons.mp mem with rfl | later
      · exact less
      · rcases precedes_iff.mp (first r later) with below | ⟨same, -⟩
        · exact below.trans less
        · exact same.trans_lt less
    · rw [@place_cons_ge _ _ _ (fun p => key p.1) q p l atLeast]
      refine List.pairwise_cons.mpr ⟨fun r mem => ?_, ih rest older⟩
      rcases mem_place.mp mem with rfl | later
      · rcases atLeast.lt_or_eq with less | same
        · exact precedes_iff.mpr (.inl less)
        · exact precedes_iff.mpr (.inr ⟨same, p_older.le⟩)
      · exact first r later

/-- The scan of the elements with their indices sorts them. -/
lemma foldl_place (xs : List α) :
    xs.zipIdx.foldl (fun l p => place (fun p => key p.1) p l) [] = stableDescending key xs := by
  -- on the list: what has been placed is ordered, and is what was there before
  have scan (xs : List α) (n : Nat) (start : List (α × Nat))
      (sorted : start.Pairwise fun p q => precedes key p q = true) (older : ∀ p ∈ start, p.2 < n) :
      ((xs.zipIdx n).foldl (fun l p => place (fun p => key p.1) p l) start).Pairwise
          (fun p q => precedes key p q = true) ∧
        ((xs.zipIdx n).foldl (fun l p => place (fun p => key p.1) p l) start).Perm
          (start ++ xs.zipIdx n) := by
    induction xs generalizing n start with
    | nil => exact ⟨sorted, (List.append_nil start).symm ▸ List.Perm.refl _⟩
    | cons x xs ih =>
      rw [List.zipIdx_cons, List.foldl_cons]
      have next := ih (n + 1) (place (fun p => key p.1) (x, n) start)
        (place_precedes sorted older) fun p mem => ?_
      · refine ⟨next.1, next.2.trans ?_⟩
        refine ((List.perm_orderedInsert _ _ start).append_right _).trans ?_
        exact List.perm_middle.symm
      · rcases mem_place.mp mem with rfl | before
        · exact Nat.lt_succ_self n
        · exact Nat.lt_succ_of_lt (older p before)
  obtain ⟨sorted, perm⟩ := scan xs 0 [] List.Pairwise.nil nofun
  rw [List.nil_append] at perm
  have total (a b : α) : (decide (key b ≤ key a) || decide (key a ≤ key b)) = true := by
    rw [Bool.or_eq_true, decide_eq_true_iff, decide_eq_true_iff]
    exact le_total _ _
  have trans (a b c : α) (ab : decide (key b ≤ key a) = true) (bc : decide (key c ≤ key b) = true) :
      decide (key c ≤ key a) = true :=
    decide_eq_true ((of_decide_eq_true bc).trans (of_decide_eq_true ab))
  refine List.Perm.eq_of_pairwise ?_ sorted
    (List.pairwise_mergeSort (List.zipIdxLE_trans trans) (List.zipIdxLE_total total) _)
    (perm.trans (List.mergeSort_perm _ _).symm)
  -- two lists in order with the same elements are equal if ties are decided
  intro p q memP memQ pq qp
  have indices : p.2 = q.2 := by
    rcases precedes_iff.mp pq with less | ⟨same, le⟩
    · rcases precedes_iff.mp qp with less' | ⟨same', -⟩
      · exact absurd less less'.not_gt
      · exact absurd less same'.not_gt
    · rcases precedes_iff.mp qp with less' | ⟨-, le'⟩
      · exact absurd less' same.not_gt
      · exact le_antisymm le le'
  have there := List.mem_zipIdx_iff_getElem?.mp (perm.mem_iff.mp memP)
  have there' := List.mem_zipIdx_iff_getElem?.mp ((List.mergeSort_perm _ _).mem_iff.mp memQ)
  rw [indices] at there
  exact Prod.ext (Option.some.inj (there.symm.trans there')) indices

end Order

end TopWindow
