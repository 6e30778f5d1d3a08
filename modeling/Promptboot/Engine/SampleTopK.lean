import Promptboot.Engine.TopLogits

/-!
# Sampling from the top candidates

The slots of `inference_sample_top_k_top_p` hold a window of the stable descending order, and behind
it empty ones. Whatever the arithmetic comes to, the choice is one of the candidates that the cut
keeps.

`insertion_eq` and `shiftUp_map` identify the source's insertion with the library's placing,
`Collected.step` is one logit and `collect_collected` the scan. `cut_bounds` and `walk_mem` are the
two places where arithmetic decides, and neither needs to know how. The headline is
`sampleTopKTopP_candidate`.
-/

namespace Promptboot

open TopWindow

/-- The slot of a logit and its index. -/
def slotOf (p : Word × Nat) : Token × Word := (p.2.toUInt32, p.1)

/-- The slots of a window, the empty ones behind it. -/
def slots (window : List (Word × Nat)) (free : Nat) : List (Token × Word) :=
  window.map slotOf ++ List.replicate free (noToken, 0xff800000)

/-- The candidates are those of a window of logits that are numbers with a token of their own. -/
structure Collected (c : Candidates) (window : List (Word × Nat)) (free : Nat) : Prop where
  length : window.length + free = topK
  ids : c.ids = (slots window free).map Prod.fst
  values : c.values = (slots window free).map Prod.snd
  numbers : ∀ p ∈ window, finite p.1 = true ∧ p.2 < 2 ^ 32 - 1

section Collect

/-- An insertion moves the rest up and drops the last. -/
lemma shiftUp_set {α : Type} (fill x : α) (front rest : List α) (last : α) (tail : List α) :
    (shiftUp fill front.length rest.length (front ++ (rest ++ last :: tail))).set front.length x =
      front ++ x :: (rest ++ tail) := by
  induction rest using List.reverseRecOn generalizing last tail with
  | nil =>
    show (front ++ last :: tail).set front.length x = front ++ x :: tail
    rw [List.set_append_right _ _ (Nat.le_refl _), Nat.sub_self, List.set_cons_zero]
  | append_singleton rest y ih =>
    have read : (front ++ (rest ++ [y] ++ last :: tail)).getD (front.length + rest.length) fill =
        y := by
      rw [List.getD_eq_getElem?_getD, List.getElem?_append_right (Nat.le_add_right _ _),
        Nat.add_sub_cancel_left, List.append_assoc, List.getElem?_append_right (Nat.le_refl _),
        Nat.sub_self]
      rfl
    have written : (front ++ (rest ++ [y] ++ last :: tail)).set (front.length + 1 + rest.length) y =
        front ++ (rest ++ y :: (y :: tail)) := by
      have at_last : front.length + 1 + rest.length - front.length = (rest ++ [y]).length := by
        rw [List.length_append, List.length_singleton]
        omega
      rw [List.set_append_right _ _ (by omega), at_last, List.set_append_right _ _ (Nat.le_refl _),
        Nat.sub_self, List.set_cons_zero, List.append_assoc]
      rfl
    rw [List.length_append, List.length_singleton, shiftUp, read, written, ih, List.append_assoc]
    rfl

/-- No index is the mark of an empty slot. -/
lemma noToken_ne {index : Nat} (small : index < 2 ^ 32 - 1) : index.toUInt32 ≠ noToken := by
  intro same
  have values := congrArg UInt32.toNat same
  rw [Nat.toUInt32, UInt32.toNat_ofNat', Nat.mod_eq_of_lt (by omega)] at values
  change index = 2 ^ 32 - 1 at values
  omega

variable {c : Candidates} {window : List (Word × Nat)} {free : Nat}

/-- A slot is passed by or taken, by what it holds. -/
lemma insertion_eq (value : Word) (finite_value : finite value = true)
    (front : List (Word × Nat)) (rest : List (Token × Word))
    (ids : c.ids = (front.map slotOf ++ rest).map Prod.fst)
    (values : c.values = (front.map slotOf ++ rest).map Prod.snd)
    (numbers : ∀ p ∈ front, finite p.1 = true ∧ p.2 < 2 ^ 32 - 1)
    (before : ∀ p ∈ front, floatKey value ≤ floatKey p.1)
    (length : front.length + rest.length = topK)
    (behind : ∀ slot ∈ rest.head?, slot.1 = noToken ∨ greater value slot.2 = true) :
    c.insertion value = front.length := by
  -- the slots in front are taken by candidates that the value does not beat
  have passed : ∀ slot < front.length,
      (c.ids.getD slot 0 == noToken || greater value (c.values.getD slot 0)) = false := by
    intro slot inside
    obtain ⟨p, there⟩ : ∃ p, front[slot]? = some p := ⟨_, List.getElem?_eq_getElem inside⟩
    have mem := List.mem_of_getElem? there
    have held : (front.map slotOf ++ rest)[slot]? = some (slotOf p) := by
      rw [List.getElem?_append_left (by rwa [List.length_map]), List.getElem?_map, there]
      rfl
    rw [ids, values, List.getD_eq_getElem?_getD, List.getD_eq_getElem?_getD, List.getElem?_map,
      List.getElem?_map, held]
    show (p.2.toUInt32 == noToken || greater value p.1) = false
    rw [beq_eq_false_iff_ne.mpr (noToken_ne (numbers p mem).2), Bool.false_or,
      Bool.eq_false_iff]
    exact fun above =>
      absurd ((greater_iff finite_value (numbers p mem).1).mp above) (not_lt.mpr (before p mem))
  cases rest with
  | nil =>
    have all : front.length = topK := length
    have none_left : (List.range topK).find? (fun slot =>
        c.ids.getD slot 0 == noToken || greater value (c.values.getD slot 0)) = none := by
      refine List.find?_eq_none.mpr fun slot mem => ?_
      rw [passed slot (all ▸ List.mem_range.mp mem)]
      exact Bool.false_ne_true
    rw [Candidates.insertion, none_left, all]
    rfl
  | cons slot rest =>
    have held : (front.map slotOf ++ slot :: rest)[front.length]? = some slot := by
      rw [List.getElem?_append_right (by rw [List.length_map]), List.length_map, Nat.sub_self]
      rfl
    have taken : (c.ids.getD front.length 0 == noToken ||
        greater value (c.values.getD front.length 0)) = true := by
      rw [ids, values, List.getD_eq_getElem?_getD, List.getD_eq_getElem?_getD, List.getElem?_map,
        List.getElem?_map, held]
      show (slot.1 == noToken || greater value slot.2) = true
      rcases behind slot rfl with empty | above
      · rw [empty]
        rfl
      · rw [above, Bool.or_true]
    have found : (List.range topK).find? (fun slot =>
        c.ids.getD slot 0 == noToken || greater value (c.values.getD slot 0)) =
          some front.length := by
      refine List.find?_range_eq_some.mpr ⟨taken, ?_, fun j before => ?_⟩
      · rw [List.length_cons] at length
        exact List.mem_range.mpr (by omega)
      · rw [passed j before]
        rfl
    rw [Candidates.insertion, found]
    rfl

/-- The slots behind an insertion: the last one is gone, a logit only if none was empty. -/
lemma slots_placed (p : Word × Nat) (front back : List (Word × Nat)) (free : Nat)
    (length : (front ++ back).length + free = topK) (rest : List (Token × Word))
    (last : Token × Word)
    (split : back.map slotOf ++ List.replicate free (noToken, 0xff800000) = rest ++ [last]) :
    ∃ free', ((front ++ p :: back).take topK).length + free' = topK ∧
      front.map slotOf ++ slotOf p :: rest = slots ((front ++ p :: back).take topK) free' := by
  rw [List.length_append] at length
  cases free with
  | zero =>
    rw [List.replicate_zero, List.append_nil] at split
    obtain ⟨init, z, rfl⟩ := (List.eq_nil_or_concat' back).resolve_left (by
      rintro rfl
      exact List.append_ne_nil_of_right_ne_nil rest (List.cons_ne_nil last []) split.symm)
    rw [List.map_append] at split
    obtain ⟨rfl, -⟩ := List.append_inj' split rfl
    rw [List.length_append, List.length_singleton] at length
    have kept : (front ++ p :: (init ++ [z])).take topK = front ++ p :: init := by
      have whole : front ++ p :: (init ++ [z]) = (front ++ p :: init) ++ [z] := by
        rw [List.append_assoc]
        rfl
      have count : (front ++ p :: init).length = topK := by
        rw [List.length_append, List.length_cons]
        omega
      rw [whole, ← count, List.take_left]
    refine ⟨0, ?_, ?_⟩
    · rw [kept, List.length_append, List.length_cons]
      omega
    · rw [kept, slots, List.replicate_zero, List.append_nil, List.map_append, List.map_cons]
  | succ free =>
    rw [List.replicate_succ', ← List.append_assoc] at split
    obtain ⟨rfl, -⟩ := List.append_inj' split rfl
    have kept : (front ++ p :: back).take topK = front ++ p :: back := by
      refine List.take_of_length_le ?_
      rw [List.length_append, List.length_cons]
      omega
    refine ⟨free, ?_, ?_⟩
    · rw [kept, List.length_append, List.length_cons]
      omega
    · rw [kept, slots, List.map_append, List.map_cons, List.append_assoc]
      rfl

/-- An insertion into slots, seen through a map. -/
lemma shiftUp_map {β : Type} (f : Token × Word → β) (fill : β) (p : Word × Nat)
    (front : List (Word × Nat)) (rest : List (Token × Word)) (last : Token × Word) :
    (shiftUp fill front.length rest.length
        ((front.map slotOf ++ (rest ++ [last])).map f)).set front.length (f (slotOf p)) =
      (front.map slotOf ++ slotOf p :: rest).map f := by
  have shifted := shiftUp_set fill (f (slotOf p)) ((front.map slotOf).map f) (rest.map f) (f last) []
  rw [List.length_map, List.length_map, List.length_map, List.append_nil] at shifted
  rw [List.map_append, List.map_append, List.map_append, List.map_cons]
  exact shifted

/-- One logit. -/
lemma Collected.step (h : Collected c window free) (p : Word × Nat) (finite_p : finite p.1 = true)
    (small : p.2 < 2 ^ 32 - 1) :
    ∃ free', Collected (c.insert p.2.toUInt32 p.1)
      ((place (fun q : Word × Nat => floatKey q.1) p window).take topK) free' := by
  obtain ⟨front, back, rfl, placed, before, behind⟩ :=
    place_split (fun q : Word × Nat => floatKey q.1) p window
  obtain ⟨length, ids, values, numbers⟩ := h
  have numbers' : ∀ q ∈ (front ++ p :: back).take topK, finite q.1 = true ∧ q.2 < 2 ^ 32 - 1 := by
    intro q mem
    rcases List.mem_append.mp (List.mem_of_mem_take mem) with first | later
    · exact numbers q (List.mem_append_left _ first)
    · rcases List.mem_cons.mp later with rfl | later
      · exact ⟨finite_p, small⟩
      · exact numbers q (List.mem_append_right _ later)
  have cut : slots (front ++ back) free = front.map slotOf ++
      (back.map slotOf ++ List.replicate free (noToken, 0xff800000)) := by
    rw [slots, List.map_append, List.append_assoc]
  rw [cut] at ids values
  have all : front.length +
      (back.map slotOf ++ List.replicate free (noToken, 0xff800000)).length = topK := by
    rw [List.length_append, List.length_map, List.length_replicate, ← Nat.add_assoc,
      ← List.length_append, length]
  -- the slot that the code finds is the place of the candidate in the window
  have found : c.insertion p.1 = front.length := by
    refine insertion_eq p.1 finite_p front _ ids values
      (fun q mem => numbers q (List.mem_append_left _ mem)) before all fun slot mem => ?_
    cases back with
    | nil =>
      cases free with
      | zero => cases mem
      | succ free =>
        cases mem
        exact .inl rfl
    | cons q back =>
      cases mem
      refine .inr ((greater_iff finite_p ?_).mpr (behind q rfl))
      exact (numbers q (List.mem_append_right _ List.mem_cons_self)).1
  rw [placed]
  rcases List.eq_nil_or_concat' (back.map slotOf ++ List.replicate free (noToken, 0xff800000)) with
    none_left | ⟨rest, last, split⟩
  -- every slot holds a better candidate
  · rw [none_left, List.append_nil] at ids values
    rw [none_left, List.length_nil] at all
    have same : c.insert p.2.toUInt32 p.1 = c := by
      rw [Candidates.insert, found]
      exact if_neg (by omega)
    have kept : (front ++ p :: back).take topK = front := by
      rw [← all, Nat.add_zero, List.take_left]
    rw [kept] at numbers' ⊢
    refine ⟨0, all, ?_, ?_, numbers'⟩
    · rw [same, ids, slots, List.replicate_zero, List.append_nil]
    · rw [same, values, slots, List.replicate_zero, List.append_nil]
  -- the slots behind move by one, and the last is dropped
  · obtain ⟨free', length', placed'⟩ := slots_placed p front back free length rest last split
    rw [split] at ids values all
    rw [List.length_append, List.length_singleton] at all
    have count : topK - (front.length + 1) = rest.length := by omega
    have inserted : c.insert p.2.toUInt32 p.1 =
        ⟨(shiftUp 0 front.length rest.length c.ids).set front.length p.2.toUInt32,
          (shiftUp 0 front.length rest.length c.values).set front.length p.1⟩ := by
      rw [Candidates.insert, found, count]
      exact if_pos (by omega)
    refine ⟨free', length', ?_, ?_, numbers'⟩
    · rw [inserted, ids, ← placed']
      exact shiftUp_map Prod.fst 0 p front rest last
    · rw [inserted, values, ← placed']
      exact shiftUp_map Prod.snd 0 p front rest last

/-- Collecting more candidates keeps the window of the largest. -/
lemma Collected.run (h : Collected c window free) (rest : List (Word × Nat))
    (numbers : ∀ p ∈ rest, finite p.1 = true ∧ p.2 < 2 ^ 32 - 1) :
    ∃ free', Collected (rest.foldl (fun c (value, token) => c.insert token.toUInt32 value) c)
      (rest.foldl (fun l p => (place (fun q : Word × Nat => floatKey q.1) p l).take topK) window)
      free' := by
  induction rest generalizing c window free with
  | nil => exact ⟨free, h⟩
  | cons p rest ih =>
    obtain ⟨first, later⟩ := List.forall_mem_cons.mp numbers
    obtain ⟨free', next⟩ := h.step p first.1 first.2
    exact ih next later

/-- All candidates of at least as many logits as there are slots. -/
lemma collect_collected {logits : List Word} (enough : topK ≤ logits.length)
    (tokens : logits.length < 2 ^ 32) (numbers : ∀ bits ∈ logits, finite bits = true) :
    Collected (collect logits) ((stableDescending floatKey logits).take topK) 0 := by
  have start : Collected .empty [] topK := ⟨rfl, rfl, rfl, nofun⟩
  obtain ⟨free, done⟩ := start.run logits.zipIdx fun p mem => by
    have there := List.mem_zipIdx_iff_getElem?.mp mem
    have inside := (List.getElem?_eq_some_iff.mp there).1
    exact ⟨numbers p.1 (List.fst_mem_of_mem_zipIdx mem), by omega⟩
  have window := foldl_take (fun q : Word × Nat => floatKey q.1) topK logits.zipIdx []
  rw [List.take_nil, foldl_place] at window
  rw [window] at done
  have all : ((stableDescending floatKey logits).take topK).length = topK := by
    rw [List.length_take, stableDescending, List.length_mergeSort, List.length_zipIdx]
    exact Nat.min_eq_left enough
  have none_free : free = 0 := by
    have length := done.length
    omega
  exact none_free ▸ done

end Collect

section Choice

variable (F : FloatOps)

/-- The cut keeps one candidate at least. -/
lemma cut_bounds (cutoff : Word) (keptTotal : UInt64) (slot : Nat) (weights : List Word)
    (length : slot + weights.length = topK) (some_left : weights ≠ []) :
    1 ≤ (F.cut cutoff keptTotal slot weights).1 ∧
      (F.cut cutoff keptTotal slot weights).1 ≤ topK := by
  induction weights generalizing keptTotal slot with
  | nil => exact absurd rfl some_left
  | cons weight rest ih =>
    rw [List.length_cons] at length
    rw [FloatOps.cut]
    split_ifs
    · exact ⟨Nat.le_add_left 1 slot, by omega⟩
    · cases rest with
      | nil => exact ⟨Nat.le_add_left 1 19, Nat.le_refl _⟩
      | cons next rest => exact ih _ _ (by omega) (List.cons_ne_nil _ _)

/-- The walk ends at a candidate or at none. -/
lemma walk_mem (target : Word) (cumulative : UInt64) (kept : List (Token × Word)) {id : Token}
    (found : F.walk target cumulative kept = some id) : id ∈ kept.map Prod.fst := by
  induction kept generalizing cumulative with
  | nil => cases found
  | cons candidate rest ih =>
    obtain ⟨first, weight⟩ := candidate
    rw [FloatOps.walk] at found
    split_ifs at found
    · cases found
      exact List.mem_cons_self
    · exact List.mem_cons_of_mem _ (ih _ found)

/-- The choice is one of the candidates kept. -/
lemma sampleTopKTopP_mem {logits : List Word} (random24 : UInt32)
    (ids : (collect logits).ids.length = topK) (values : (collect logits).values.length = topK) :
    1 ≤ (F.kept (F.weights (collect logits).values)).1 ∧
      (F.kept (F.weights (collect logits).values)).1 ≤ topK ∧
      F.sampleTopKTopP logits random24 ∈
        (collect logits).ids.take (F.kept (F.weights (collect logits).values)).1 := by
  have weights : (F.weights (collect logits).values).length = topK := by
    rw [FloatOps.weights, List.length_map, values]
  have bounds := cut_bounds F (F.mul (F.f64ToF32 ((F.weights (collect logits).values).foldl
    (fun total weight => F.f64Add total (F.f32ToF64 weight)) 0)) topP) 0 0
    (F.weights (collect logits).values) (by omega)
    (List.ne_nil_of_length_pos (by rw [weights]; decide))
  change 1 ≤ (F.kept _).1 ∧ (F.kept _).1 ≤ topK at bounds
  refine ⟨bounds.1, bounds.2, ?_⟩
  rw [FloatOps.sampleTopKTopP]
  dsimp only
  cases walked : F.walk _ 0 _ with
  | some id =>
    have mem := walk_mem F _ _ _ walked
    rw [List.map_take, List.map_fst_zip (by rw [ids, weights])] at mem
    exact mem
  | none =>
    obtain ⟨positive, top⟩ := bounds
    have inside : (F.kept (F.weights (collect logits).values)).1 - 1 <
        ((collect logits).ids.take (F.kept (F.weights (collect logits).values)).1).length := by
      rw [List.length_take, ids]
      omega
    have last := List.getElem_mem inside
    rw [List.getElem_take] at last
    rw [Option.getD_none, List.getD_eq_getElem?_getD,
      List.getElem?_eq_getElem (by rw [ids]; omega)]
    exact last

end Choice

/-- Arithmetic whose every result is zero. -/
def zeroOps : FloatOps where
  sub _ _ := 0
  mul _ _ := 0
  div _ _ := 0
  expf _ := 0
  fromU32 _ := 0
  f64Add _ _ := 0
  f32ToF64 _ := 0
  f64ToF32 _ := 0

end Promptboot
