import Mathlib.Algebra.Order.Ring.Int
import Promptboot.Engine.Sampling
import Promptboot.Lib.TopWindow

/-!
# The top logits

`top_logits_8` keeps a window of the stable descending order, and its first entry is the token that
`greedy_token` chooses.

`greater_iff` is the order that the comparisons of the bits come to, for what is finite.
`StagedWindow.step` is one turn of the loop and `StagedWindow.loop` the induction;
`inferenceArgmax_eq` is the greedy scan. The headline is `topLogits8_agrees`.
-/

namespace Promptboot

open TopWindow

section Comparison

/-- The bits under a mask that ends below the sign. -/
lemma and_exponent (n : Nat) : n &&& 0x7f800000 = n % 2 ^ 31 / 2 ^ 23 * 2 ^ 23 := by
  have mask : (0x7f800000 : Nat) = (2 ^ 8 - 1) * 2 ^ 23 := rfl
  refine Nat.eq_of_testBit_eq fun i => ?_
  rw [mask, Nat.testBit_and, Nat.testBit_mul_two_pow, Nat.testBit_mul_two_pow,
    Nat.testBit_div_two_pow, Nat.testBit_mod_two_pow, Nat.testBit_two_pow_sub_one]
  by_cases above : 23 ≤ i
  · have back : 23 + (i - 23) = i := by omega
    have low : decide (i - 23 < 8) = decide (i < 31) := by
      rw [decide_eq_decide]
      omega
    rw [Nat.add_comm] at back
    rw [decide_eq_true above, Bool.true_and, Bool.true_and, back, low, Bool.and_comm]
  · rw [decide_eq_false above, Bool.false_and, Bool.false_and, Bool.and_false]

/-- A finite number is a number. -/
lemma not_nan_of_finite {bits : Word} (h : finite bits = true) : isNan bits = false := by
  have exponent : ¬bits.toNat &&& 0x7f800000 = 0x7f800000 := by
    intro eq
    have same : bits &&& 0x7f800000 = 0x7f800000 := UInt32.toNat_inj.mp (by
      rw [UInt32.toNat_and]
      exact eq)
    rw [finite, same] at h
    cases h
  rw [and_exponent] at exponent
  refine decide_eq_false fun nan => exponent ?_
  have above : 0x7f800000 < bits.toNat &&& (2 ^ 31 - 1) := by
    have value := UInt32.lt_iff_toNat_lt.mp nan
    rw [UInt32.toNat_and] at value
    exact value
  rw [Nat.and_two_pow_sub_one_eq_mod] at above
  have under : bits.toNat % 2 ^ 31 < 2 ^ 31 := Nat.mod_lt _ (by decide)
  omega

/-- On numbers the comparison is that of their values. -/
lemma greater_iff {left right : Word} (hl : finite left = true) (hr : finite right = true) :
    greater left right = true ↔ floatKey right < floatKey left := by
  rw [greater, not_nan_of_finite hl, not_nan_of_finite hr]
  exact decide_eq_true_iff

end Comparison

/-- The value that a staged entry is ordered by. -/
def TopLogit.key (entry : TopLogit) : Int := floatKey entry.logitBits

/-- The entry of a logit and its index. -/
def topLogitOf (p : Word × Nat) : TopLogit := ⟨p.2.toUInt32, p.1⟩

section Window

/-- What is no larger than the last entry is no larger than any. -/
lemma atLeast_of_last {x y : TopLogit} {front : List TopLogit}
    (sorted : (front ++ [y]).Pairwise fun a b => b.key ≤ a.key) (le : x.key ≤ y.key) :
    ∀ z ∈ front ++ [y], x.key ≤ z.key := by
  obtain ⟨-, -, last⟩ := List.pairwise_append.mp sorted
  intro z mem
  rcases List.mem_append.mp mem with before | there
  · exact le.trans (last z before y (List.mem_singleton_self y))
  · rw [List.mem_singleton.mp there]
    exact le

/-- Moving the smaller entries up makes room where the entry belongs. -/
lemma shiftSmaller_place (x : TopLogit) (front : List TopLogit) (hole : TopLogit)
    (rest : List TopLogit) (full : front.length + rest.length + 1 = topLogitSlots)
    (finite_x : finite x.logitBits = true) (finite_front : ∀ y ∈ front, finite y.logitBits = true)
    (sorted : front.Pairwise fun a b => b.key ≤ a.key) :
    ∃ insertion shifted, shiftSmaller x.logitBits front.length (front ++ hole :: rest) =
      (insertion, shifted) ∧ insertion < topLogitSlots ∧
        shifted.set insertion x = place TopLogit.key x front ++ rest := by
  induction front using List.reverseRecOn generalizing hole rest with
  | nil => exact ⟨0, hole :: rest, rfl, by decide, rfl⟩
  | append_singleton front y ih =>
    have length : (front ++ [y]).length = front.length + 1 := List.length_append
    have below : (front ++ [y] ++ hole :: rest).getD front.length ⟨0, 0⟩ = y := by
      rw [List.append_assoc, List.getD_eq_getElem?_getD, List.getElem?_append_right (Nat.le_refl _),
        Nat.sub_self]
      rfl
    have finite_y := finite_front y (List.mem_append_right _ (List.mem_singleton_self y))
    obtain ⟨front_sorted, -, -⟩ := List.pairwise_append.mp sorted
    rw [length] at full ⊢
    rw [shiftSmaller, below]
    by_cases smaller : y.key < x.key
    -- the hole moves in front of an entry that is smaller
    · have above := (greater_iff finite_x finite_y).mpr smaller
      have moved : (front ++ [y] ++ hole :: rest).set (front.length + 1) y =
          front ++ y :: (y :: rest) := by
        rw [← length, List.set_append_right _ _ (Nat.le_refl _), Nat.sub_self, List.set_cons_zero,
          List.append_assoc]
        rfl
      rw [if_pos above, if_pos (by omega), moved]
      obtain ⟨insertion, shifted, loop, slot, set⟩ := ih y (y :: rest)
        (by rw [List.length_cons]; omega)
        (fun z mem => finite_front z (List.mem_append_left _ mem)) front_sorted
      refine ⟨insertion, shifted, loop, slot, ?_⟩
      rw [set, place_concat_lt smaller, List.append_assoc]
      rfl
    · have not_above : ¬greater x.logitBits y.logitBits = true :=
        mt (greater_iff finite_x finite_y).mp smaller
      refine ⟨front.length + 1, _, if_neg not_above, by omega, ?_⟩
      rw [place_eq_concat (atLeast_of_last sorted (not_lt.mp smaller)), ← length, List.set_append_right _ _ (Nat.le_refl _),
        Nat.sub_self, List.set_cons_zero, List.append_assoc (front ++ [y])]
      rfl

/-- In a full window the last entry is dropped. -/
lemma shiftSmaller_full (x : TopLogit) (window : List TopLogit)
    (full : window.length = topLogitSlots) (finite_x : finite x.logitBits = true)
    (finite_window : ∀ y ∈ window, finite y.logitBits = true)
    (sorted : window.Pairwise fun a b => b.key ≤ a.key) :
    ∃ insertion shifted, shiftSmaller x.logitBits window.length window = (insertion, shifted) ∧
      (if insertion < topLogitSlots then shifted.set insertion x else shifted) =
        (place TopLogit.key x window).take topLogitSlots := by
  obtain ⟨front, y, rfl⟩ := (List.eq_nil_or_concat' window).resolve_left (by
    rintro rfl
    cases full)
  have length : (front ++ [y]).length = front.length + 1 := List.length_append
  have below : (front ++ [y]).getD front.length ⟨0, 0⟩ = y := by
    rw [List.getD_eq_getElem?_getD, List.getElem?_append_right (Nat.le_refl _), Nat.sub_self]
    rfl
  have finite_y := finite_window y (List.mem_append_right _ (List.mem_singleton_self y))
  obtain ⟨front_sorted, -, -⟩ := List.pairwise_append.mp sorted
  by_cases smaller : y.key < x.key
  -- the last entry makes room for the new one
  · have above := (greater_iff finite_x finite_y).mpr smaller
    obtain ⟨insertion, shifted, loop, slot, set⟩ := shiftSmaller_place x front y []
      (by rw [List.length_nil]; omega) finite_x
      (fun z mem => finite_window z (List.mem_append_left _ mem)) front_sorted
    refine ⟨insertion, shifted, ?_, ?_⟩
    · rw [length, shiftSmaller, below, if_pos above, if_neg (by omega), loop]
    · have short : (place TopLogit.key x front).length = topLogitSlots := by
        rw [length_place]
        omega
      rw [if_pos slot, set, place_concat_lt smaller, List.append_nil, ← short, List.take_left]
  · have not_above : ¬greater x.logitBits y.logitBits = true :=
      mt (greater_iff finite_x finite_y).mp smaller
    refine ⟨front.length + 1, front ++ [y], ?_, ?_⟩
    · rw [length, shiftSmaller, below, if_neg not_above]
    · rw [if_neg (by omega), place_eq_concat (atLeast_of_last sorted (not_lt.mp smaller)), ← full,
        List.take_left]

/-- A window of the entries that the loop has seen, in their order. -/
structure StagedWindow (window pad : List TopLogit) : Prop where
  length : window.length + pad.length = topLogitSlots
  numbers : ∀ y ∈ window, finite y.logitBits = true
  sorted : window.Pairwise fun a b => b.key ≤ a.key

variable {window pad : List TopLogit}

/-- One logit. -/
lemma StagedWindow.step (h : StagedWindow window pad) (x : TopLogit)
    (finite_x : finite x.logitBits = true) :
    StagedWindow ((place TopLogit.key x window).take topLogitSlots) (pad.drop 1) ∧
      ∃ insertion shifted,
        shiftSmaller x.logitBits window.length (window ++ pad) = (insertion, shifted) ∧
        (if insertion < topLogitSlots then shifted.set insertion x else shifted) =
          (place TopLogit.key x window).take topLogitSlots ++ pad.drop 1 := by
  have length := h.length
  refine ⟨⟨?_, fun y mem => ?_, ?_⟩, ?_⟩
  · rw [List.length_take, length_place, List.length_drop]
    have slots : topLogitSlots = 8 := rfl
    omega
  · rcases mem_place.mp (List.mem_of_mem_take mem) with rfl | there
    · exact finite_x
    · exact h.numbers y there
  · exact (place_descending h.sorted).sublist (List.take_sublist _ _)
  · cases pad with
    | nil =>
      obtain ⟨insertion, shifted, loop, result⟩ :=
        shiftSmaller_full x window length finite_x h.numbers h.sorted
      refine ⟨insertion, shifted, ?_, ?_⟩
      · rw [List.append_nil, loop]
      · rw [result, List.drop_nil, List.append_nil]
    | cons hole rest =>
      rw [List.length_cons] at length
      obtain ⟨insertion, shifted, loop, slot, set⟩ :=
        shiftSmaller_place x window hole rest (by omega) finite_x h.numbers h.sorted
      refine ⟨insertion, shifted, loop, ?_⟩
      rw [if_pos slot, set, List.take_of_length_le (by rw [length_place]; omega)]
      rfl

/-- The loop on finite logits. -/
lemma StagedWindow.loop (h : StagedWindow window pad) (rest : List (Word × Nat))
    (finite_rest : ∀ p ∈ rest, finite p.1 = true) :
    topLogitsLoop (window ++ pad) window.length rest =
      .ok ((rest.map topLogitOf).foldl
        (fun l x => (place TopLogit.key x l).take topLogitSlots) window ++
          pad.drop rest.length) := by
  induction rest generalizing window pad with
  | nil => rfl
  | cons p rest ih =>
    obtain ⟨bits, token⟩ := p
    obtain ⟨first, later⟩ := List.forall_mem_cons.mp finite_rest
    obtain ⟨next, insertion, shifted, loop, result⟩ := h.step ⟨token.toUInt32, bits⟩ first
    have used : ((place TopLogit.key ⟨token.toUInt32, bits⟩ window).take topLogitSlots).length =
        min (window.length + 1) topLogitSlots := by
      rw [List.length_take, length_place, Nat.min_comm]
    have first : finite bits = true := first
    rw [topLogitsLoop, first]
    rw [show shiftSmaller bits window.length (window ++ pad) = (insertion, shifted) from loop]
    show topLogitsLoop (if insertion < topLogitSlots then shifted.set insertion _ else _) _ _ = _
    rw [result, ← used, ih next later, List.drop_drop, List.map_cons, List.foldl_cons,
      List.length_cons, Nat.add_comm]
    rfl

/-- A logit that is not finite stops the loop. -/
lemma topLogitsLoop_error (staged : List TopLogit) (used : Nat) (rest : List (Word × Nat))
    (bad : ∃ p ∈ rest, finite p.1 = false) : ∃ error, topLogitsLoop staged used rest = .error error := by
  induction rest generalizing staged used with
  | nil =>
    obtain ⟨p, mem, -⟩ := bad
    cases mem
  | cons p rest ih =>
    obtain ⟨bits, token⟩ := p
    rw [topLogitsLoop]
    cases first : finite bits with
    | false => exact ⟨_, rfl⟩
    | true =>
      refine ih _ _ ?_
      obtain ⟨p, mem, infinite⟩ := bad
      rcases List.mem_cons.mp mem with rfl | later
      · rw [first] at infinite
        cases infinite
      · exact ⟨p, later, infinite⟩

end Window

section Report

variable {logits : List Word}

/-- The comparison of the machine in place of an uninterpreted one. -/
def comparing (K : Kernels) : Kernels := { K with greater := greater }

/-- The search for the maximum keeps the first of the largest. -/
lemma argmaxFrom_eq (K : Kernels) (index selected : Nat) (best : Word) (rest : List Word)
    (finite_best : finite best = true) (finite_rest : ∀ bits ∈ rest, finite bits = true) :
    argmaxFrom (comparing K) index selected best rest =
      ((rest.zipIdx index).foldl
        (fun best p => if floatKey best.1 < floatKey p.1 then p else best) (best, selected)).2 := by
  induction rest generalizing index selected best with
  | nil => rfl
  | cons value rest ih =>
    obtain ⟨finite_value, finite_rest⟩ := List.forall_mem_cons.mp finite_rest
    rw [argmaxFrom, List.zipIdx_cons, List.foldl_cons]
    change (if greater value best = true then _ else _) = _
    by_cases above : floatKey best < floatKey value
    · rw [if_pos ((greater_iff finite_value finite_best).mpr above), if_pos above]
      exact ih _ _ _ finite_value finite_rest
    · rw [if_neg (mt (greater_iff finite_value finite_best).mp above), if_neg above]
      exact ih _ _ _ finite_best finite_rest

/-- The greedy choice is at the front of the order. -/
lemma inferenceArgmax_eq (K : Kernels) (nonempty : logits ≠ [])
    (numbers : ∀ bits ∈ logits, finite bits = true) :
    (stableDescending floatKey logits).head?.map Prod.snd =
      some (inferenceArgmax (comparing K) logits) := by
  cases logits with
  | nil => exact absurd rfl nonempty
  | cons first rest =>
    obtain ⟨finite_first, finite_rest⟩ := List.forall_mem_cons.mp numbers
    rw [← foldl_place, List.zipIdx_cons, List.foldl_cons, place_nil, head_foldl_place,
      Option.map_some, inferenceArgmax, argmaxFrom_eq K 1 0 first rest finite_first finite_rest]

/-- The first eight entries of the stable descending order. -/
def topEntries (logits : List Word) : List TopLogit :=
  ((stableDescending floatKey logits).take topLogitSlots).map topLogitOf

/-- On finite logits the loop ends with the largest entries. -/
lemma topLogitsLoop_ok (enough : topLogitSlots ≤ logits.length)
    (numbers : ∀ bits ∈ logits, finite bits = true) :
    topLogitsLoop (List.replicate topLogitSlots ⟨0, 0⟩) 0 logits.zipIdx =
      .ok (topEntries logits) := by
  have staging : StagedWindow [] (List.replicate topLogitSlots ⟨0, 0⟩) :=
    ⟨rfl, nofun, List.Pairwise.nil⟩
  have loop := staging.loop logits.zipIdx fun p mem =>
    numbers p.1 (List.fst_mem_of_mem_zipIdx mem)
  have unused : (List.replicate topLogitSlots (⟨0, 0⟩ : TopLogit)).drop logits.zipIdx.length =
      [] := by
    rw [List.length_zipIdx]
    exact List.drop_eq_nil_of_le (by rwa [List.length_replicate])
  have window := foldl_take TopLogit.key topLogitSlots (logits.zipIdx.map topLogitOf) []
  rw [List.take_nil] at window
  rw [List.nil_append, unused, List.append_nil, window] at loop
  have sorted := map_foldl_place (fun p : Word × Nat => floatKey p.1) TopLogit.key
    topLogitOf (fun _ => rfl) logits.zipIdx []
  rw [List.map_nil] at sorted
  rw [← sorted, foldl_place, ← List.map_take] at loop
  exact loop

/-- Finite logits of the vocabulary's length are accepted. -/
lemma validateSampleLogits_ok (accepted : logits.length = logitWords)
    (numbers : ∀ bits ∈ logits, finite bits = true) : validateSampleLogits logits = .ok () := by
  rw [validateSampleLogits, logitsError, if_pos accepted, List.find?_eq_none.mpr]
  intro p mem
  show ¬(!finite p.1) = true
  rw [numbers p.1 (List.fst_mem_of_mem_zipIdx mem)]
  exact Bool.false_ne_true

end Report

/-- The report and the greedy choice. -/
theorem topLogits8_agrees (K : Kernels) (logits : List Word) (output : List TopLogit)
    (accepted : logits.length = logitWords) :
    ((∃ reported, topLogits8 logits output = (.ok (), reported)) ↔
      ∀ bits ∈ logits, finite bits = true) ∧
    (∀ reported, topLogits8 logits output = (.ok (), reported) →
      reported = topEntries logits ∧ ∃ first, reported.head? = some first ∧
        greedyToken (comparing K) logits = .ok first.token ∧
        (inferenceArgmax (comparing K) logits).toUInt32 = first.token) ∧
    ∀ error left, topLogits8 logits output = (.error error, left) → left = output := by
  have no_error : logitsError logits.length 0 = none := if_pos accepted
  have enough : topLogitSlots ≤ logits.length := by
    rw [accepted]
    decide
  by_cases numbers : ∀ bits ∈ logits, finite bits = true
  -- finite logits pass every check, and the slots hold the window of the order
  · have call : topLogits8 logits output = (.ok (), topEntries logits) := by
      rw [topLogits8, no_error, topLogitsLoop_ok enough numbers]
      rfl
    refine ⟨iff_of_true ⟨_, call⟩ numbers, fun reported same => ?_, fun error left failed => ?_⟩
    · rw [call] at same
      cases same
      refine ⟨rfl, ?_⟩
      have nonempty : logits ≠ [] := by
        rintro rfl
        cases accepted
      have best := inferenceArgmax_eq K nonempty numbers
      obtain ⟨p, head, index⟩ := Option.map_eq_some_iff.mp best
      refine ⟨topLogitOf p, ?_, ?_, ?_⟩
      · rw [topEntries, List.head?_map, List.head?_take, if_neg (by decide), head]
        rfl
      · rw [greedyToken, validateSampleLogits_ok accepted numbers, ← index]
        rfl
      · rw [← index]
        rfl
    · rw [call] at failed
      cases failed
  -- the loop stops at a logit that is no number, before anything is copied out
  · have bad : ∃ p ∈ logits.zipIdx, finite p.1 = false := by
      obtain ⟨bits, mem, infinite⟩ : ∃ bits ∈ logits, ¬finite bits = true := by
        push Not at numbers
        exact numbers
      obtain ⟨i, there⟩ := List.mem_iff_getElem?.mp mem
      exact ⟨(bits, i), List.mem_zipIdx_iff_getElem?.mpr there, Bool.eq_false_iff.mpr infinite⟩
    obtain ⟨error, loop⟩ := topLogitsLoop_error (List.replicate topLogitSlots ⟨0, 0⟩) 0 _ bad
    have call : topLogits8 logits output = (.error error, output) := by
      rw [topLogits8, no_error, loop]
      rfl
    refine ⟨iff_of_false ?_ numbers, fun reported same => ?_, fun error left failed => ?_⟩
    · rintro ⟨reported, same⟩
      rw [call] at same
      cases same
    · rw [call] at same
      cases same
    · rw [call] at failed
      cases failed
      rfl

/-- Logits that are all zero. -/
theorem topLogits8_agrees_zeros :
    ∃ reported, topLogits8 (List.replicate logitWords 0) [] = (.ok (), reported) := by
  refine (topLogits8_agrees zeroKernels (List.replicate logitWords 0) []
    List.length_replicate).1.mpr fun bits mem => ?_
  rw [List.eq_of_mem_replicate mem]
  rfl

end Promptboot
