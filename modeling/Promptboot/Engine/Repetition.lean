import Mathlib.Data.Nat.Bitwise
import Promptboot.Engine.SampleTopK

/-!
# The repetition penalty

The bitmap of `inference_apply_repetition_penalty` as a set of token numbers: the first loop adds
each token of the context once and adjusts its logit as it does, the second removes them all.

`Penalized` is the invariant of the first loop: what is marked so far, and that exactly those logits
are adjusted, once. `Penalized.step` keeps it and `Penalized.run` is the induction; `forget_run` is
the second loop. The headline `sampleTokenWithRepetition_once` also has the cases in which the call
is refused.
-/

namespace Promptboot

/-- The number is in the bitmap. -/
def Marked (seen : List UInt8) (j : Nat) : Prop :=
  (seen.getD (j / 8) 0).toNat.testBit (j % 8) = true

section Bitmap

/-- The bit of a token, as a power of two. -/
lemma seenBit_toNat (token : Token) : (seenBit token).toNat = 2 ^ (token.toNat % 8) := by
  have low : (token &&& 7).toNat = token.toNat % 8 := by
    rw [UInt32.toNat_and]
    exact Nat.and_two_pow_sub_one_eq_mod token.toNat 3
  have shift : (token &&& 7).toUInt8.toNat % 8 = token.toNat % 8 := by
    rw [UInt32.toNat_toUInt8, low]
    omega
  have small : 2 ^ (token.toNat % 8) < 2 ^ 8 :=
    Nat.pow_lt_pow_right (by decide) (Nat.mod_lt _ (by decide))
  rw [seenBit, UInt8.toNat_shiftLeft, shift]
  show 1 <<< (token.toNat % 8) % 2 ^ 8 = _
  rw [Nat.one_shiftLeft, Nat.mod_eq_of_lt small]

/-- The bit of a token is the only one set. -/
lemma testBit_seenBit (token : Token) (i : Nat) :
    (seenBit token).toNat.testBit i = decide (token.toNat % 8 = i) := by
  rw [seenBit_toNat, Nat.testBit_two_pow]

/-- The test of the first loop. -/
lemma and_seenBit_eq_zero (seen : List UInt8) (token : Token) :
    seen.getD (seenByte token) 0 &&& seenBit token = 0 ↔ ¬Marked seen token.toNat := by
  rw [Marked, seenByte, ← UInt8.toNat_inj, UInt8.toNat_and, seenBit_toNat]
  show _ = 0 ↔ _
  rw [Nat.and_two_pow, Bool.not_eq_true]
  cases (seen.getD (token.toNat / 8) 0).toNat.testBit (token.toNat % 8) with
  | false => exact iff_of_true (by rw [Bool.toNat_false, Nat.zero_mul]) rfl
  | true =>
    refine iff_of_false ?_ (by decide)
    rw [Bool.toNat_true, Nat.one_mul]
    exact (Nat.two_pow_pos _).ne'

variable {seen : List UInt8} {token : Token} {j : Nat}

/-- Storing a byte leaves the others. -/
lemma getD_set {byte : UInt8} {i : Nat} (inside : i < seen.length) (k : Nat) :
    (seen.set i byte).getD k 0 = if k = i then byte else seen.getD k 0 := by
  rw [List.getD_eq_getElem?_getD, List.getD_eq_getElem?_getD]
  split_ifs with same
  · rw [same, List.getElem?_set_self inside]
    rfl
  · rw [List.getElem?_set_ne (Ne.symm same)]

/-- Setting a token's bit marks it and leaves the others. -/
lemma marked_insert (inside : seenByte token < seen.length) :
    Marked (seen.set (seenByte token) (seen.getD (seenByte token) 0 ||| seenBit token)) j ↔
      Marked seen j ∨ j = token.toNat := by
  rw [Marked, Marked, getD_set inside]
  split_ifs with same
  · have there : j = token.toNat ↔ token.toNat % 8 = j % 8 := by
      rw [seenByte] at same
      omega
    rw [UInt8.toNat_or, Nat.testBit_or, testBit_seenBit, Bool.or_eq_true, decide_eq_true_iff, there,
      same]
  · have other : j ≠ token.toNat := by
      rintro rfl
      exact same rfl
    exact (or_iff_left other).symm

/-- Clearing a token's bit unmarks it and leaves the others. -/
lemma marked_erase (inside : seenByte token < seen.length) :
    Marked (seen.set (seenByte token) (seen.getD (seenByte token) 0 &&& ~~~seenBit token)) j ↔
      Marked seen j ∧ j ≠ token.toNat := by
  rw [Marked, Marked, getD_set inside]
  split_ifs with same
  · have there : j ≠ token.toNat ↔ ¬token.toNat % 8 = j % 8 := by
      rw [seenByte] at same
      omega
    have low : j % 8 < 8 := Nat.mod_lt _ (by decide)
    have inverse : UInt8.size - 1 - (seenBit token).toNat = 2 ^ 8 - ((seenBit token).toNat + 1) :=
      Nat.sub_sub (2 ^ 8) 1 _ ▸ Nat.add_comm 1 _ ▸ rfl
    rw [UInt8.toNat_and, Nat.testBit_and, UInt8.toNat_not, inverse,
      Nat.testBit_two_pow_sub_succ (seenBit token).toNat_lt, testBit_seenBit, decide_eq_true low,
      Bool.true_and, Bool.and_eq_true, Bool.not_eq_true', decide_eq_false_iff_not, there, same]
  · have other : j ≠ token.toNat := by
      rintro rfl
      exact same rfl
    exact (and_iff_left other).symm

/-- A bitmap without members is zero. -/
lemma eq_replicate_of_not_marked (none : ∀ j, ¬Marked seen j) :
    seen = List.replicate seen.length 0 := by
  refine List.eq_replicate_iff.mpr ⟨rfl, fun byte mem => ?_⟩
  obtain ⟨k, there⟩ := List.mem_iff_getElem?.mp mem
  refine UInt8.toNat_inj.mp (Nat.eq_of_testBit_eq fun i => ?_)
  rw [show (0 : UInt8).toNat = 0 from rfl, Nat.zero_testBit]
  by_cases low : i < 8
  · have clear := none (8 * k + i)
    have div : (8 * k + i) / 8 = k := by omega
    have mod : (8 * k + i) % 8 = i := by omega
    rw [Marked, div, mod, List.getD_eq_getElem?_getD, there, Bool.not_eq_true] at clear
    exact clear
  · refine Nat.testBit_lt_two_pow (lt_of_lt_of_le byte.toNat_lt ?_)
    exact Nat.pow_le_pow_right (by decide) (Nat.not_lt.mp low)

/-- Zeros mark no token. -/
lemma not_marked_replicate (n j : Nat) : ¬Marked (List.replicate n 0) j := by
  have zero : (List.replicate n (0 : UInt8)).getD (j / 8) 0 = 0 := by
    rw [List.getD_eq_getElem?_getD, List.getElem?_replicate]
    split_ifs
    · rfl
    · rfl
  rw [Marked, zero]
  exact (by rw [Nat.zero_testBit]; exact Bool.false_ne_true :
    ¬(0 : Nat).testBit (j % 8) = true)

end Bitmap

/-- The logits with those of the tokens adjusted. -/
def FloatOps.penalized (F : FloatOps) (tokens : List Token) (logits : List Word) : List Word :=
  logits.mapIdx fun i score => if i ∈ tokens.map UInt32.toNat then F.adjust score else score

/-- After the first loop on some tokens of the context. -/
structure Penalized (F : FloatOps) (start : PenaltyBuffers) (done : List Token)
    (b : PenaltyBuffers) : Prop where
  logits : b.logits = F.penalized done start.logits
  marked : ∀ j, Marked b.seen j ↔ j ∈ done.map UInt32.toNat
  length : b.seen.length = start.seen.length

section Loops

variable {F : FloatOps} {start b : PenaltyBuffers} {done : List Token} {token : Token}

/-- A token that is there already changes nothing. -/
lemma penalized_mem (logits : List Word) (mem : token.toNat ∈ done.map UInt32.toNat) :
    F.penalized (done ++ [token]) logits = F.penalized done logits := by
  refine congrArg (fun f => List.mapIdx f logits) (funext fun i => funext fun score => ?_)
  have same : i ∈ (done ++ [token]).map UInt32.toNat ↔ i ∈ done.map UInt32.toNat := by
    rw [List.map_append, List.mem_append]
    refine or_iff_left_of_imp fun last => ?_
    rw [List.mem_singleton.mp last]
    exact mem
  simp only [same]

/-- A new token changes its own logit. -/
lemma penalized_new (logits : List Word) (new : token.toNat ∉ done.map UInt32.toNat) :
    F.penalized (done ++ [token]) logits =
      (F.penalized done logits).set token.toNat
        (F.adjust ((F.penalized done logits).getD token.toNat 0)) := by
  refine List.ext_getElem? fun i => ?_
  rw [FloatOps.penalized, FloatOps.penalized, List.getElem?_mapIdx, List.getElem?_set,
    List.getElem?_mapIdx, List.length_mapIdx, List.getD_eq_getElem?_getD, List.getElem?_mapIdx]
  have mem_iff : i ∈ (done ++ [token]).map UInt32.toNat ↔
      i ∈ done.map UInt32.toNat ∨ i = token.toNat := by
    rw [List.map_append, List.mem_append]
    exact or_congr_right List.mem_singleton
  by_cases same : token.toNat = i
  · subst same
    rw [if_pos rfl]
    cases there : logits[token.toNat]? with
    | none => rw [if_neg (Nat.not_lt.mpr (List.getElem?_eq_none_iff.mp there)), Option.map_none]
    | some score =>
      rw [if_pos (List.getElem?_eq_some_iff.mp there).1]
      simp only [Option.map_some, Option.getD_some, if_pos (mem_iff.mpr (.inr rfl)), if_neg new]
  · rw [if_neg same]
    have other : i ∈ (done ++ [token]).map UInt32.toNat ↔ i ∈ done.map UInt32.toNat :=
      mem_iff.trans (or_iff_left (Ne.symm same))
    simp only [other]

/-- One token of the first loop. -/
lemma Penalized.step (h : Penalized F start done b) (inside : seenByte token < start.seen.length) :
    Penalized F start (done ++ [token]) (F.penalize b token) := by
  obtain ⟨logits, marked, length⟩ := h
  have member (j : Nat) : j ∈ (done ++ [token]).map UInt32.toNat ↔
      j ∈ done.map UInt32.toNat ∨ j = token.toNat := by
    rw [List.map_append, List.mem_append]
    exact or_congr_right List.mem_singleton
  rw [FloatOps.penalize]
  by_cases new : Marked b.seen token.toNat
  · have there := (marked _).mp new
    rw [if_neg (mt (and_seenBit_eq_zero _ _).mp (not_not.mpr new))]
    refine ⟨logits.trans (penalized_mem _ there).symm, fun j => ?_, length⟩
    rw [marked, member]
    refine (or_iff_left_of_imp ?_).symm
    rintro rfl
    exact there
  · rw [if_pos ((and_seenBit_eq_zero _ _).mpr new)]
    refine ⟨?_, fun j => ?_, ?_⟩
    · show b.logits.set _ (F.adjust (b.logits.getD _ 0)) = _
      rw [logits, penalized_new _ (mt (marked _).mpr new)]
    · rw [marked_insert (by rwa [length]), marked, member]
    · show (b.seen.set _ _).length = _
      rw [List.length_set, length]

/-- A run over tokens penalises each of them once. -/
lemma Penalized.run (h : Penalized F start done b) (tokens : List Token)
    (inside : ∀ token ∈ tokens, seenByte token < start.seen.length) :
    Penalized F start (done ++ tokens) (tokens.foldl F.penalize b) := by
  induction tokens generalizing done b with
  | nil =>
    rw [List.append_nil]
    exact h
  | cons token tokens ih =>
    obtain ⟨first, later⟩ := List.forall_mem_cons.mp inside
    rw [List.foldl_cons, ← List.singleton_append, ← List.append_assoc]
    exact ih (h.step first) later

/-- The second loop leaves the marks of other tokens. -/
lemma forget_run (b : PenaltyBuffers) (tokens : List Token)
    (inside : ∀ token ∈ tokens, seenByte token < b.seen.length) :
    (tokens.foldl FloatOps.forget b).logits = b.logits ∧
      (tokens.foldl FloatOps.forget b).seen.length = b.seen.length ∧
      ∀ j, Marked (tokens.foldl FloatOps.forget b).seen j ↔
        Marked b.seen j ∧ j ∉ tokens.map UInt32.toNat := by
  induction tokens generalizing b with
  | nil => exact ⟨rfl, rfl, fun j => (and_iff_left List.not_mem_nil).symm⟩
  | cons token tokens ih =>
    obtain ⟨first, later⟩ := List.forall_mem_cons.mp inside
    have length : (FloatOps.forget b token).seen.length = b.seen.length := List.length_set
    obtain ⟨logits, lengths, marks⟩ := ih (FloatOps.forget b token) (by rwa [length])
    rw [List.foldl_cons]
    refine ⟨logits, lengths.trans length, fun j => ?_⟩
    rw [marks, FloatOps.forget, marked_erase first, List.map_cons, List.mem_cons, not_or, and_assoc]

/-- Both loops, on a bitmap without members. -/
lemma applyRepetitionPenalty_eq (F : FloatOps) (logits : List Word) (n : Nat)
    (tokens : List Token) (inside : ∀ token ∈ tokens, seenByte token < n) :
    F.applyRepetitionPenalty ⟨logits, List.replicate n 0⟩ tokens =
      ⟨F.penalized tokens logits, List.replicate n 0⟩ := by
  have start : Penalized F ⟨logits, List.replicate n 0⟩ [] ⟨logits, List.replicate n 0⟩ := by
    refine ⟨?_, fun j => iff_of_false (not_marked_replicate n j) List.not_mem_nil, rfl⟩
    refine List.ext_getElem? fun i => ?_
    rw [FloatOps.penalized, List.getElem?_mapIdx]
    cases logits[i]? <;> rfl
  have bytes : ∀ token ∈ tokens, seenByte token < (List.replicate n (0 : UInt8)).length := by
    rwa [List.length_replicate]
  obtain ⟨adjusted, marked, length⟩ := start.run tokens bytes
  rw [List.nil_append] at adjusted marked
  obtain ⟨kept, length', cleared⟩ :=
    forget_run (tokens.foldl F.penalize ⟨logits, List.replicate n 0⟩) tokens
      (by rw [length]; exact bytes)
  have empty := eq_replicate_of_not_marked fun j there => by
    obtain ⟨before, gone⟩ := (cleared j).mp there
    exact gone ((marked j).mp before)
  rw [length', length, List.length_replicate] at empty
  rw [FloatOps.applyRepetitionPenalty]
  calc (tokens.foldl FloatOps.forget (tokens.foldl F.penalize ⟨logits, List.replicate n 0⟩)) =
      ⟨(tokens.foldl FloatOps.forget
        (tokens.foldl F.penalize ⟨logits, List.replicate n 0⟩)).logits,
        (tokens.foldl FloatOps.forget
          (tokens.foldl F.penalize ⟨logits, List.replicate n 0⟩)).seen⟩ := rfl
    _ = ⟨F.penalized tokens logits, List.replicate n 0⟩ := by rw [kept, adjusted, empty]

end Loops

section Calls

variable {F : FloatOps} {tokens : List Token}

/-- The buffers are accepted when every token has its bit and its logit. -/
lemma repetitionRejection_eq_none {b : PenaltyBuffers} :
    repetitionRejection b tokens = none ↔
      seenBytes b.logits ≤ b.seen.length ∧ ∀ token ∈ tokens, token.toNat < b.logits.length := by
  rw [repetitionRejection]
  split_ifs with short
  · exact iff_of_false nofun fun h => absurd h.1 (Nat.not_le.mpr short)
  · cases found : tokens.find? fun token => decide (b.logits.length ≤ token.toNat) with
    | some token =>
      have bad := List.find?_some found
      exact iff_of_false nofun fun h => absurd (h.2 token (List.mem_of_find?_eq_some found))
        (Nat.not_lt.mpr (of_decide_eq_true bad))
    | none =>
      refine iff_of_true rfl ⟨Nat.not_lt.mp short, fun token mem => ?_⟩
      have fine := List.find?_eq_none.mp found token mem
      rw [decide_eq_true_iff] at fine
      exact Nat.not_le.mp fine

/-- The penalty depends on which tokens there are, on nothing else. -/
lemma penalized_congr {others : List Token} (same : ∀ token, token ∈ others ↔ token ∈ tokens)
    (logits : List Word) : F.penalized others logits = F.penalized tokens logits := by
  refine congrArg (fun f => List.mapIdx f logits) (funext fun i => funext fun score => ?_)
  have numbers : i ∈ others.map UInt32.toNat ↔ i ∈ tokens.map UInt32.toNat := by
    rw [List.mem_map, List.mem_map]
    exact exists_congr fun token => and_congr_left' (same token)
  simp only [numbers]

/-- An accepted token has its byte. -/
lemma seenByte_lt {logits : List Word} {n : Nat}
    (accepted : repetitionRejection ⟨logits, List.replicate n 0⟩ tokens = none) :
    ∀ token ∈ tokens, seenByte token < n := by
  intro token mem
  obtain ⟨bytes, within⟩ := repetitionRejection_eq_none.mp accepted
  rw [List.length_replicate, seenBytes] at bytes
  have small := within token mem
  change (logits.length + 7) / 8 ≤ n at bytes
  change token.toNat < logits.length at small
  rw [seenByte]
  omega

/-- A call that passes its checks. -/
lemma sampleTokenWithRepetition_eq {logits : List Word} {n : Nat} (sampling : SamplingState)
    (checked : validateSampleLogits logits = .ok ())
    (accepted : repetitionRejection ⟨logits, List.replicate n 0⟩ tokens = none) :
    F.sampleTokenWithRepetition tokens ⟨⟨logits, List.replicate n 0⟩, sampling⟩ =
      (.ok (F.sampleTopKTopP (F.penalized tokens logits) sampling.next24.1),
        ⟨⟨F.penalized tokens logits, List.replicate n 0⟩, sampling.next24.2⟩) := by
  rw [FloatOps.sampleTokenWithRepetition]
  dsimp only
  rw [checked]
  dsimp only
  rw [accepted]
  dsimp only
  rw [applyRepetitionPenalty_eq F logits n tokens (seenByte_lt accepted)]
  rfl

/-- A call that succeeds passed its checks, and one that fails changed nothing. -/
lemma sampleTokenWithRepetition_cases (F : FloatOps) (tokens : List Token)
    (s : RepetitionState) :
    (validateSampleLogits s.buffers.logits = .ok () ∧
        repetitionRejection s.buffers tokens = none ∧
        ∃ token after, F.sampleTokenWithRepetition tokens s = (.ok token, after)) ∨
      ∃ error, F.sampleTokenWithRepetition tokens s = (.error error, s) := by
  rw [FloatOps.sampleTokenWithRepetition]
  cases checked : validateSampleLogits s.buffers.logits with
  | error error => exact .inr ⟨error, rfl⟩
  | ok u =>
    dsimp only
    cases rejected : repetitionRejection s.buffers tokens with
    | some error => exact .inr ⟨error, rfl⟩
    | none => exact .inl ⟨rfl, rfl, _, _, rfl⟩

end Calls

/-- The context counts as a set, and a failed call changes nothing. -/
theorem sampleTokenWithRepetition_once (F : FloatOps) (tokens : List Token) :
    (∀ logits n sampling token after,
      F.sampleTokenWithRepetition tokens ⟨⟨logits, List.replicate n 0⟩, sampling⟩ =
        (.ok token, after) →
      (∀ i, after.buffers.logits[i]? = logits[i]?.map fun score =>
        if i ∈ tokens.map UInt32.toNat then F.adjust score else score) ∧
      after.buffers.seen = List.replicate n 0 ∧
      ∀ others, (∀ t, t ∈ others ↔ t ∈ tokens) →
        F.sampleTokenWithRepetition others ⟨⟨logits, List.replicate n 0⟩, sampling⟩ =
          (.ok token, after)) ∧
    ∀ s error after, F.sampleTokenWithRepetition tokens s = (.error error, after) →
      after = s := by
  refine ⟨fun logits n sampling token after call => ?_, fun s error after call => ?_⟩
  · rcases sampleTokenWithRepetition_cases F tokens
      ⟨⟨logits, List.replicate n 0⟩, sampling⟩ with ⟨checked, accepted, -⟩ | ⟨error, failed⟩
    · rw [sampleTokenWithRepetition_eq sampling checked accepted] at call
      cases call
      refine ⟨fun i => List.getElem?_mapIdx, rfl, fun others same => ?_⟩
      have accepted' : repetitionRejection ⟨logits, List.replicate n 0⟩ others = none := by
        obtain ⟨bytes, within⟩ := repetitionRejection_eq_none.mp accepted
        exact repetitionRejection_eq_none.mpr ⟨bytes, fun t mem => within t ((same t).mp mem)⟩
      rw [sampleTokenWithRepetition_eq sampling checked accepted', penalized_congr same]
    · rw [failed] at call
      cases call
  · rcases sampleTokenWithRepetition_cases F tokens s with
      ⟨-, -, token, after', done⟩ | ⟨error', failed⟩
    · rw [done] at call
      cases call
    · rw [failed] at call
      cases call
      rfl

/-- A token that is given twice, over logits that are zero. -/
theorem sampleTokenWithRepetition_once_repeated :
    ∃ token after, zeroOps.sampleTokenWithRepetition [5, 5]
        ⟨⟨List.replicate logitWords 0, List.replicate 18992 0⟩, ⟨1, 0⟩⟩ = (.ok token, after) ∧
      after.buffers.seen = List.replicate 18992 0 := by
  have checked : validateSampleLogits (List.replicate logitWords 0) = .ok () := by
    refine validateSampleLogits_ok List.length_replicate fun bits mem => ?_
    rw [List.eq_of_mem_replicate mem]
    rfl
  have bytes : seenBytes (List.replicate logitWords 0) ≤
      (List.replicate 18992 (0 : UInt8)).length := by
    rw [seenBytes, List.length_replicate, List.length_replicate]
    decide
  have within : ∀ token ∈ ([5, 5] : List Token),
      token.toNat < (List.replicate logitWords (0 : Word)).length := by
    intro token mem
    obtain rfl : token = 5 := List.eq_of_mem_replicate (n := 2) mem
    rw [List.length_replicate]
    decide
  have accepted : repetitionRejection ⟨List.replicate logitWords 0, List.replicate 18992 0⟩
      [5, 5] = none :=
    repetitionRejection_eq_none.mpr ⟨bytes, within⟩
  have call := sampleTokenWithRepetition_eq (F := zeroOps) ⟨1, 0⟩ checked accepted
  exact ⟨_, _, call, ((sampleTokenWithRepetition_once zeroOps [5, 5]).1 _ _ _ _ _ call).2.1⟩

end Promptboot
