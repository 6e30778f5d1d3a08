import Promptboot.Primitive.KernelsInside

/-!
# Validation is enough for the kernels

The schema of each operation gives its kernel the sizes it needs, whatever the dimensions. So every
access of `execute` is one that the schema allows, and the words it writes are those of the output:
all of them, unless a quantized product stops at a block.

`Obedient` is a kernel under its schema, with a lemma for each of the nine (`quantized_obedient`,
`gqaAttention_obedient` and their like) from the sizes that `vectorSchema_ok` to
`attentionSchema_ok` give. The headline is `execute_staysInside`, and `quantized_stops_early` is the
run that makes its exception necessary.
-/

namespace Promptboot.Primitive
open Fallible

section Schema

variable {r : PrimitiveRequest} {s : Schema} {left right n : Nat}

/-- A checked product is the product that fits. -/
lemma checkedMul_eq_ok :
    checkedMul left right = .ok n ↔ left * right < 2 ^ 64 ∧ left * right = n := by
  rw [checkedMul]
  split_ifs with fits
  · exact ⟨fun h => ⟨fits, Except.ok.inj h⟩, fun h => congrArg Except.ok h.2⟩
  · refine ⟨fun h => ?_, fun h => absurd h.1 fits⟩
    cases h

/-- A checked sum is the sum that fits. -/
lemma checkedAdd_eq_ok :
    checkedAdd left right = .ok n ↔ left + right < 2 ^ 64 ∧ left + right = n := by
  rw [checkedAdd]
  split_ifs with fits
  · exact ⟨fun h => ⟨fits, Except.ok.inj h⟩, fun h => congrArg Except.ok h.2⟩
  · refine ⟨fun h => ?_, fun h => absurd h.1 fits⟩
    cases h

/-- What an accepted vector operation declares. -/
lemma vectorSchema_ok {inputFactor auxFactor : Nat} {words : Nat → Except PrimitiveStatus Nat}
    {auxF32 : Bool} (h : vectorSchema r inputFactor auxFactor words auxF32 = .ok s) :
    0 < r.dim0.toNat ∧ s.inputBytes = r.dim0.toNat * inputFactor * 4 ∧ s.inputBytes < 2 ^ 64 ∧
      s.auxBytes = r.dim0.toNat * auxFactor * 4 ∧ s.auxBytes < 2 ^ 64 ∧
      words r.dim0.toNat = .ok s.outputWords := by
  rw [vectorSchema] at h
  split_ifs at h with unused
  obtain ⟨_, inputWords, h⟩ := bind_eq_ok.mp h
  obtain ⟨inputBytes, input, h⟩ := bind_eq_ok.mp h
  obtain ⟨_, auxWords, h⟩ := bind_eq_ok.mp h
  obtain ⟨auxBytes, aux, h⟩ := bind_eq_ok.mp h
  obtain ⟨outputWords, output, h⟩ := bind_eq_ok.mp h
  obtain ⟨_, rfl⟩ := checkedMul_eq_ok.mp inputWords
  obtain ⟨_, rfl⟩ := checkedMul_eq_ok.mp auxWords
  obtain ⟨inputFits, rfl⟩ := checkedMul_eq_ok.mp input
  obtain ⟨auxFits, rfl⟩ := checkedMul_eq_ok.mp aux
  cases h
  refine ⟨Nat.pos_of_ne_zero fun zero => unused ?_, rfl, inputFits, rfl, auxFits, output⟩
  simp [zero]

/-- What an accepted quantized product declares. -/
lemma quantizedSchema_ok {blockBytes : Nat} (h : quantizedSchema r blockBytes = .ok s) :
    0 < r.dim0.toNat ∧ r.dim1.toNat % 32 = 0 ∧
      s.inputBytes = r.dim0.toNat * (r.dim1.toNat / 32) * blockBytes ∧ s.inputBytes < 2 ^ 64 ∧
      s.auxBytes = r.dim1.toNat * 4 ∧ s.auxBytes < 2 ^ 64 ∧
      s.outputWords = r.dim0.toNat * r.dim1.toNat + 1 + r.dim0.toNat := by
  rw [quantizedSchema] at h
  split_ifs at h with unused
  obtain ⟨_, blocks, h⟩ := bind_eq_ok.mp h
  obtain ⟨_, dequant, h⟩ := bind_eq_ok.mp h
  obtain ⟨_, input, h⟩ := bind_eq_ok.mp h
  obtain ⟨_, aux, h⟩ := bind_eq_ok.mp h
  obtain ⟨_, front, h⟩ := bind_eq_ok.mp h
  obtain ⟨_, output, h⟩ := bind_eq_ok.mp h
  obtain ⟨_, rfl⟩ := checkedMul_eq_ok.mp blocks
  obtain ⟨_, rfl⟩ := checkedMul_eq_ok.mp dequant
  obtain ⟨inputFits, rfl⟩ := checkedMul_eq_ok.mp input
  obtain ⟨auxFits, rfl⟩ := checkedMul_eq_ok.mp aux
  obtain ⟨_, rfl⟩ := checkedAdd_eq_ok.mp front
  obtain ⟨_, rfl⟩ := checkedAdd_eq_ok.mp output
  cases h
  simp only [Bool.or_eq_true, decide_eq_true_eq, not_or, ne_eq, not_not] at unused
  exact ⟨Nat.pos_of_ne_zero unused.1.1.1, unused.1.2, rfl, inputFits, rfl, auxFits, rfl⟩

/-- What an accepted rotation declares. -/
lemma ropeSchema_ok (h : ropeSchema r = .ok s) :
    (r.dim0.toNat = 4 ∨ r.dim0.toNat = 64) ∧ r.position.toNat < contextLimit ∧
      s.inputBytes = r.dim0.toNat * r.dim1.toNat * 4 ∧ s.inputBytes < 2 ^ 64 ∧ s.auxBytes = 0 ∧
      s.outputWords = r.dim0.toNat * r.dim1.toNat := by
  rw [ropeSchema] at h
  split_ifs at h with unused
  obtain ⟨_, words, h⟩ := bind_eq_ok.mp h
  obtain ⟨_, input, h⟩ := bind_eq_ok.mp h
  obtain ⟨_, rfl⟩ := checkedMul_eq_ok.mp words
  obtain ⟨inputFits, rfl⟩ := checkedMul_eq_ok.mp input
  cases h
  simp only [Bool.or_eq_true, decide_eq_true_eq, not_or] at unused
  obtain ⟨⟨⟨dim, _⟩, context⟩, _⟩ := unused
  refine ⟨or_iff_not_imp_left.mpr ?_, Nat.not_le.mp context, rfl, inputFits, rfl, rfl⟩
  simpa using dim

/-- What an accepted attention declares. -/
lemma attentionSchema_ok (h : attentionSchema r = .ok s) :
    0 < r.dim0.toNat ∧ r.dim1.toNat ∣ r.dim0.toNat ∧ 0 < r.dim3.toNat ∧
      s.inputBytes = (r.dim0.toNat * r.dim3.toNat +
        r.dim2.toNat * r.dim1.toNat * r.dim3.toNat * 2) * 4 ∧ s.inputBytes < 2 ^ 64 ∧
      s.auxBytes = 0 ∧ s.outputWords = r.dim0.toNat * (r.dim3.toNat + r.dim2.toNat * 2) := by
  rw [attentionSchema] at h
  split_ifs at h with unused
  obtain ⟨_, queries, h⟩ := bind_eq_ok.mp h
  obtain ⟨_, heads, h⟩ := bind_eq_ok.mp h
  obtain ⟨_, kv, h⟩ := bind_eq_ok.mp h
  obtain ⟨_, double, h⟩ := bind_eq_ok.mp h
  obtain ⟨_, words, h⟩ := bind_eq_ok.mp h
  obtain ⟨_, scores, h⟩ := bind_eq_ok.mp h
  obtain ⟨_, perHead, h⟩ := bind_eq_ok.mp h
  obtain ⟨_, input, h⟩ := bind_eq_ok.mp h
  obtain ⟨_, output, h⟩ := bind_eq_ok.mp h
  obtain ⟨_, rfl⟩ := checkedMul_eq_ok.mp queries
  obtain ⟨_, rfl⟩ := checkedMul_eq_ok.mp heads
  obtain ⟨_, rfl⟩ := checkedMul_eq_ok.mp kv
  obtain ⟨_, rfl⟩ := checkedMul_eq_ok.mp double
  obtain ⟨_, rfl⟩ := checkedAdd_eq_ok.mp words
  obtain ⟨_, rfl⟩ := checkedMul_eq_ok.mp scores
  obtain ⟨_, rfl⟩ := checkedAdd_eq_ok.mp perHead
  obtain ⟨inputFits, rfl⟩ := checkedMul_eq_ok.mp input
  obtain ⟨_, rfl⟩ := checkedMul_eq_ok.mp output
  cases h
  simp only [Bool.or_eq_true, decide_eq_true_eq, not_or] at unused
  obtain ⟨⟨⟨⟨⟨⟨zero, kvZero⟩, divisible⟩, dim⟩, _⟩, _⟩, _⟩ := unused
  refine ⟨Nat.pos_of_ne_zero zero, ?_, ?_, rfl, inputFits, rfl, rfl⟩
  · have kv_small := r.dim1.toNat_lt
    have exact_ : isDivisible r.dim0.toUInt64 r.dim1.toUInt64 = _ :=
      isDivisible_eq_mod (by rw [UInt32.toNat_toUInt64]; exact Nat.pos_of_ne_zero kvZero)
        (by rw [UInt32.toNat_toUInt64]; omega)
    rw [exact_, UInt32.toNat_toUInt64, UInt32.toNat_toUInt64] at divisible
    exact Nat.dvd_of_mod_eq_zero (by simpa using divisible)
  · rcases Nat.eq_zero_or_pos r.dim3.toNat with none | some
    · simp [none] at dim
    · exact some

end Schema

/-- The words of the output that are written when a request ends so. -/
def Schema.Writes (s : Schema) (outcome : Outcome) (word : Nat) : Prop :=
  match outcome.status with
  | .ok | .nonfiniteOutput => word < s.outputWords
  | .blockEncoding => word < outcome.index.toNat * 32
  | _ => False

/-- What is written when a request ends, and that only a quantized product stops at a block. -/
def ends (operation : UInt32) (s : Schema) (outcome : Outcome) (written : Set Nat) : Prop :=
  Wrote (s.Writes outcome) written ∧
    (outcome.status = .blockEncoding → operation = 2 ∨ operation = 3)

/-- What `executeUntil` rests on: the words that are checked are declared, and the kernel writes its
words. -/
structure Obedient (ops : Sse2Ops) (r : PrimitiveRequest) (s : Schema) : Prop where
  counted : s.Counted
  input : (inside s).Obeys ∅
    (checkedInputWords r.operation r.dim0.toNat r.dim1.toNat r.dim2.toNat r.dim3.toNat)
    (fun words written => words * 4 ≤ s.inputBytes ∧ written = ∅) (ends r.operation s)
  aux : checkedAuxWords r.operation r.dim0.toNat r.dim1.toNat * 4 ≤ s.auxBytes
  kernel : (inside s).Obeys ∅
    (runKernel ops r.operation r.dim0.toNat r.dim1.toNat r.dim2.toNat r.dim3.toNat
      r.position.toNat)
    (fun words written => words = s.outputWords ∧ Wrote (· < s.outputWords) written)
    (ends r.operation s)

section Execute

variable {ops : Sse2Ops} {r : PrimitiveRequest} {s : Schema}

/-- A check of words that are declared stops where nothing is written. -/
lemma checked_obeys {base : Pointer} {words : Nat} (fits : words * 4 < 2 ^ 64)
    (allowed : ∀ word < words, (inside s).allows ∅ (.word base word)) :
    (inside s).Obeys ∅ (if words ≠ 0 then
        (checkFinite base words).mapError (⟨.nonfiniteInput, ·⟩) else pure ())
      (fun _ written => written = ∅) (ends r.operation s) := by
  split_ifs with some
  · refine .mapError (checkFinite_obeys fits allowed fun index => ⟨fun word => ?_, nofun⟩)
    simp [Schema.Writes]
  · exact .pure rfl

/-- `executeUntil` obeys the schema, and all that is written is what its outcome says. -/
lemma executeUntil_obeys (obedient : Obedient ops r s) :
    (inside s).Obeys ∅ (executeUntil ops r.operation r.dim0.toNat r.dim1.toNat r.dim2.toNat
      r.dim3.toNat r.position.toNat) (ends r.operation s) (ends r.operation s) := by
  have counted := obedient.counted
  have input := counted.input
  have aux := counted.aux
  have output := counted.output
  have declared := obedient.aux
  refine .seq obedient.input ?_
  rintro words _ ⟨within, rfl⟩
  refine .seq (checked_obeys (by omega) fun word below => ?_) ?_
  · show word * 4 + 4 ≤ s.inputBytes
    omega
  rintro - _ rfl
  refine .seq (checked_obeys (by omega) fun word below => ?_) ?_
  · show word * 4 + 4 ≤ s.auxBytes
    omega
  rintro - _ rfl
  refine .seq obedient.kernel ?_
  rintro _ written ⟨rfl, wrote⟩
  refine .seq (.mapError (checkFinite_obeys (by omega) ?_ fun index => ⟨wrote, nofun⟩)) ?_
  · exact fun word below => (wrote word).mpr below
  rintro - _ rfl
  exact .pure ⟨wrote, nofun⟩

/-- The addition of bias and residual keeps to its schema. -/
lemma biasResidual_obedient (operation : r.operation = 1)
    (accepted : vectorSchema r 3 0 .ok false = .ok s) (small : s.outputWords < 2 ^ 32) :
    Obedient ops r s := by
  obtain ⟨some, input, inputFits, aux, auxFits, output⟩ := vectorSchema_ok accepted
  have words := Except.ok.inj output
  have counted : s.Counted := ⟨inputFits, auxFits, small⟩
  refine ⟨counted, ?_, ?_, ?_⟩
  · rw [operation]
    exact obeys_indexMul (by omega) ⟨by omega, rfl⟩
  · rw [operation]
    exact Nat.zero_le _
  · rw [operation]
    refine .seq (biasResidual_obeys counted ops (by omega) words) ?_
    exact fun _ _ wrote => .pure ⟨words, words ▸ wrote⟩

/-- The quantized products keep to their schema. -/
lemma quantized_obedient (operation : r.operation = 2 ∨ r.operation = 3)
    (accepted : quantizedSchema r (blockBytes (r.operation = 2)) = .ok s)
    (small : s.outputWords < 2 ^ 32) : Obedient ops r s := by
  obtain ⟨some, whole, input, inputFits, aux, auxFits, output⟩ := quantizedSchema_ok accepted
  have counted : s.Counted := ⟨inputFits, auxFits, small⟩
  have not_one : r.operation ≠ 1 := by
    rcases operation with operation | operation <;> rw [operation] <;> decide
  refine ⟨counted, ?_, ?_, ?_⟩
  · rw [checkedInputWords, if_neg not_one, if_pos operation]
    exact .pure ⟨Nat.zero_le _, rfl⟩
  · rw [checkedAuxWords, if_pos operation]
    omega
  · rw [runKernel, if_neg not_one, if_pos operation]
    refine .seq (.mapError ((quantized_obeys counted ops whole (by omega) (by omega) some
      output.symm).mono (fun _ _ wrote => wrote) fun index _ wrote => ⟨wrote, fun _ => operation⟩)) ?_
    intro _ written wrote
    refine .bind (obeys_indexMul (by omega) (.bind (obeys_indexAdd (by omega) ?_)))
    exact obeys_indexAdd (by omega) ⟨output.symm, output ▸ wrote⟩

/-- The normalisation keeps to its schema. -/
lemma rmsnorm_obedient (operation : r.operation = 4)
    (accepted : vectorSchema r 1 1 .ok true = .ok s) (small : s.outputWords < 2 ^ 32) :
    Obedient ops r s := by
  obtain ⟨some, input, inputFits, aux, auxFits, output⟩ := vectorSchema_ok accepted
  have words := Except.ok.inj output
  have counted : s.Counted := ⟨inputFits, auxFits, small⟩
  refine ⟨counted, ?_, ?_, ?_⟩
  · rw [operation]
    exact .pure ⟨by omega, rfl⟩
  · rw [operation]
    show r.dim0.toNat * 4 ≤ s.auxBytes
    omega
  · rw [operation]
    refine .seq (rmsnorm_obeys counted ops (by omega) (by omega) words) ?_
    exact fun _ _ wrote => .pure ⟨words, words ▸ wrote⟩

/-- The rotation keeps to its schema. -/
lemma rope_obedient (operation : r.operation = 5) (accepted : ropeSchema r = .ok s)
    (small : s.outputWords < 2 ^ 32) : Obedient ops r s := by
  obtain ⟨dim, context, input, inputFits, aux, output⟩ := ropeSchema_ok accepted
  have counted : s.Counted := ⟨inputFits, by omega, small⟩
  refine ⟨counted, ?_, ?_, ?_⟩
  · rw [operation]
    exact obeys_indexMul (by omega) ⟨by omega, rfl⟩
  · rw [operation]
    exact Nat.zero_le _
  · rw [operation]
    refine .seq (rope_obeys counted ops dim context (by omega) output.symm) ?_
    exact fun _ _ wrote => obeys_indexMul (by omega) ⟨output.symm, output ▸ wrote⟩

/-- The softmax keeps to its schema. -/
lemma softmax_obedient (operation : r.operation = 6)
    (accepted : vectorSchema r 1 0 .ok false = .ok s) (small : s.outputWords < 2 ^ 32) :
    Obedient ops r s := by
  obtain ⟨some, input, inputFits, aux, auxFits, output⟩ := vectorSchema_ok accepted
  have words := Except.ok.inj output
  have counted : s.Counted := ⟨inputFits, auxFits, small⟩
  refine ⟨counted, ?_, ?_, ?_⟩
  · rw [operation]
    exact .pure ⟨by omega, rfl⟩
  · rw [operation]
    exact Nat.zero_le _
  · rw [operation]
    refine .seq (softmax_obeys counted ops some (by omega) words) ?_
    exact fun _ _ wrote => .pure ⟨words, words ▸ wrote⟩

/-- The attention keeps to its schema. -/
lemma gqaAttention_obedient (operation : r.operation = 7) (accepted : attentionSchema r = .ok s)
    (small : s.outputWords < 2 ^ 32) : Obedient ops r s := by
  obtain ⟨some, grouped, dim, input, inputFits, aux, output⟩ := attentionSchema_ok accepted
  have counted : s.Counted := ⟨inputFits, by omega, small⟩
  have kv_le : r.dim2.toNat * r.dim1.toNat ≤ r.dim2.toNat * r.dim1.toNat * r.dim3.toNat :=
    Nat.le_mul_of_pos_right _ dim
  have perHead_le : r.dim3.toNat + r.dim2.toNat * 2 ≤
      r.dim0.toNat * (r.dim3.toNat + r.dim2.toNat * 2) := Nat.le_mul_of_pos_left _ some
  refine ⟨counted, ?_, ?_, ?_⟩
  · rw [operation]
    refine .bind (obeys_indexMul (by omega) (.bind (obeys_indexMul (by omega) ?_)))
    refine .bind (obeys_indexMul (by omega) (.bind (obeys_indexMul (by omega) ?_)))
    exact obeys_indexAdd (by omega) ⟨by omega, rfl⟩
  · rw [operation]
    exact Nat.zero_le _
  · rw [operation]
    refine .seq (gqaAttention_obeys counted ops r.dim0.toNat_lt grouped (by omega) output.symm some
      dim) ?_
    intro _ written wrote
    refine .bind (obeys_indexMul (by omega) (.bind (obeys_indexAdd (by omega) ?_)))
    exact obeys_indexMul (by omega) ⟨output.symm, output ▸ wrote⟩

/-- The activation keeps to its schema. -/
lemma siluSwiglu_obedient (operation : r.operation = 8)
    (accepted : vectorSchema r 1 1 (checkedMul · 2) true = .ok s)
    (small : s.outputWords < 2 ^ 32) : Obedient ops r s := by
  obtain ⟨some, input, inputFits, aux, auxFits, output⟩ := vectorSchema_ok accepted
  have words := (checkedMul_eq_ok.mp output).2
  have counted : s.Counted := ⟨inputFits, auxFits, small⟩
  refine ⟨counted, ?_, ?_, ?_⟩
  · rw [operation]
    exact .pure ⟨by omega, rfl⟩
  · rw [operation]
    show r.dim0.toNat * 4 ≤ s.auxBytes
    omega
  · rw [operation]
    refine .seq (siluSwiglu_obeys counted ops (by omega) (by omega) words) ?_
    exact fun _ _ wrote => obeys_indexMul (by omega) ⟨words, words ▸ wrote⟩

/-- The search for the maximum keeps to its schema. -/
lemma argmax_obedient (operation : r.operation = 9)
    (accepted : vectorSchema r 1 0 (fun _ => .ok 1) false = .ok s)
    (small : s.outputWords < 2 ^ 32) : Obedient ops r s := by
  obtain ⟨some, input, inputFits, aux, auxFits, output⟩ := vectorSchema_ok accepted
  have words := (Except.ok.inj output).symm
  have counted : s.Counted := ⟨inputFits, auxFits, small⟩
  refine ⟨counted, ?_, ?_, ?_⟩
  · rw [operation]
    exact .pure ⟨by omega, rfl⟩
  · rw [operation]
    exact Nat.zero_le _
  · rw [operation]
    refine .seq (argmax_obeys counted ops some (by omega) words) ?_
    intro _ written wrote
    refine .fail ⟨?_, nofun⟩
    rw [← words] at wrote
    exact wrote

/-- Every operation the schema accepts is one whose kernel obeys it. -/
lemma obedient_of_schema (accepted : schema r = .ok s) (small : s.outputWords < 2 ^ 32) :
    Obedient ops r s := by
  rw [schema] at accepted
  split_ifs at accepted with bias q4 q8 norm rope softmax attention silu argmax
  · exact biasResidual_obedient bias accepted small
  · exact quantized_obedient (.inl q4) (by simpa [blockBytes, q4] using accepted) small
  · exact quantized_obedient (.inr q8) (by simpa [blockBytes, q8] using accepted) small
  · exact rmsnorm_obedient norm accepted small
  · exact rope_obedient rope accepted small
  · exact softmax_obedient softmax accepted small
  · exact gqaAttention_obedient attention accepted small
  · exact siluSwiglu_obedient silu accepted small
  · exact argmax_obedient argmax accepted small

end Execute

/-- The accesses are ones that the schema allows, each where it is made. -/
structure StaysInside (s : Schema) (accesses : List Access) : Prop where
  index : ∀ value, .index value ∈ accesses → value < 2 ^ 64
  word : ∀ base word, base ≠ .output → .word base word ∈ accesses →
    word * 4 + 4 ≤ s.declaredBytes base
  bytes : ∀ base byte count, .bytes base byte count ∈ accesses →
    byte + count ≤ s.declaredBytes base
  readBack : ∀ before word rest, accesses = before ++ .word .output word :: rest →
    .write word ∈ before
  write : ∀ word, .write word ∈ accesses → word < s.outputWords

/-- Accesses that the protocol permits stay inside. -/
lemma staysInside_of_permits {s : Schema} {accesses : List Access} {written : Set Nat}
    (permitted : (inside s).Permits accesses written) : StaysInside s accesses := by
  have allowed {i : Access} (mem : i ∈ accesses) : ∃ q, (inside s).allows q i := by
    obtain ⟨before, rest, cut⟩ := List.append_of_mem mem
    obtain ⟨q, _, allowed⟩ := permitted.split cut
    exact ⟨q, allowed⟩
  refine ⟨fun value mem => ?_, fun base word input mem => ?_, fun base byte count mem => ?_,
    fun before word rest cut => ?_, fun word mem => ?_⟩
  · obtain ⟨_, fits⟩ := allowed mem
    exact fits
  · obtain ⟨_, within⟩ := allowed mem
    cases base with
    | output => exact absurd rfl input
    | _ => exact within
  · obtain ⟨_, within⟩ := allowed mem
    exact within
  · obtain ⟨q, reached, wrote⟩ := permitted.split cut
    exact (permits_written reached word).mp wrote
  · obtain ⟨_, below⟩ := allowed mem
    exact below

/-- What `execute` touches for an accepted request, and what it has written when it ends. -/
theorem execute_staysInside (ops : Sse2Ops) (m : Memories) (r : PrimitiveRequest) (s : Schema)
    (accepted : schema r = .ok s) (small : s.outputWords ≤ 2 ^ 32 - 1) :
    StaysInside s (execute ops r m).2 ∧
    (r.operation = 7 → ∀ queryHead < r.dim0.toNat,
      kvHeadOf r.dim0.toNat r.dim1.toNat queryHead < r.dim1.toNat) ∧
    (∀ word, .write word ∈ (execute ops r m).2 ↔ s.Writes (execute ops r m).1 word) ∧
    ((execute ops r m).1.status = .blockEncoding → r.operation = 2 ∨ r.operation = 3) := by
  have obedient : Obedient ops r s := obedient_of_schema accepted (by omega)
  obtain ⟨written, permitted, returns, stops⟩ := executeUntil_obeys obedient ⟨m, []⟩ .nil
  have ended : (inside s).Permits (execute ops r m).2 written ∧
      ends r.operation s (execute ops r m).1 written := by
    rw [execute]
    rcases run : executeUntil ops r.operation r.dim0.toNat r.dim1.toNat r.dim2.toNat r.dim3.toNat
      r.position.toNat ⟨m, []⟩ with ⟨outcome | outcome, final⟩
    · rw [run] at permitted stops
      exact ⟨permitted, stops outcome rfl⟩
    · rw [run] at permitted returns
      exact ⟨permitted, returns outcome rfl⟩
  refine ⟨staysInside_of_permits ended.1, fun operation queryHead below => ?_, fun word => ?_,
    ended.2.2⟩
  · rw [schema, operation] at accepted
    exact kvHeadOf_lt r.dim0.toNat_lt (attentionSchema_ok accepted).2.1 below
  · exact (permits_written ended.1 word).symm.trans (ended.2.1 word)

section Requests

/-- Instructions that all give zero. -/
def zeroOps : Sse2Ops where
  add _ _ := 0
  sub _ _ := 0
  mul _ _ := 0
  greater _ _ := false
  f32ToF64 _ := 0
  f64ToF32 _ := 0
  f64Add _ _ := 0
  f64Div _ _ := 0
  div _ _ := 0
  sqrt _ := 0
  fromI32 _ := 0
  fromU32 _ := 0
  truncI32 _ := 0

/-- A request by its operation, the lengths it declares and its dimensions. -/
def plainRequest (operation : UInt32) (inputBytes auxBytes : Nat) (dim0 dim1 dim2 dim3 : UInt32) :
    PrimitiveRequest :=
  ⟨1, operation, 0, inputBytes, 0, auxBytes, 0, 0, 0, 0, dim0, dim1, dim2, dim3, 0, 0⟩

/-- A small attention is accepted. -/
lemma schema_attention :
    schema (plainRequest 7 128 0 4 2 3 2) = .ok ⟨128, 0, 32, true, false⟩ := by
  have divisible : isDivisible 4 2 = true := by decide +kernel
  simp [schema, attentionSchema, plainRequest, divisible, checkedMul, checkedAdd, f32Bytes,
    contextLimit]
  rfl

/-- The attention of four query heads over three positions. -/
theorem execute_staysInside_attention :
    StaysInside ⟨128, 0, 32, true, false⟩
      (execute zeroOps (plainRequest 7 128 0 4 2 3 2) fun _ _ => 0).2 ∧
    ∀ queryHead < 4, kvHeadOf 4 2 queryHead < 2 :=
  have kept := execute_staysInside zeroOps (fun _ _ => 0) (plainRequest 7 128 0 4 2 3 2)
    ⟨128, 0, 32, true, false⟩ schema_attention (by decide)
  ⟨kept.1, kept.2.1 rfl⟩

/-- One Q4 block whose scale is not finite: the product stops before it has written a word. -/
theorem quantized_stops_early :
    ¬ ∀ (ops : Sse2Ops) (m : Memories) (r : PrimitiveRequest) (s : Schema), schema r = .ok s →
      s.outputWords ≤ 2 ^ 32 - 1 → r.inputBytes = s.inputBytes → r.auxBytes = s.auxBytes →
      ∀ word, .write word ∈ (execute ops r m).2 ↔ word < s.outputWords := by
  intro all
  let m : Memories := fun base _ => if base = .input then 0x7c else 0
  have written := (all zeroOps m (plainRequest 2 18 128 1 32 0 0) ⟨18, 128, 34, false, true⟩ rfl
    (by decide) rfl rfl 0).mpr (by decide)
  revert written
  decide +kernel

end Requests

end Promptboot.Primitive
