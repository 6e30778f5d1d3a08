import Mathlib.Data.BitVec

/-!
# Single bits of a mask

A mask whose bits stand for things is tested, set and cleared one bit at a time.

`getLsbD_set` and `getLsbD_clear` say what becomes of each bit, and `and_bit_ne_zero_iff` turns the
test of a program into the bit it looks at.
-/

namespace Bits

variable {w i j : Nat} {mask : BitVec w}

/-- The mask of one bit. -/
lemma getLsbD_bit (hj : j < w) : (1#w <<< i).getLsbD j = decide (j = i) := by
  simp only [BitVec.getLsbD_shiftLeft, BitVec.getLsbD_one]
  by_cases same : j = i
  · subst same
    simp [hj]
    omega
  · simp only [same, decide_false]
    simp
    omega

/-- Setting a bit leaves the others. -/
lemma getLsbD_set (hj : j < w) :
    (mask ||| 1#w <<< i).getLsbD j = (mask.getLsbD j || decide (j = i)) := by
  rw [BitVec.getLsbD_or, getLsbD_bit hj]

/-- Clearing a bit leaves the others. -/
lemma getLsbD_clear (hj : j < w) :
    (mask &&& ~~~(1#w <<< i)).getLsbD j = (mask.getLsbD j && decide (j ≠ i)) := by
  rw [BitVec.getLsbD_and, BitVec.getLsbD_not, getLsbD_bit hj]
  simp [hj]

/-- Masking with one bit tests it. -/
lemma and_bit_ne_zero_iff (hi : i < w) : mask &&& 1#w <<< i ≠ 0 ↔ mask.getLsbD i = true := by
  constructor
  · intro set
    by_contra unset
    apply set
    apply BitVec.eq_of_getLsbD_eq
    intro j hj
    rw [BitVec.getLsbD_and, getLsbD_bit hj]
    by_cases same : j = i
    · simpa [same] using unset
    · simp [same]
  · intro set zero
    have at_bit := congrArg (BitVec.getLsbD · i) zero
    simp only [BitVec.getLsbD_and, getLsbD_bit hi, set] at at_bit
    simp at at_bit

end Bits
