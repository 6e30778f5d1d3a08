import Promptboot.Lib.LongDivision
import Promptboot.Primitive.Request

/-!
# Division without a division

`is_divisible` (`lib.rs`) and `unsigned_divide` (`fp32_sse2.rs`) shift the bits of the numerator into
a running remainder. Up to a denominator of 2^63 the remainder keeps below the top bit, so the shift
loses nothing and both are exact.

The helpers `toNat_setBit` and `toNat_shiftLeft_one` turn one turn of either loop into the library's
`turn` on numbers; `toNat_divideAt` and `toNat_remainderAt` are the inductions. The headline
`division_exact` is about both functions, `isDivisible_eq_mod` about the test alone.
-/

namespace Promptboot.Primitive
open LongDivision

/-- The remainder shifted, with a bit of the numerator below it. -/
def bringDown (numerator remainder : UInt64) (bit : Nat) : UInt64 :=
  remainder <<< 1 ||| (numerator >>> UInt64.ofNat bit) &&& 1

/-- A turn of `is_divisible` on its remainder. -/
def remainderTurn (numerator denominator remainder : UInt64) (bit : Nat) : UInt64 :=
  let remainder := bringDown numerator remainder bit
  if remainder ≥ denominator then remainder - denominator else remainder

/-- A turn of `unsigned_divide` on its quotient and remainder. -/
def divideTurn (numerator denominator : UInt64) (state : UInt64 × UInt64) (bit : Nat) :
    UInt64 × UInt64 :=
  let remainder := bringDown numerator state.2 bit
  if remainder ≥ denominator then
    (state.1 ||| 1 <<< UInt64.ofNat bit, remainder - denominator)
  else
    (state.1, remainder)

/-- The remainder of `is_divisible` when the bits below `bit` are left. -/
def remainderAt (numerator denominator : UInt64) (bit : Nat) : UInt64 :=
  stateAt (remainderTurn numerator denominator) 0 64 bit

/-- The quotient and the remainder of `unsigned_divide` when the bits below `bit` are left. -/
def divideAt (numerator denominator : UInt64) (bit : Nat) : UInt64 × UInt64 :=
  stateAt (divideTurn numerator denominator) (0, 0) 64 bit

/-- `unsigned_divide` -/
def unsignedDivide (numerator denominator : UInt64) : UInt64 :=
  ((List.range 64).reverse.foldl (divideTurn numerator denominator) (0, 0)).1

section Exact

variable {numerator denominator remainder : UInt64} {bit : Nat}

/-- `is_divisible` asks whether the last remainder is zero. -/
lemma isDivisible_eq :
    isDivisible numerator denominator = (remainderAt numerator denominator 0 == 0) := by
  rw [remainderAt, stateAt_zero]
  rfl

/-- `unsigned_divide` returns the last quotient. -/
lemma unsignedDivide_eq :
    unsignedDivide numerator denominator = (divideAt numerator denominator 0).1 := by
  rw [divideAt, stateAt_zero]
  rfl

/-- Below the top bit the shift is a doubling. -/
lemma toNat_shiftLeft_one (room : remainder.toNat < 2 ^ 63) :
    (remainder <<< 1).toNat = 2 * remainder.toNat := by
  rw [UInt64.toNat_shiftLeft, Nat.mod_eq_of_lt]
  · rw [show (1 : UInt64).toNat % 64 = 1 from rfl, Nat.shiftLeft_eq]
    omega
  · rw [show (1 : UInt64).toNat % 64 = 1 from rfl, Nat.shiftLeft_eq]
    omega

/-- The amount of a shift. -/
lemma toNat_amount (below : bit < 64) : (UInt64.ofNat bit).toNat % 64 = bit := by
  rw [UInt64.toNat_ofNat', Nat.mod_eq_of_lt (a := bit) (by omega), Nat.mod_eq_of_lt below]

/-- The bit that is brought down. -/
lemma toNat_bit (below : bit < 64) :
    ((numerator >>> UInt64.ofNat bit) &&& 1).toNat = numerator.toNat >>> bit &&& 1 := by
  rw [UInt64.toNat_and, UInt64.toNat_shiftRight, toNat_amount below]
  rfl

/-- A bit set in a quotient. -/
lemma toNat_setBit {quotient : UInt64} (below : bit < 64) :
    (quotient ||| 1 <<< UInt64.ofNat bit).toNat = quotient.toNat ||| 1 <<< bit := by
  have power : 2 ^ bit < 2 ^ 64 := Nat.pow_lt_pow_right (by decide) below
  rw [UInt64.toNat_or, UInt64.toNat_shiftLeft, toNat_amount below,
    Nat.mod_eq_of_lt (by simpa [Nat.one_shiftLeft] using power)]
  rfl

/-- A turn is that of long division on the numbers the words stand for. -/
lemma toNat_divideTurn {quotient : UInt64} (small : remainder.toNat < denominator.toNat)
    (half : denominator.toNat ≤ 2 ^ 63) (below : bit < 64) :
    Prod.map UInt64.toNat UInt64.toNat
        (divideTurn numerator denominator (quotient, remainder) bit) =
      turn numerator.toNat denominator.toNat (quotient.toNat, remainder.toNat) bit := by
  have brought : (bringDown numerator remainder bit).toNat =
      remainder.toNat <<< 1 ||| (numerator.toNat >>> bit &&& 1) := by
    rw [bringDown, UInt64.toNat_or, toNat_shiftLeft_one (by omega), toNat_bit below,
      Nat.shiftLeft_eq, Nat.mul_comm, Nat.pow_one]
  simp only [divideTurn, turn, ← brought, ge_iff_le, UInt64.le_iff_toNat_le]
  split_ifs with fits
  · rw [Prod.map_apply, UInt64.toNat_sub_of_le _ _ (UInt64.le_iff_toNat_le.mpr fits),
      toNat_setBit below]
  · rfl

/-- `unsigned_divide` is long division, as long as the denominator leaves room for the shift. -/
lemma toNat_divideAt (positive : 0 < denominator.toNat) (half : denominator.toNat ≤ 2 ^ 63)
    (inside : bit ≤ 64) :
    Prod.map UInt64.toNat UInt64.toNat (divideAt numerator denominator bit) =
      taken numerator.toNat denominator.toNat bit := by
  have small (bit : Nat) : (taken numerator.toNat denominator.toNat bit).2 < denominator.toNat :=
    Nat.mod_lt _ positive
  refine stateAt_induction (divideTurn numerator denominator) (0, 0) 64
    (P := fun bit state =>
      Prod.map UInt64.toNat UInt64.toNat state = taken numerator.toNat denominator.toNat bit)
    ?_ ?_ inside
  · rw [← stateAt_turn positive numerator.toNat_lt (Nat.le_refl 64), stateAt_width]
    rfl
  · rintro bit ⟨quotient, remainder⟩ below before
    have left : remainder.toNat = _ := congrArg Prod.snd before
    rw [toNat_divideTurn (left ▸ small _) half below]
    exact (congrArg (turn _ _ · bit) before).trans (turn_taken positive)

/-- Both loops keep the same remainder. -/
lemma divideTurn_snd (state : UInt64 × UInt64) :
    (divideTurn numerator denominator state bit).2 =
      remainderTurn numerator denominator state.2 bit := by
  simp only [divideTurn, remainderTurn]
  split_ifs <;> rfl

/-- Both loops have the same remainder at every bit. -/
lemma divideAt_snd (inside : bit ≤ 64) :
    (divideAt numerator denominator bit).2 = remainderAt numerator denominator bit := by
  refine stateAt_induction (divideTurn numerator denominator) (0, 0) 64
    (P := fun bit state => state.2 = remainderAt numerator denominator bit) ?_ ?_ inside
  · rw [remainderAt, stateAt_width]
  · intro bit state below same
    rw [divideTurn_snd, same]
    exact (stateAt_of_lt _ _ _ below).symm

/-- The remainder of either loop is that of the bits taken so far. -/
lemma toNat_remainderAt (positive : 0 < denominator.toNat) (half : denominator.toNat ≤ 2 ^ 63)
    (inside : bit ≤ 64) :
    (remainderAt numerator denominator bit).toNat =
      numerator.toNat >>> bit % denominator.toNat := by
  rw [← divideAt_snd inside]
  exact congrArg Prod.snd (toNat_divideAt positive half inside)

/-- Up to a denominator of 2^63 the quotient is exact. -/
lemma toNat_unsignedDivide (positive : 0 < denominator.toNat)
    (half : denominator.toNat ≤ 2 ^ 63) :
    (unsignedDivide numerator denominator).toNat = numerator.toNat / denominator.toNat := by
  have both : Prod.map UInt64.toNat UInt64.toNat (divideAt numerator denominator 0) =
      taken numerator.toNat denominator.toNat 0 :=
    toNat_divideAt positive half (Nat.zero_le 64)
  have last := congrArg Prod.fst both
  rw [taken, Nat.shiftRight_zero, Nat.pow_zero, Nat.mul_one] at last
  rw [unsignedDivide_eq]
  exact last

/-- Up to a denominator of 2^63 the test is exact. -/
lemma isDivisible_eq_mod (positive : 0 < denominator.toNat) (half : denominator.toNat ≤ 2 ^ 63) :
    isDivisible numerator denominator = decide (numerator.toNat % denominator.toNat = 0) := by
  have last : (remainderAt numerator denominator 0).toNat = _ :=
    toNat_remainderAt positive half (Nat.zero_le 64)
  rw [Nat.shiftRight_zero] at last
  rw [isDivisible_eq, ← last, Bool.eq_iff_iff, beq_iff_eq, decide_eq_true_iff, ← UInt64.toNat_inj]
  rfl

end Exact

/-- Both loops are exact, and no shift of a remainder loses a bit. -/
theorem division_exact (numerator denominator : UInt64) (positive : 1 ≤ denominator.toNat)
    (half : denominator.toNat ≤ 2 ^ 63) :
    isDivisible numerator denominator = decide (numerator.toNat % denominator.toNat = 0) ∧
    (unsignedDivide numerator denominator).toNat = numerator.toNat / denominator.toNat ∧
    ∀ bit < 64,
      ((remainderAt numerator denominator (bit + 1)) <<< 1).toNat =
          2 * (remainderAt numerator denominator (bit + 1)).toNat ∧
        ((divideAt numerator denominator (bit + 1)).2 <<< 1).toNat =
          2 * (divideAt numerator denominator (bit + 1)).2.toNat := by
  refine ⟨isDivisible_eq_mod positive half, toNat_unsignedDivide positive half, ?_⟩
  intro bit below
  have inside : bit + 1 ≤ 64 := below
  have room : (remainderAt numerator denominator (bit + 1)).toNat < 2 ^ 63 := by
    have small := Nat.mod_lt (numerator.toNat >>> (bit + 1)) positive
    rw [toNat_remainderAt positive half inside]
    omega
  rw [divideAt_snd inside]
  exact ⟨toNat_shiftLeft_one room, toNat_shiftLeft_one room⟩

/-- Fourteen query heads in two groups. -/
theorem division_exact_heads :
    isDivisible 14 2 = decide ((14 : UInt64).toNat % (2 : UInt64).toNat = 0) ∧
    (unsignedDivide 14 7).toNat = (14 : UInt64).toNat / (7 : UInt64).toNat :=
  ⟨(division_exact 14 2 (by decide) (by decide)).1,
    (division_exact 14 7 (by decide) (by decide)).2.1⟩

end Promptboot.Primitive
