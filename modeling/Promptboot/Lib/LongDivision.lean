import Mathlib.Data.Nat.Basic
import Mathlib.Tactic.Common
import Mathlib.Tactic.Ring

/-!
# Long division, bit by bit

A loop takes the bits of the numerator from the highest one down. `stateAt` is its state when the
bits below a position are left, with the induction it obeys. `turn` brings one bit down, and `stateAt_turn` says
that the quotient and the remainder are always those of the bits taken so far.

The helpers `div_bringDown` and `mod_bringDown` are the arithmetic of one digit, over numbers;
`or_bit` and `shiftLeft_or_digit` turn the program's shifts into it. The headline `stateAt_turn` is
the induction on the bits that are left, with nothing assumed about the width but that the remainder
fits.
-/

namespace LongDivision

section Countdown

variable {σ : Type} (turn : σ → Nat → σ) (start : σ) (width : Nat)

/-- The state of a loop over the bits below `width`, highest first, when those below `bit` are
left. -/
def stateAt (bit : Nat) : σ := ((List.range width).drop bit).foldr (fun i s => turn s i) start

/-- With no bit left, all turns are taken. -/
lemma stateAt_zero :
    stateAt turn start width 0 = (List.range width).reverse.foldl turn start := by
  rw [List.foldl_reverse]
  rfl

/-- With all bits left, no turn is taken. -/
lemma stateAt_width : stateAt turn start width width = start := by
  rw [stateAt, List.drop_eq_nil_of_le (by rw [List.length_range]), List.foldr_nil]

/-- The turns so far are those before the last one, and the last one. -/
lemma stateAt_of_lt {bit : Nat} (h : bit < width) :
    stateAt turn start width bit = turn (stateAt turn start width (bit + 1)) bit := by
  have inside : bit < (List.range width).length := by rwa [List.length_range]
  rw [stateAt, List.drop_eq_getElem_cons inside, List.foldr_cons, List.getElem_range]
  rfl

/-- What holds at the start and is kept by every turn holds before and after each. -/
theorem stateAt_induction {P : Nat → σ → Prop} (first : P width start)
    (step : ∀ bit s, bit < width → P (bit + 1) s → P bit (turn s bit)) {bit : Nat}
    (h : bit ≤ width) : P bit (stateAt turn start width bit) := by
  induction h using Nat.decreasingInduction with
  | self => rwa [stateAt_width]
  | of_succ bit below ih =>
    rw [stateAt_of_lt turn start width below]
    exact step bit _ below ih

end Countdown

variable {n d a b bit : Nat}

/-- One more bit of a number. -/
lemma shiftRight_eq : n >>> bit = 2 * (n >>> (bit + 1)) + n >>> bit % 2 := by
  rw [Nat.shiftRight_succ]
  omega

/-- The remainder of a number with a digit brought down. -/
lemma mod_bringDown (hd : 0 < d) (hb : b < 2) :
    (2 * a + b) % d = if d ≤ 2 * (a % d) + b then 2 * (a % d) + b - d else 2 * (a % d) + b := by
  have small := Nat.mod_lt a hd
  have same : (2 * a + b) % d = (2 * (a % d) + b) % d := by
    conv_lhs => rw [← Nat.div_add_mod a d]
    rw [show 2 * (d * (a / d) + a % d) + b = 2 * (a % d) + b + d * (2 * (a / d)) by ring,
      Nat.add_mul_mod_self_left]
  rw [same]
  split_ifs with fits
  · rw [Nat.mod_eq_sub_mod fits, Nat.mod_eq_of_lt (by omega)]
  · exact Nat.mod_eq_of_lt (by omega)

/-- The quotient of a number with a digit brought down. -/
lemma div_bringDown (hd : 0 < d) (hb : b < 2) :
    (2 * a + b) / d = 2 * (a / d) + if d ≤ 2 * (a % d) + b then 1 else 0 := by
  have small := Nat.mod_lt a hd
  have split : (2 * a + b) / d = 2 * (a / d) + (2 * (a % d) + b) / d := by
    conv_lhs => rw [← Nat.div_add_mod a d]
    rw [show 2 * (d * (a / d) + a % d) + b = 2 * (a % d) + b + d * (2 * (a / d)) by ring,
      Nat.add_mul_div_left _ _ hd, Nat.add_comm]
  rw [split]
  congr 1
  split_ifs with fits
  · exact Nat.div_eq_of_lt_le (by omega) (by omega)
  · exact Nat.div_eq_of_lt (by omega)

/-- The remainder of the bits taken so far, one bit on. -/
lemma shiftRight_mod (hd : 0 < d) :
    n >>> bit % d =
      if d ≤ 2 * (n >>> (bit + 1) % d) + n >>> bit % 2 then
        2 * (n >>> (bit + 1) % d) + n >>> bit % 2 - d
      else
        2 * (n >>> (bit + 1) % d) + n >>> bit % 2 := by
  rw [← mod_bringDown hd (Nat.mod_lt _ (by decide)), ← shiftRight_eq]

/-- The quotient of the bits taken so far, one bit on. -/
lemma shiftRight_div (hd : 0 < d) :
    n >>> bit / d = 2 * (n >>> (bit + 1) / d) +
      if d ≤ 2 * (n >>> (bit + 1) % d) + n >>> bit % 2 then 1 else 0 := by
  rw [← div_bringDown hd (Nat.mod_lt _ (by decide)), ← shiftRight_eq]

/-- A bit put below a number that ends in zeros. -/
lemma or_bit (a bit : Nat) : a * 2 ^ (bit + 1) ||| 1 <<< bit = (2 * a + 1) * 2 ^ bit := by
  have below : 2 ^ bit < 2 ^ (bit + 1) := Nat.pow_lt_pow_succ (by decide)
  rw [Nat.one_shiftLeft, ← Nat.shiftLeft_eq, ← Nat.shiftLeft_add_eq_or_of_lt below,
    Nat.shiftLeft_eq, pow_succ]
  ring

/-- A digit in the free place is added. -/
lemma shiftLeft_or_digit (a : Nat) (hb : b < 2) : a <<< 1 ||| b = 2 * a + b := by
  rw [← Nat.shiftLeft_add_eq_or_of_lt (show b < 2 ^ 1 from hb), Nat.shiftLeft_eq]
  ring

/-- A turn on the quotient and the remainder: a bit is brought down, and the denominator taken off
where it fits. -/
def turn (n d : Nat) (state : Nat × Nat) (bit : Nat) : Nat × Nat :=
  let remainder := state.2 <<< 1 ||| (n >>> bit &&& 1)
  if d ≤ remainder then (state.1 ||| 1 <<< bit, remainder - d) else (state.1, remainder)

/-- The quotient of the bits taken, at its place, and their remainder. -/
def taken (n d bit : Nat) : Nat × Nat := (n >>> bit / d * 2 ^ bit, n >>> bit % d)

/-- A turn of long division brings one more bit down. -/
lemma turn_taken (hd : 0 < d) : turn n d (taken n d (bit + 1)) bit = taken n d bit := by
  have digit : n >>> bit % 2 < 2 := Nat.mod_lt _ (by decide)
  simp only [turn, taken, Nat.and_one_is_mod, shiftLeft_or_digit _ digit]
  rw [@shiftRight_div n d bit hd, @shiftRight_mod n d bit hd]
  split_ifs with fits
  · rw [or_bit]
  · rw [pow_succ]
    congr 1
    ring

/-- Long division is exact at every turn. -/
theorem stateAt_turn {width : Nat} (hd : 0 < d) (hn : n < 2 ^ width) (h : bit ≤ width) :
    stateAt (turn n d) (0, 0) width bit = taken n d bit := by
  refine stateAt_induction (turn n d) (0, 0) width (P := fun bit s => s = taken n d bit) ?_ ?_ h
  · rw [taken, Nat.shiftRight_eq_div_pow, Nat.div_eq_of_lt hn, Nat.zero_mod, Nat.zero_div,
      Nat.zero_mul]
  · rintro bit s - rfl
    exact turn_taken hd

end LongDivision
