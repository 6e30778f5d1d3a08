import Mathlib.Data.BitVec
import Mathlib.Data.Fintype.EquivFin

/-!
# Xorshift

A word xored with itself, shifted, keeps all of its information: the bits that the shift leaves alone
are still there, and each of them gives the next one back. Zero is the only word it takes to zero.

The helper `eq_of_high` is the induction from the bits that stay to all of them; with it
`shiftRight_injective` and `shiftLeft_injective` are the two directions of a shift, and the
headlines `scramble_bijective` and `scramble_ne_zero` follow.
-/

namespace Xorshift

variable {w k : Nat}

/-- Two words whose bits agree wherever all higher bits do are equal. -/
lemma eq_of_high {x y : BitVec w}
    (step : ∀ i < w, (∀ j, i < j → x.getLsbD j = y.getLsbD j) → x.getLsbD i = y.getLsbD i) :
    x = y := by
  have all : ∀ n i, w - i ≤ n → x.getLsbD i = y.getLsbD i := by
    intro n
    induction n with
    | zero =>
      intro i outside
      rw [BitVec.getLsbD_of_ge x i (by omega), BitVec.getLsbD_of_ge y i (by omega)]
    | succ n ih =>
      intro i near
      by_cases inside : i < w
      · exact step i inside fun j above => ih j (by omega)
      · rw [BitVec.getLsbD_of_ge x i (by omega), BitVec.getLsbD_of_ge y i (by omega)]
  exact BitVec.eq_of_getLsbD_eq fun i _ => all w i (by omega)

/-- Adding a right shift loses nothing: the top bits stay and give back the rest. -/
lemma shiftRight_injective (hk : 0 < k) :
    Function.Injective fun x : BitVec w => x ^^^ x >>> k := by
  intro x y same
  apply eq_of_high
  intro i _ above
  have bit := congrArg (BitVec.getLsbD · i) same
  simp only [BitVec.getLsbD_xor, BitVec.getLsbD_ushiftRight] at bit
  rw [above (k + i) (by omega)] at bit
  exact (Bool.xor_left_inj ..).mp bit

/-- Adding a left shift loses nothing: the low bits stay and give back the rest. -/
lemma shiftLeft_injective (hk : 0 < k) :
    Function.Injective fun x : BitVec w => x ^^^ x <<< k := by
  intro x y same
  apply BitVec.eq_of_getLsbD_eq
  intro i
  induction i using Nat.strong_induction_on with
  | h i ih =>
    intro inside
    have bit := congrArg (BitVec.getLsbD · i) same
    simp only [BitVec.getLsbD_xor, BitVec.getLsbD_shiftLeft, inside, decide_true, Bool.true_and]
      at bit
    by_cases low : i < k
    · simpa [low] using bit
    · rw [ih (i - k) (by omega) (by omega)] at bit
      exact (Bool.xor_left_inj ..).mp bit

/-- The three shifts of a generator. -/
def scramble (a b c : Nat) (x : BitVec w) : BitVec w :=
  let x := x ^^^ x >>> a
  let x := x ^^^ x <<< b
  x ^^^ x >>> c

variable {a b c : Nat}

/-- A step of the generator loses nothing. -/
theorem scramble_injective (ha : 0 < a) (hb : 0 < b) (hc : 0 < c) :
    Function.Injective (scramble (w := w) a b c) := fun _ _ same =>
  shiftRight_injective ha (shiftLeft_injective hb (shiftRight_injective hc same))

/-- A step of the generator reaches every state. -/
theorem scramble_bijective (ha : 0 < a) (hb : 0 < b) (hc : 0 < c) :
    Function.Bijective (scramble (w := w) a b c) :=
  have : Finite (BitVec w) := Finite.of_injective BitVec.toFin fun _ _ => BitVec.toFin_inj.mp
  Finite.injective_iff_bijective.mp (scramble_injective ha hb hc)

/-- Zero stays zero. -/
lemma scramble_zero : scramble a b c 0#w = 0#w := by
  simp [scramble]

/-- No other state comes to zero. -/
theorem scramble_ne_zero (ha : 0 < a) (hb : 0 < b) (hc : 0 < c) {x : BitVec w} (nonzero : x ≠ 0#w) :
    scramble a b c x ≠ 0#w := fun zero =>
  nonzero (scramble_injective ha hb hc (zero.trans scramble_zero.symm))

end Xorshift
