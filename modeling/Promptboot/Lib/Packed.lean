import Mathlib.Data.BitVec
import Mathlib.Algebra.Order.Ring.Abs
import Mathlib.Algebra.Order.Ring.Int
import Mathlib.Tactic.Ring

/-!
# Packed integers

Registers of equal lanes, counted from the low end, and the SSE2 and AVX2 instructions on them, with
their published meaning. An arithmetic instruction also notes whether one of its lanes has wrapped;
`Exact` is what a computation returns when none has.

Each instruction has a lemma for the lanes of its result (`lanes_punpcklbw`, `lanes_vpmovsxbw` and
their like) and each arithmetic one a lemma for when it is exact (`exact_pmaddwd`, `exact_paddd`).
`Small` bounds the values in flight, and `Small.add`, `Small.drop` and `Small.pairs` say how a step
widens it.
-/

namespace Packed

/-- A lane of `w` bits. -/
def lane {N : Nat} (w : Nat) (x : BitVec N) (i : Nat) : BitVec w := x.extractLsb' (w * i) w

/-- The register with these lanes. -/
def pack (N w : Nat) (lanes : Nat → BitVec w) : BitVec N :=
  (BitVec.ofBoolListLE ((List.range N).map fun k => (lanes (k / w)).getLsbD (k % w))).setWidth N

section Lanes

variable {N w i j : Nat}

/-- A bit of a lane is a bit of the register. -/
lemma getLsbD_lane (x : BitVec N) (hj : j < w) :
    (lane w x i).getLsbD j = x.getLsbD (w * i + j) := by
  rw [lane, BitVec.getLsbD_extractLsb', decide_eq_true hj, Bool.true_and]

/-- A bit of a packed register is a bit of its lane. -/
lemma getLsbD_pack (lanes : Nat → BitVec w) (hi : w * (i + 1) ≤ N) (hj : j < w) :
    (pack N w lanes).getLsbD (w * i + j) = (lanes i).getLsbD j := by
  have inside : w * i + j < N := by
    rw [Nat.mul_succ] at hi
    omega
  have div : (w * i + j) / w = i := by
    rw [Nat.mul_add_div (Nat.zero_lt_of_lt hj), Nat.div_eq_of_lt hj, Nat.add_zero]
  have mod : (w * i + j) % w = j := by rw [Nat.mul_add_mod, Nat.mod_eq_of_lt hj]
  rw [pack, BitVec.getLsbD_setWidth, decide_eq_true inside, Bool.true_and,
    BitVec.getLsbD_ofBoolListLE, List.getD_eq_getElem?_getD, List.getElem?_map,
    List.getElem?_range inside, Option.map_some, Option.getD_some, div, mod]

/-- A packed register has the lanes it was packed from. -/
lemma lane_pack (lanes : Nat → BitVec w) (hi : w * (i + 1) ≤ N) :
    lane w (pack N w lanes) i = lanes i := by
  apply BitVec.eq_of_getLsbD_eq
  intro j hj
  rw [getLsbD_lane _ hj, getLsbD_pack lanes hi hj]

/-- A lane of a conjunction is the conjunction of the lanes. -/
lemma lane_and (x y : BitVec N) : lane w (x &&& y) i = lane w x i &&& lane w y i := by
  apply BitVec.eq_of_getLsbD_eq
  intro j hj
  rw [getLsbD_lane _ hj, BitVec.getLsbD_and, BitVec.getLsbD_and, getLsbD_lane _ hj,
    getLsbD_lane _ hj]

/-- The lanes of zero are zero. -/
lemma lane_zero : lane w 0#N i = 0#w := by
  apply BitVec.eq_of_getLsbD_eq
  intro j hj
  rw [getLsbD_lane _ hj, BitVec.getLsbD_zero, BitVec.getLsbD_zero]

/-- A shift by whole lanes. -/
lemma lane_shiftRight (x : BitVec N) (k : Nat) : lane w (x >>> (w * k)) i = lane w x (i + k) := by
  apply BitVec.eq_of_getLsbD_eq
  intro j hj
  rw [getLsbD_lane _ hj, BitVec.getLsbD_ushiftRight, getLsbD_lane _ hj]
  congr 1
  ring

/-- A lane of a lane. -/
lemma lane_lane {v r : Nat} (x : BitVec N) (hv : v = w * r) (hj : j < r) :
    lane w (lane v x i) j = lane w x (r * i + j) := by
  subst hv
  apply BitVec.eq_of_getLsbD_eq
  intro k hk
  have inside : w * j + k < w * r := by
    have step := Nat.mul_le_mul_left w hj
    rw [Nat.mul_succ] at step
    omega
  rw [getLsbD_lane _ hk, getLsbD_lane _ inside, getLsbD_lane _ hk]
  congr 1
  ring

/-- A lane past the end is zero. -/
lemma lane_eq_zero (x : BitVec N) (hi : N ≤ w * i) : lane w x i = 0#w := by
  apply BitVec.eq_of_getLsbD_eq
  intro j hj
  rw [getLsbD_lane _ hj, BitVec.getLsbD_of_ge _ _ (by omega), BitVec.getLsbD_zero]

/-- A byte in its word. -/
lemma lane_byte (x : BitVec N) : lane 8 x i = lane 8 (lane 16 x (i / 2)) (i % 2) := by
  rw [lane_lane (r := 2) x rfl (Nat.mod_lt _ (by decide)), Nat.div_add_mod]

/-- A word is its two bytes. -/
lemma lane_words (x : BitVec N) :
    lane 16 x i = (lane 8 x (2 * i + 1) ++ lane 8 x (2 * i) : BitVec (8 + 8)) := by
  apply BitVec.eq_of_getLsbD_eq
  intro j hj
  rw [getLsbD_lane _ hj, BitVec.getLsbD_append]
  by_cases low : j < 8
  · rw [if_pos low, getLsbD_lane _ low]
    congr 1
    ring
  · rw [if_neg low, getLsbD_lane _ (by omega)]
    congr 1
    omega

end Lanes

/-- What a computation returns when no lane wraps. -/
def Exact {α : Type} (run : StateM Bool α) (post : α → Prop) : Prop :=
  ∃ result, run false = (result, false) ∧ post result

section Exact

variable {α β : Type} {run : StateM Bool α} {post : α → Prop}

/-- Instructions that are exact are exact in succession. -/
lemma Exact.bind {next : α → StateM Bool β} {after : β → Prop} (first : Exact run post)
    (rest : ∀ result, post result → Exact (next result) after) : Exact (run >>= next) after := by
  obtain ⟨middle, ran, holds⟩ := first
  obtain ⟨result, ended, holds⟩ := rest middle holds
  refine ⟨result, ?_, holds⟩
  show next (run false).1 (run false).2 = _
  rw [ran]
  exact ended

/-- A value alone wraps nothing. -/
lemma Exact.pure {result : α} (holds : post result) : Exact (pure result) post :=
  ⟨result, rfl, holds⟩

/-- What an exact instruction promises may be weakened. -/
lemma Exact.mono {after : α → Prop} (first : Exact run post)
    (weaker : ∀ result, post result → after result) : Exact run after := by
  obtain ⟨result, ran, holds⟩ := first
  exact ⟨result, ran, weaker result holds⟩

end Exact

/-- Lanes of `w` bits, noting whether one of them is not the integer it stands for. -/
def checked (N w : Nat) (lanes : Nat → BitVec w) (exact : Nat → Int) : StateM Bool (BitVec N) :=
  fun wrapped =>
    (pack N w lanes, wrapped || (List.range (N / w)).any fun i => (lanes i).toInt ≠ exact i)

section Instructions

variable {N : Nat}

def pand (x y : BitVec N) : BitVec N := x &&& y

def psubb (x y : BitVec N) : StateM Bool (BitVec N) :=
  checked N 8 (fun i => lane 8 x i - lane 8 y i)
    fun i => (lane 8 x i).toInt - (lane 8 y i).toInt

/-- All ones where the signed byte of `x` is above that of `y`. -/
def pcmpgtb (x y : BitVec N) : BitVec N :=
  pack N 8 fun i => if (lane 8 y i).slt (lane 8 x i) then BitVec.allOnes 8 else 0#8

/-- The bytes of the low halves in turn. -/
def punpcklbw (x y : BitVec 128) : BitVec 128 :=
  pack 128 8 fun i => if i % 2 = 0 then lane 8 x (i / 2) else lane 8 y (i / 2)

/-- The bytes of the high halves in turn. -/
def punpckhbw (x y : BitVec 128) : BitVec 128 :=
  pack 128 8 fun i => if i % 2 = 0 then lane 8 x (8 + i / 2) else lane 8 y (8 + i / 2)

/-- The products of signed words, added in pairs. -/
def pmaddwd (x y : BitVec N) : StateM Bool (BitVec N) :=
  checked N 32
    (fun i => (lane 16 x (2 * i)).signExtend 32 * (lane 16 y (2 * i)).signExtend 32 +
      (lane 16 x (2 * i + 1)).signExtend 32 * (lane 16 y (2 * i + 1)).signExtend 32)
    fun i => (lane 16 x (2 * i)).toInt * (lane 16 y (2 * i)).toInt +
      (lane 16 x (2 * i + 1)).toInt * (lane 16 y (2 * i + 1)).toInt

def paddd (x y : BitVec N) : StateM Bool (BitVec N) :=
  checked N 32 (fun i => lane 32 x i + lane 32 y i)
    fun i => (lane 32 x i).toInt + (lane 32 y i).toInt

/-- A shift of each word. -/
def psrlw (x : BitVec N) (count : Nat) : BitVec N := pack N 16 fun i => lane 16 x i >>> count

/-- A shift by bytes. -/
def psrldq (x : BitVec 128) (bytes : Nat) : BitVec 128 := x >>> (8 * bytes)

/-- The bytes as signed words. -/
def vpmovsxbw (x : BitVec 128) : BitVec 256 := pack 256 16 fun i => (lane 8 x i).signExtend 16

def vextracti128 (x : BitVec 256) (half : Nat) : BitVec 128 := lane 128 x half

def movd (x : BitVec 128) : BitVec 32 := lane 32 x 0

end Instructions

section Small

/-- Integers that are bounded on both sides. -/
def Small (bound : Int) (f : Nat → Int) : Prop := ∀ i, -bound ≤ f i ∧ f i ≤ bound

/-- The sum of two bounded lanes is bounded by both bounds. -/
lemma Small.add {b c : Int} {f g : Nat → Int} (hf : Small b f) (hg : Small c g) :
    Small (b + c) fun i => f i + g i := by
  intro i
  have left := hf i
  have right := hg i
  dsimp only
  omega

/-- Lanes further up keep their bound. -/
lemma Small.drop {b : Int} {f : Nat → Int} (hf : Small b f) (k : Nat) :
    Small b fun i => f (k + i) :=
  fun i => hf (k + i)

/-- Lanes shifted down, with zeros from above, keep their bound. -/
lemma Small.shift {b : Int} {f : Nat → Int} (hf : Small b f) (k : Nat) :
    Small b fun i => if i + k < 4 then f (i + k) else 0 := by
  intro i
  have first := hf 0
  have there := hf (i + k)
  dsimp only
  split_ifs <;> omega

/-- Sums of two products. -/
lemma Small.pairs {b c : Int} {f g : Nat → Int} (hf : Small b f) (hg : Small c g) :
    Small (2 * (b * c)) fun i => f (2 * i) * g (2 * i) + f (2 * i + 1) * g (2 * i + 1) := by
  have product (j : Nat) : -(b * c) ≤ f j * g j ∧ f j * g j ≤ b * c := by
    have size := mul_le_mul (abs_le.mpr (hf j)) (abs_le.mpr (hg j)) (abs_nonneg _)
      ((abs_nonneg _).trans (abs_le.mpr (hf j)))
    rw [← abs_mul] at size
    exact abs_le.mp size
  intro i
  have first := product (2 * i)
  have second := product (2 * i + 1)
  dsimp only
  omega

end Small

section Rules

variable {N w : Nat}

/-- The lanes of a register as integers. -/
def Lanes (w : Nat) (x : BitVec N) (values : Nat → Int) : Prop :=
  ∀ i, w * (i + 1) ≤ N → (lane w x i).toInt = values i

/-- An instruction is exact when each lane holds the exact value. -/
lemma exact_checked {lanes : Nat → BitVec w} {exact : Nat → Int} (positive : 0 < w)
    (same : ∀ i, w * (i + 1) ≤ N → (lanes i).toInt = exact i) :
    Exact (checked N w lanes exact) fun z => Lanes w z exact := by
  have inside {i : Nat} (low : i < N / w) : w * (i + 1) ≤ N := by
    rw [Nat.mul_comm]
    exact (Nat.le_div_iff_mul_le positive).mp low
  refine ⟨pack N w lanes, ?_, fun i hi => ?_⟩
  · refine Prod.ext rfl ((Bool.false_or _).trans (List.any_eq_false.mpr fun i mem => ?_))
    rw [same i (inside (List.mem_range.mp mem))]
    simp
  · rw [lane_pack lanes hi, same i hi]

/-- A bytewise difference is exact if it fits a signed byte. -/
lemma exact_psubb {x y : BitVec N} {f g : Nat → Int} (hx : Lanes 8 x f) (hy : Lanes 8 y g)
    (fits : ∀ i, 8 * (i + 1) ≤ N → -128 ≤ f i - g i ∧ f i - g i < 128) :
    Exact (psubb x y) fun z => Lanes 8 z fun i => f i - g i := by
  refine (exact_checked (by decide) fun i hi => ?_).mono fun z lanes i hi => ?_
  · obtain ⟨low, high⟩ := fits i hi
    rw [BitVec.toInt_sub, hx i hi, hy i hi]
    exact Int.bmod_eq_of_le_mul_two (by omega) (by omega)
  · rw [lanes i hi]
    dsimp only
    rw [hx i hi, hy i hi]

/-- The sum of two products of words is exact below 2^31. -/
lemma exact_pmaddwd {x y : BitVec N} {f g : Nat → Int} (hx : Lanes 16 x f) (hy : Lanes 16 y g)
    {b : Int} (small : Small b fun i => f (2 * i) * g (2 * i) + f (2 * i + 1) * g (2 * i + 1))
    (fits : b < 2 ^ 31) :
    Exact (pmaddwd x y) fun z => Lanes 32 z fun i =>
      f (2 * i) * g (2 * i) + f (2 * i + 1) * g (2 * i + 1) := by
  refine (exact_checked (by decide) fun i hi => ?_).mono fun z lanes i hi => ?_
  · have bounds := small i
    dsimp only at bounds
    rw [BitVec.toInt_add, BitVec.toInt_mul, BitVec.toInt_mul,
      BitVec.toInt_signExtend_of_le (by decide), BitVec.toInt_signExtend_of_le (by decide),
      BitVec.toInt_signExtend_of_le (by decide), BitVec.toInt_signExtend_of_le (by decide),
      Int.bmod_add_bmod, Int.add_bmod_bmod, hx (2 * i) (by omega), hy (2 * i) (by omega),
      hx (2 * i + 1) (by omega), hy (2 * i + 1) (by omega)]
    exact Int.bmod_eq_of_le_mul_two (by omega) (by omega)
  · rw [lanes i hi]
    dsimp only
    rw [hx (2 * i) (by omega), hy (2 * i) (by omega), hx (2 * i + 1) (by omega),
      hy (2 * i + 1) (by omega)]

/-- A sum of double words is exact below 2^31. -/
lemma exact_paddd {x y : BitVec N} {f g : Nat → Int} (hx : Lanes 32 x f) (hy : Lanes 32 y g)
    {b : Int} (small : Small b fun i => f i + g i) (fits : b < 2 ^ 31) :
    Exact (paddd x y) fun z => Lanes 32 z fun i => f i + g i := by
  refine (exact_checked (by decide) fun i hi => ?_).mono fun z lanes i hi => ?_
  · have bounds := small i
    dsimp only at bounds
    rw [BitVec.toInt_add, hx i hi, hy i hi]
    exact Int.bmod_eq_of_le_mul_two (by omega) (by omega)
  · rw [lanes i hi]
    dsimp only
    rw [hx i hi, hy i hi]

/-- The sign bytes make words of the bytes. -/
lemma sign_append (b : BitVec 8) :
    (((if b.slt 0#8 then BitVec.allOnes 8 else 0#8) ++ b : BitVec (8 + 8))).toInt = b.toInt := by
  revert b
  decide +kernel

/-- The low bytes, each with its sign, are the words of the low half. -/
lemma lanes_punpcklbw {x : BitVec 128} {f : Nat → Int} (hx : Lanes 8 x f) :
    Lanes 16 (punpcklbw x (pcmpgtb 0#128 x)) f := by
  intro i hi
  have sign : (2 * i + 1) / 2 = i := by omega
  have value : 2 * i / 2 = i := by omega
  rw [lane_words, punpcklbw, lane_pack _ (by omega), lane_pack _ (by omega), if_neg (by omega),
    if_pos (by omega), sign, value, pcmpgtb, lane_pack _ (by omega), lane_zero, sign_append]
  exact hx i (by omega)

/-- The high bytes, each with its sign, are the words of the high half. -/
lemma lanes_punpckhbw {x : BitVec 128} {f : Nat → Int} (hx : Lanes 8 x f) :
    Lanes 16 (punpckhbw x (pcmpgtb 0#128 x)) fun i => f (8 + i) := by
  intro i hi
  have sign : (2 * i + 1) / 2 = i := by omega
  have value : 2 * i / 2 = i := by omega
  rw [lane_words, punpckhbw, lane_pack _ (by omega), lane_pack _ (by omega), if_neg (by omega),
    if_pos (by omega), sign, value, pcmpgtb, lane_pack _ (by omega), lane_zero, sign_append]
  exact hx (8 + i) (by omega)

/-- The sign extension has the bytes as words. -/
lemma lanes_vpmovsxbw {x : BitVec 128} {f : Nat → Int} (hx : Lanes 8 x f) :
    Lanes 16 (vpmovsxbw x) f := by
  intro i hi
  rw [vpmovsxbw, lane_pack _ hi, BitVec.toInt_signExtend_of_le (by decide), hx i (by omega)]

/-- A shift by double words moves the lanes down. -/
lemma lanes_psrldq {x : BitVec 128} {f : Nat → Int} (hx : Lanes 32 x f) (k : Nat) :
    Lanes 32 (psrldq x (4 * k)) fun i => if i + k < 4 then f (i + k) else 0 := by
  intro i hi
  have bits : 8 * (4 * k) = 32 * k := by omega
  rw [psrldq, bits, lane_shiftRight]
  dsimp only
  by_cases inside : i + k < 4
  · rw [if_pos inside, hx _ (by omega)]
  · rw [if_neg inside, lane_eq_zero _ (by omega)]
    rfl

/-- The lanes of a half. -/
lemma lanes_vextracti128 {x : BitVec 256} {r : Nat} {f : Nat → Int} (hx : Lanes w x f)
    (positive : 0 < w) (hw : 128 = w * r) {half : Nat} (two : half ≤ 1) :
    Lanes w (vextracti128 x half) fun i => f (r * half + i) := by
  intro i hi
  have inside : i < r := by
    rw [hw] at hi
    exact Nat.le_of_mul_le_mul_left hi positive
  have whole : w * (r * half + i + 1) ≤ 256 := by
    rw [Nat.add_assoc, Nat.mul_add, ← Nat.mul_assoc, ← hw]
    omega
  rw [vextracti128, lane_lane x hw inside, hx _ whole]

end Rules

end Packed
