import Promptboot.Lib.Packed
import Promptboot.Machine.Cpu
import Mathlib.Algebra.BigOperators.Intervals

/-!
# Block products

The routines that multiply a block of 32 weights with 32 activations (`fp32_sse2.rs`), for Q4 and Q8
weights and both backends. `rcx` points to the weights and `rdx` to the activations.

`exact_signedProducts_low` and `exact_signedProducts_high` are the multiplication,
`exact_horizontalSum` the sum of its lanes; `exact_lowWeights` and `exact_highWeights` unpack the
nibbles. Each routine then has its own lemma (`q4BlockDotSse2_exact`, `q8BlockDotAvx2_exact` and
their like), and the headline `blockDot_exact` covers the four.
-/

namespace Promptboot
open Packed

/-- A load from a pointer. -/
def movdqu (N : Nat) (pointer : Nat → BitVec 8) (offset : Nat) : BitVec N :=
  pack N 8 fun i => pointer (offset + i)

def q4NibbleMask : BitVec 128 := pack 128 8 fun _ => 15#8

def q4ZeroPoint : BitVec 128 := pack 128 8 fun _ => 8#8

/-- The seven instructions from `movdqa xmm3, xmm2` to `pmaddwd xmm0, xmm1` that the SSE2 routines
repeat, with `punpcklbw` or `punpckhbw` in them: the products of signed bytes, added in pairs. -/
def signedProducts (punpck : BitVec 128 → BitVec 128 → BitVec 128) (xmm2 xmm0 xmm1 : BitVec 128) :
    StateM Bool (BitVec 128) := do
  let xmm3 := xmm2
  let xmm3 := pcmpgtb xmm3 xmm0
  let xmm4 := xmm2
  let xmm4 := pcmpgtb xmm4 xmm1
  let xmm0 := punpck xmm0 xmm3
  let xmm1 := punpck xmm1 xmm4
  pmaddwd xmm0 xmm1

/-- The sum of the four lanes, with which all routines end. -/
def horizontalSum (total : BitVec 128) : StateM Bool (BitVec 32) := do
  let shifted := psrldq total 8
  let total ← paddd total shifted
  let shifted := psrldq total 4
  let total ← paddd total shifted
  return movd total

def q4BlockDotSse2 (rcx rdx : Nat → BitVec 8) : StateM Bool (BitVec 32) := do
  let xmm2 := 0#128
  let xmm5 := 0#128
  let xmm0 := movdqu 128 rcx 0
  let xmm0 := pand xmm0 q4NibbleMask
  let xmm0 ← psubb xmm0 q4ZeroPoint
  let xmm1 := movdqu 128 rdx 0
  let xmm0 ← signedProducts punpcklbw xmm2 xmm0 xmm1
  let xmm5 ← paddd xmm5 xmm0
  let xmm0 := movdqu 128 rcx 0
  let xmm0 := pand xmm0 q4NibbleMask
  let xmm0 ← psubb xmm0 q4ZeroPoint
  let xmm1 := movdqu 128 rdx 0
  let xmm0 ← signedProducts punpckhbw xmm2 xmm0 xmm1
  let xmm5 ← paddd xmm5 xmm0
  let xmm0 := movdqu 128 rcx 0
  let xmm0 := psrlw xmm0 4
  let xmm0 := pand xmm0 q4NibbleMask
  let xmm0 ← psubb xmm0 q4ZeroPoint
  let xmm1 := movdqu 128 rdx 16
  let xmm0 ← signedProducts punpcklbw xmm2 xmm0 xmm1
  let xmm5 ← paddd xmm5 xmm0
  let xmm0 := movdqu 128 rcx 0
  let xmm0 := psrlw xmm0 4
  let xmm0 := pand xmm0 q4NibbleMask
  let xmm0 ← psubb xmm0 q4ZeroPoint
  let xmm1 := movdqu 128 rdx 16
  let xmm0 ← signedProducts punpckhbw xmm2 xmm0 xmm1
  let xmm5 ← paddd xmm5 xmm0
  horizontalSum xmm5

def q8BlockDotSse2 (rcx rdx : Nat → BitVec 8) : StateM Bool (BitVec 32) := do
  let xmm2 := 0#128
  let xmm0 := movdqu 128 rcx 0
  let xmm1 := movdqu 128 rdx 0
  let xmm0 ← signedProducts punpcklbw xmm2 xmm0 xmm1
  let xmm5 := xmm0
  let xmm0 := movdqu 128 rcx 0
  let xmm1 := movdqu 128 rdx 0
  let xmm0 ← signedProducts punpckhbw xmm2 xmm0 xmm1
  let xmm5 ← paddd xmm5 xmm0
  let xmm0 := movdqu 128 rcx 16
  let xmm1 := movdqu 128 rdx 16
  let xmm0 ← signedProducts punpcklbw xmm2 xmm0 xmm1
  let xmm5 ← paddd xmm5 xmm0
  let xmm0 := movdqu 128 rcx 16
  let xmm1 := movdqu 128 rdx 16
  let xmm0 ← signedProducts punpckhbw xmm2 xmm0 xmm1
  let xmm5 ← paddd xmm5 xmm0
  horizontalSum xmm5

/-- The low half of a register of 256 bits. -/
def xmm (ymm : BitVec 256) : BitVec 128 := vextracti128 ymm 0

def q4BlockDotAvx2 (rcx rdx : Nat → BitVec 8) : StateM Bool (BitVec 32) := do
  let xmm0 := movdqu 128 rcx 0
  let xmm1 := pand xmm0 q4NibbleMask
  let xmm0 := psrlw xmm0 4
  let xmm0 := pand xmm0 q4NibbleMask
  let xmm1 ← psubb xmm1 q4ZeroPoint
  let xmm0 ← psubb xmm0 q4ZeroPoint
  let ymm1 := vpmovsxbw xmm1
  let ymm0 := vpmovsxbw xmm0
  let xmm2 := movdqu 128 rdx 0
  let xmm3 := movdqu 128 rdx 16
  let ymm2 := vpmovsxbw xmm2
  let ymm3 := vpmovsxbw xmm3
  let ymm1 ← pmaddwd ymm1 ymm2
  let ymm0 ← pmaddwd ymm0 ymm3
  let ymm0 ← paddd ymm0 ymm1
  let xmm1 := vextracti128 ymm0 1
  let xmm0 ← paddd (xmm ymm0) xmm1
  horizontalSum xmm0

def q8BlockDotAvx2 (rcx rdx : Nat → BitVec 8) : StateM Bool (BitVec 32) := do
  let ymm0 := movdqu 256 rcx 0
  let ymm1 := movdqu 256 rdx 0
  let xmm2 := vextracti128 ymm0 1
  let xmm3 := vextracti128 ymm1 1
  let ymm0 := vpmovsxbw (xmm ymm0)
  let ymm1 := vpmovsxbw (xmm ymm1)
  let ymm2 := vpmovsxbw xmm2
  let ymm3 := vpmovsxbw xmm3
  let ymm0 ← pmaddwd ymm0 ymm1
  let ymm2 ← pmaddwd ymm2 ymm3
  let ymm0 ← paddd ymm0 ymm2
  let xmm1 := vextracti128 ymm0 1
  let xmm0 ← paddd (xmm ymm0) xmm1
  horizontalSum xmm0

def q4BlockDot : InferenceBackend → (Nat → BitVec 8) → (Nat → BitVec 8) → StateM Bool (BitVec 32)
  | .sse2 => q4BlockDotSse2
  | .avx2 => q4BlockDotAvx2

def q8BlockDot : InferenceBackend → (Nat → BitVec 8) → (Nat → BitVec 8) → StateM Bool (BitVec 32)
  | .sse2 => q8BlockDotSse2
  | .avx2 => q8BlockDotAvx2

section Parts

variable {x y : BitVec 128} {f g : Nat → Int}

/-- The products of the low bytes, in pairs. -/
lemma exact_signedProducts_low (hx : Lanes 8 x f) (hy : Lanes 8 y g) (hf : Small 128 f)
    (hg : Small 128 g) : Exact (signedProducts punpcklbw 0#128 x y) fun z =>
      Lanes 32 z fun i => f (2 * i) * g (2 * i) + f (2 * i + 1) * g (2 * i + 1) :=
  exact_pmaddwd (lanes_punpcklbw hx) (lanes_punpcklbw hy) (hf.pairs hg) (by decide)

/-- The products of the high bytes, in pairs. -/
lemma exact_signedProducts_high (hx : Lanes 8 x f) (hy : Lanes 8 y g) (hf : Small 128 f)
    (hg : Small 128 g) : Exact (signedProducts punpckhbw 0#128 x y) fun z =>
      Lanes 32 z fun i => f (8 + 2 * i) * g (8 + 2 * i) +
        f (8 + (2 * i + 1)) * g (8 + (2 * i + 1)) :=
  exact_pmaddwd (lanes_punpckhbw hx) (lanes_punpckhbw hy) ((hf.drop 8).pairs (hg.drop 8))
    (by decide)

/-- The pairs of four lanes, and then the two sums. -/
lemma exact_horizontalSum {b : Int} (hx : Lanes 32 x f) (hf : Small b f) (fits : b < 2 ^ 24) :
    Exact (horizontalSum x) fun eax => eax.toInt = f 0 + f 1 + f 2 + f 3 := by
  have half := hf.add (hf.shift 2)
  have whole := half.add (half.shift 1)
  refine (exact_paddd hx (lanes_psrldq hx 2) half (by omega)).bind fun total ht => ?_
  refine (exact_paddd ht (lanes_psrldq ht 1) whole (by omega)).bind fun total ht => Exact.pure ?_
  rw [movd, ht 0 (by decide)]
  show f 0 + f 2 + (f 1 + f 3) = _
  ring

end Parts

section Bytes

variable (pointer : Nat → BitVec 8)

/-- The signed bytes from an offset on. -/
def signedBytes (offset i : Nat) : Int := (pointer (offset + i)).toInt

/-- The weights in the low and in the high halves of the bytes. -/
def lowWeights (i : Nat) : Int := ((pointer i).toNat % 16 : Nat) - 8

def highWeights (i : Nat) : Int := ((pointer i).toNat / 16 : Nat) - 8

/-- An unaligned load has the bytes as lanes. -/
lemma lanes_movdqu (N offset : Nat) :
    Lanes 8 (movdqu N pointer offset) (signedBytes pointer offset) := by
  intro i hi
  rw [movdqu, lane_pack _ hi]
  rfl

/-- The halves of a load of 256 bits. -/
lemma lanes_xmm : Lanes 8 (xmm (movdqu 256 pointer 0)) (signedBytes pointer 0) := by
  intro i hi
  have low := lanes_vextracti128 (r := 16) (lanes_movdqu pointer 256 0) (by decide) rfl
    (Nat.zero_le 1) i hi
  dsimp only at low
  rw [Nat.mul_zero, Nat.zero_add] at low
  exact low

/-- The high half of a wide load. -/
lemma lanes_high : Lanes 8 (vextracti128 (movdqu 256 pointer 0) 1) (signedBytes pointer 16) := by
  intro i hi
  have high := lanes_vextracti128 (r := 16) (lanes_movdqu pointer 256 0) (by decide) rfl
    (Nat.le_refl 1) i hi
  dsimp only at high
  rw [signedBytes, Nat.zero_add] at high
  exact high

/-- A signed byte is bounded by 128. -/
lemma small_signedBytes (offset : Nat) : Small 128 (signedBytes pointer offset) := by
  intro i
  have low := (pointer (offset + i)).le_two_mul_toInt
  have high := (pointer (offset + i)).two_mul_toInt_lt
  rw [signedBytes]
  omega

/-- A low weight is bounded by 128. -/
lemma small_lowWeights : Small 128 (lowWeights pointer) := by
  intro i
  rw [lowWeights]
  omega

/-- A high weight is bounded by 128. -/
lemma small_highWeights : Small 128 (highWeights pointer) := by
  intro i
  have byte := (pointer i).isLt
  rw [highWeights]
  omega

/-- The mask leaves the low nibble. -/
lemma and_mask (b : BitVec 8) : (b &&& 15#8).toInt = (b.toNat % 16 : Nat) := by
  revert b
  decide +kernel

/-- The shift leaves the high nibble. -/
lemma shift_four (b : BitVec 8) : (b >>> 4).toInt = (b.toNat / 16 : Nat) := by
  revert b
  decide +kernel

/-- The high nibble of a byte comes out of its word, for what the neighbour adds is masked. -/
lemma lane_shift_and (word : BitVec 16) (i : Nat) :
    lane 8 (word >>> 4) i &&& 15#8 = lane 8 word i >>> 4 := by
  apply BitVec.eq_of_getLsbD_eq
  intro j hj
  have mask : (15#8).getLsbD j = decide (j < 4) := by
    revert j
    decide
  rw [BitVec.getLsbD_and, getLsbD_lane _ hj, BitVec.getLsbD_ushiftRight,
    BitVec.getLsbD_ushiftRight, mask]
  by_cases low : j < 4
  · rw [decide_eq_true low, Bool.and_true, getLsbD_lane _ (by omega)]
    congr 1
    omega
  · rw [decide_eq_false low, Bool.and_false, BitVec.getLsbD_of_ge _ _ (by omega)]

/-- The masked bytes are the low nibbles. -/
lemma lanes_lowNibbles : Lanes 8 (pand (movdqu 128 pointer 0) q4NibbleMask)
    fun i => ((pointer i).toNat % 16 : Nat) := by
  intro i hi
  rw [pand, lane_and, movdqu, lane_pack _ hi, q4NibbleMask, lane_pack _ hi, and_mask, Nat.zero_add]

/-- The shifted and masked bytes are the high nibbles. -/
lemma lanes_highNibbles : Lanes 8 (pand (psrlw (movdqu 128 pointer 0) 4) q4NibbleMask)
    fun i => ((pointer i).toNat / 16 : Nat) := by
  intro i hi
  have word : 16 * (i / 2 + 1) ≤ 128 := by omega
  have shifted : lane 8 (psrlw (movdqu 128 pointer 0) 4) i =
      lane 8 (lane 16 (movdqu 128 pointer 0) (i / 2) >>> 4) (i % 2) := by
    rw [lane_byte, psrlw, lane_pack _ word]
  rw [pand, lane_and, shifted, q4NibbleMask, lane_pack _ hi, lane_shift_and, ← lane_byte, movdqu,
    lane_pack _ hi, shift_four, Nat.zero_add]

/-- The zero point is eight in every lane. -/
lemma lanes_zeroPoint : Lanes 8 q4ZeroPoint fun _ => 8 := by
  intro i hi
  rw [q4ZeroPoint, lane_pack _ hi]
  rfl

/-- The low nibbles less eight are the low weights. -/
lemma exact_lowWeights : Exact (psubb (pand (movdqu 128 pointer 0) q4NibbleMask) q4ZeroPoint)
    fun z => Lanes 8 z (lowWeights pointer) := by
  refine exact_psubb (lanes_lowNibbles pointer) lanes_zeroPoint fun i _ => ?_
  omega

/-- The high nibbles less eight are the high weights. -/
lemma exact_highWeights :
    Exact (psubb (pand (psrlw (movdqu 128 pointer 0) 4) q4NibbleMask) q4ZeroPoint)
      fun z => Lanes 8 z (highWeights pointer) := by
  refine exact_psubb (lanes_highNibbles pointer) lanes_zeroPoint fun i _ => ?_
  have byte := (pointer i).isLt
  omega

end Bytes

section Routines

variable (weights activation : Nat → BitVec 8)

/-- Sixteen products, as four sums of four. -/
lemma sum_pairs (f g : Nat → Int) :
    ∑ i ∈ Finset.range 16, f i * g i =
      ∑ k ∈ Finset.range 4, ((f (2 * k) * g (2 * k) + f (2 * k + 1) * g (2 * k + 1)) +
        (f (8 + 2 * k) * g (8 + 2 * k) + f (8 + (2 * k + 1)) * g (8 + (2 * k + 1)))) := by
  simp only [Finset.sum_range_succ, Finset.sum_range_zero]
  ring

/-- The sum of products of a Q4 block. -/
def q4Sum : Int :=
  ∑ i ∈ Finset.range 16, lowWeights weights i * signedBytes activation 0 i +
    ∑ i ∈ Finset.range 16, highWeights weights i * signedBytes activation 16 i

/-- The sum of products of a Q8 block. -/
def q8Sum : Int :=
  ∑ i ∈ Finset.range 16, signedBytes weights 0 i * signedBytes activation 0 i +
    ∑ i ∈ Finset.range 16, signedBytes weights 16 i * signedBytes activation 16 i

/-- Zero has zeros as lanes. -/
lemma lanes_zero : Lanes 32 0#128 fun _ => 0 := by
  intro i hi
  rw [lane_zero]
  rfl

/-- Zero is bounded by zero. -/
lemma small_zero : Small 0 fun _ => 0 := fun _ => ⟨Int.le_refl 0, Int.le_refl 0⟩

/-- With SSE2 the dot product of a Q4 block is the sum over the integers. -/
lemma q4BlockDotSse2_exact :
    Exact (q4BlockDotSse2 weights activation) fun eax => eax.toInt = q4Sum weights activation := by
  have first := small_signedBytes activation 0
  have second := small_signedBytes activation 16
  have low := small_lowWeights weights
  have high := small_highWeights weights
  refine (exact_lowWeights weights).bind fun xmm0 h0 => ?_
  refine (exact_signedProducts_low h0 (lanes_movdqu _ _ _) low first).bind fun xmm0 h0 => ?_
  have s5 := small_zero.add (low.pairs first)
  refine (exact_paddd lanes_zero h0 s5 (by decide)).bind fun xmm5 h5 => ?_
  refine (exact_lowWeights weights).bind fun xmm0 h0 => ?_
  refine (exact_signedProducts_high h0 (lanes_movdqu _ _ _) low first).bind fun xmm0 h0 => ?_
  have s5 := s5.add ((low.drop 8).pairs (first.drop 8))
  refine (exact_paddd h5 h0 s5 (by decide)).bind fun xmm5 h5 => ?_
  refine (exact_highWeights weights).bind fun xmm0 h0 => ?_
  refine (exact_signedProducts_low h0 (lanes_movdqu _ _ _) high second).bind fun xmm0 h0 => ?_
  have s5 := s5.add (high.pairs second)
  refine (exact_paddd h5 h0 s5 (by decide)).bind fun xmm5 h5 => ?_
  refine (exact_highWeights weights).bind fun xmm0 h0 => ?_
  refine (exact_signedProducts_high h0 (lanes_movdqu _ _ _) high second).bind fun xmm0 h0 => ?_
  have s5 := s5.add ((high.drop 8).pairs (second.drop 8))
  refine (exact_paddd h5 h0 s5 (by decide)).bind fun xmm5 h5 => ?_
  refine (exact_horizontalSum h5 s5 (by decide)).mono fun eax value => ?_
  -- the four groups of products, lane by lane, against the sums by bytes
  rw [value, q4Sum, sum_pairs, sum_pairs]
  simp only [Finset.sum_range_succ, Finset.sum_range_zero]
  ring

/-- With SSE2 the dot product of a Q8 block is the sum over the integers. -/
lemma q8BlockDotSse2_exact :
    Exact (q8BlockDotSse2 weights activation) fun eax => eax.toInt = q8Sum weights activation := by
  have first := small_signedBytes activation 0
  have second := small_signedBytes activation 16
  have low := small_signedBytes weights 0
  have high := small_signedBytes weights 16
  refine (exact_signedProducts_low (lanes_movdqu _ _ _) (lanes_movdqu _ _ _) low first).bind
    fun xmm5 h5 => ?_
  have s5 := low.pairs first
  refine (exact_signedProducts_high (lanes_movdqu _ _ _) (lanes_movdqu _ _ _) low first).bind
    fun xmm0 h0 => ?_
  have s5 := s5.add ((low.drop 8).pairs (first.drop 8))
  refine (exact_paddd h5 h0 s5 (by decide)).bind fun xmm5 h5 => ?_
  refine (exact_signedProducts_low (lanes_movdqu _ _ _) (lanes_movdqu _ _ _) high second).bind
    fun xmm0 h0 => ?_
  have s5 := s5.add (high.pairs second)
  refine (exact_paddd h5 h0 s5 (by decide)).bind fun xmm5 h5 => ?_
  refine (exact_signedProducts_high (lanes_movdqu _ _ _) (lanes_movdqu _ _ _) high second).bind
    fun xmm0 h0 => ?_
  have s5 := s5.add ((high.drop 8).pairs (second.drop 8))
  refine (exact_paddd h5 h0 s5 (by decide)).bind fun xmm5 h5 => ?_
  refine (exact_horizontalSum h5 s5 (by decide)).mono fun eax value => ?_
  rw [value, q8Sum, sum_pairs, sum_pairs]
  simp only [Finset.sum_range_succ, Finset.sum_range_zero]
  ring

/-- The end of both AVX2 routines: the halves of `ymm0`, and then their lanes. -/
lemma exact_halves {ymm0 : BitVec 256} {f : Nat → Int} {b : Int} (h0 : Lanes 32 ymm0 f)
    (hf : Small b f) (fits : b < 2 ^ 23) :
    Exact (paddd (xmm ymm0) (vextracti128 ymm0 1) >>= horizontalSum) fun eax =>
      eax.toInt = ∑ k ∈ Finset.range 4, (f k + f (4 + k)) := by
  have low : Lanes 32 (xmm ymm0) fun i => f (0 + i) :=
    lanes_vextracti128 (r := 4) h0 (by decide) rfl (Nat.zero_le 1)
  have high : Lanes 32 (vextracti128 ymm0 1) fun i => f (4 + i) :=
    lanes_vextracti128 (r := 4) h0 (by decide) rfl (Nat.le_refl 1)
  have small := (hf.drop 0).add (hf.drop 4)
  refine (exact_paddd low high small (by omega)).bind fun xmm0 h0 => ?_
  refine (exact_horizontalSum h0 small (by omega)).mono fun eax value => ?_
  rw [value]
  simp only [Finset.sum_range_succ, Finset.sum_range_zero, Nat.zero_add]
  ring

/-- With AVX2 the dot product of a Q4 block is the sum over the integers. -/
lemma q4BlockDotAvx2_exact :
    Exact (q4BlockDotAvx2 weights activation) fun eax => eax.toInt = q4Sum weights activation := by
  have first := small_signedBytes activation 0
  have second := small_signedBytes activation 16
  have low := small_lowWeights weights
  have high := small_highWeights weights
  refine (exact_lowWeights weights).bind fun xmm1 h1 => ?_
  refine (exact_highWeights weights).bind fun xmm0 h0 => ?_
  refine (exact_pmaddwd (lanes_vpmovsxbw h1) (lanes_vpmovsxbw (lanes_movdqu _ _ _))
    (low.pairs first) (by decide)).bind fun ymm1 h1 => ?_
  refine (exact_pmaddwd (lanes_vpmovsxbw h0) (lanes_vpmovsxbw (lanes_movdqu _ _ _))
    (high.pairs second) (by decide)).bind fun ymm0 h0 => ?_
  have s0 := (high.pairs second).add (low.pairs first)
  refine (exact_paddd h0 h1 s0 (by decide)).bind fun ymm0 h0 => ?_
  refine (exact_halves h0 s0 (by decide)).mono fun eax value => ?_
  rw [value, q4Sum]
  simp only [Finset.sum_range_succ, Finset.sum_range_zero]
  ring

/-- With AVX2 the dot product of a Q8 block is the sum over the integers. -/
lemma q8BlockDotAvx2_exact :
    Exact (q8BlockDotAvx2 weights activation) fun eax => eax.toInt = q8Sum weights activation := by
  have first := small_signedBytes activation 0
  have second := small_signedBytes activation 16
  have low := small_signedBytes weights 0
  have high := small_signedBytes weights 16
  refine (exact_pmaddwd (lanes_vpmovsxbw (lanes_xmm weights)) (lanes_vpmovsxbw (lanes_xmm activation))
    (low.pairs first) (by decide)).bind fun ymm0 h0 => ?_
  refine (exact_pmaddwd (lanes_vpmovsxbw (lanes_high weights))
    (lanes_vpmovsxbw (lanes_high activation)) (high.pairs second) (by decide)).bind
    fun ymm2 h2 => ?_
  have s0 := (low.pairs first).add (high.pairs second)
  refine (exact_paddd h0 h2 s0 (by decide)).bind fun ymm0 h0 => ?_
  refine (exact_halves h0 s0 (by decide)).mono fun eax value => ?_
  rw [value, q8Sum]
  simp only [Finset.sum_range_succ, Finset.sum_range_zero]
  ring

end Routines

/-- On either backend a block product is the exact sum, and no lane wraps on the way. -/
theorem blockDot_exact (backend : InferenceBackend) (weights activation : Nat → BitVec 8) :
    (∃ eax, q4BlockDot backend weights activation false = (eax, false) ∧
      eax.toInt =
        ∑ i ∈ Finset.range 16, (((weights i).toNat % 16 : Nat) - 8) * (activation i).toInt +
        ∑ i ∈ Finset.range 16,
          (((weights i).toNat / 16 : Nat) - 8) * (activation (16 + i)).toInt) ∧
    ∃ eax, q8BlockDot backend weights activation false = (eax, false) ∧
      eax.toInt = ∑ i ∈ Finset.range 32, (weights i).toInt * (activation i).toInt := by
  have q4 : Exact (q4BlockDot backend weights activation) fun eax =>
      eax.toInt = q4Sum weights activation := by
    cases backend with
    | sse2 => exact q4BlockDotSse2_exact weights activation
    | avx2 => exact q4BlockDotAvx2_exact weights activation
  have q8 : Exact (q8BlockDot backend weights activation) fun eax =>
      eax.toInt = q8Sum weights activation := by
    cases backend with
    | sse2 => exact q8BlockDotSse2_exact weights activation
    | avx2 => exact q8BlockDotAvx2_exact weights activation
  refine ⟨q4.mono fun eax value => ?_, q8.mono fun eax value => ?_⟩
  · simp only [value, q4Sum, signedBytes, lowWeights, highWeights, Nat.zero_add]
  · have halves := Finset.sum_range_add (fun i => (weights i).toInt * (activation i).toInt) 16 16
    simp only [value, q8Sum, signedBytes, Nat.zero_add, halves]

end Promptboot
