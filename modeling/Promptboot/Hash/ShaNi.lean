import Promptboot.Hash.Sha256
import Mathlib.Data.BitVec

/-!
# The SHA extension

The instructions that `promptboot_sha256_rounds` uses, with their published meaning, and the
routine itself. The state is kept in two registers, from the high lane down A, B, E, F and C, D, G,
H; `sha256rnds2` runs two rounds and leaves A, B, E, F in its destination, and what was A, B, E, F
is then C, D, G, H.

The lemmas `pshufd_swap` to `punpcklqdq_ofLanes` are one per instruction, on registers given by
their lanes. `quadRound_packed` follows four rounds, `foldl_quadRound` all of them, and
`loadState_eq` and `storeState_packed` the two ends of the routine. The headline
`compressShaNi_eq_compressScalar` holds for every state and every message schedule.
-/

namespace Promptboot

/-- A 128-bit register. -/
abbrev Xmm := BitVec 128

namespace Xmm

/-- The 32 bits of a lane, counted from the low end. -/
def lane (x : Xmm) (i : Nat) : UInt32 := ⟨x.extractLsb' (32 * i) 32⟩

def ofLanes (x0 x1 x2 x3 : UInt32) : Xmm :=
  x3.toBitVec ++ x2.toBitVec ++ x1.toBitVec ++ x0.toBitVec

def pshufd (source : Xmm) (order : Nat) : Xmm :=
  ofLanes (lane source (order % 4)) (lane source (order / 4 % 4)) (lane source (order / 16 % 4))
    (lane source (order / 64 % 4))

/-- A shift by bytes. -/
def psrldq (x : Xmm) (bytes : Nat) : Xmm := x >>> (8 * bytes)

def pslldq (x : Xmm) (bytes : Nat) : Xmm := x <<< (8 * bytes)

def por (x source : Xmm) : Xmm := x ||| source

/-- The low halves, that of `source` on top. -/
def punpcklqdq (x source : Xmm) : Xmm :=
  source.extractLsb' 0 64 ++ x.extractLsb' 0 64

def paddd (x source : Xmm) : Xmm :=
  ofLanes (lane x 0 + lane source 0) (lane x 1 + lane source 1) (lane x 2 + lane source 2)
    (lane x 3 + lane source 3)

/-- `Ch`, `Maj` and the two `Σ` of the instruction. -/
def choose (e f g : UInt32) : UInt32 := (e &&& f) ^^^ (~~~e &&& g)

def majority (a b c : UInt32) : UInt32 := (a &&& b) ^^^ (a &&& c) ^^^ (b &&& c)

def sigma0 (a : UInt32) : UInt32 :=
  Sha256.rotateRight a 2 ^^^ Sha256.rotateRight a 13 ^^^ Sha256.rotateRight a 22

def sigma1 (e : UInt32) : UInt32 :=
  Sha256.rotateRight e 6 ^^^ Sha256.rotateRight e 11 ^^^ Sha256.rotateRight e 25

/-- One of the two rounds; `wk` is the sum of a schedule word and its constant. -/
def shaRound (r : Sha256.Registers) (wk : UInt32) : Sha256.Registers :=
  ⟨choose r.e r.f r.g + sigma1 r.e + wk + r.h + majority r.a r.b r.c + sigma0 r.a, r.a, r.b, r.c,
    choose r.e r.f r.g + sigma1 r.e + wk + r.h + r.d, r.e, r.f, r.g⟩

/-- `sha256rnds2 x, source`, with its implicit operand `xmm0`. -/
def sha256rnds2 (x source xmm0 : Xmm) : Xmm :=
  let start : Sha256.Registers :=
    ⟨lane source 3, lane source 2, lane x 3, lane x 2, lane source 1, lane source 0, lane x 1,
      lane x 0⟩
  let last := shaRound (shaRound start (lane xmm0 0)) (lane xmm0 1)
  ofLanes last.f last.e last.b last.a

end Xmm

namespace Sha256
open Xmm

/-- `movdqu` from the words at `index`. -/
def loadXmm {n : Nat} (words : Vector UInt32 n) (index : Nat) : Xmm :=
  ofLanes words[index]! words[index + 1]! words[index + 2]! words[index + 3]!

/-- The loop's body, for the round words from `index` on: `xmm1` and `xmm2` behind it. -/
def quadRound (roundWords : Vector UInt32 64) (regs : Xmm × Xmm) (turn : Nat) : Xmm × Xmm :=
  let (xmm1, xmm2) := regs
  let xmm0 := loadXmm roundWords (4 * turn)
  let xmm2 := sha256rnds2 xmm2 xmm1 xmm0
  let xmm0 := pshufd xmm0 0x0e
  let xmm1 := sha256rnds2 xmm1 xmm2 xmm0
  (xmm1, xmm2)

/-- The two registers in front of the loop. -/
def loadState (state : Vector UInt32 8) : Xmm × Xmm :=
  let xmm1 := loadXmm state 0
  let xmm2 := loadXmm state 4
  let xmm3 := pshufd xmm1 0xb1
  let xmm2 := pshufd xmm2 0x1b
  let xmm1 := xmm2
  let xmm1 := psrldq xmm1 8
  let xmm6 := xmm3
  let xmm6 := pslldq xmm6 8
  let xmm1 := por xmm1 xmm6
  let xmm6 := xmm3
  let xmm6 := psrldq xmm6 8
  let xmm2 := punpcklqdq xmm2 xmm6
  (xmm1, xmm2)

/-- Behind the loop; `xmm4` and `xmm5` are what the two registers were in front of it. -/
def storeState (xmm1 xmm2 xmm4 xmm5 : Xmm) : Vector UInt32 8 :=
  let xmm1 := paddd xmm1 xmm4
  let xmm2 := paddd xmm2 xmm5
  let xmm3 := pshufd xmm1 0x1b
  let xmm2 := pshufd xmm2 0xb1
  let xmm6 := xmm3
  let xmm6 := psrldq xmm6 8
  let xmm6 := punpcklqdq xmm6 xmm2
  let xmm2 := psrldq xmm2 8
  let xmm3 := punpcklqdq xmm3 xmm2
  #v[lane xmm3 0, lane xmm3 1, lane xmm3 2, lane xmm3 3,
    lane xmm6 0, lane xmm6 1, lane xmm6 2, lane xmm6 3]

/-- `promptboot_sha256_rounds`; the loop ends when `eax` is 256, behind its sixteenth turn. -/
def promptbootSha256Rounds (state : Vector UInt32 8) (roundWords : Vector UInt32 64) :
    Vector UInt32 8 :=
  let (xmm4, xmm5) := loadState state
  let (xmm1, xmm2) := (List.range 16).foldl (quadRound roundWords) (xmm4, xmm5)
  storeState xmm1 xmm2 xmm4 xmm5

end Sha256

namespace Xmm
variable {x0 x1 x2 x3 y0 y1 y2 y3 : UInt32}

/-- A bit of four packed lanes is a bit of its lane. -/
lemma getLsbD_ofLanes (i : Nat) :
    (ofLanes x0 x1 x2 x3).getLsbD i =
      if i < 32 then x0.toBitVec.getLsbD i
      else if i < 64 then x1.toBitVec.getLsbD (i - 32)
      else if i < 96 then x2.toBitVec.getLsbD (i - 64)
      else x3.toBitVec.getLsbD (i - 96) := by
  unfold ofLanes
  change BitVec.getLsbD (w := 32 + 32 + 32 + 32) _ i = _
  rw [BitVec.getLsbD_append, BitVec.getLsbD_append, BitVec.getLsbD_append, Nat.sub_sub, Nat.sub_sub]
  split_ifs <;> first | rfl | omega

/-- A bit of a lane is a bit of the register. -/
lemma getLsbD_lane {x : Xmm} {i j : Nat} :
    (lane x i).toBitVec.getLsbD j = (decide (j < 32) && x.getLsbD (32 * i + j)) :=
  BitVec.getLsbD_extractLsb' _ _ _ _

/-- The lowest of four packed lanes. -/
@[simp] lemma lane_ofLanes_zero : lane (ofLanes x0 x1 x2 x3) 0 = x0 := by
  refine UInt32.toBitVec_inj.1 (BitVec.eq_of_getLsbD_eq fun i hi => ?_)
  rw [getLsbD_lane, getLsbD_ofLanes, if_pos (by omega)]
  simp [hi]

/-- The second of four packed lanes. -/
@[simp] lemma lane_ofLanes_one : lane (ofLanes x0 x1 x2 x3) 1 = x1 := by
  refine UInt32.toBitVec_inj.1 (BitVec.eq_of_getLsbD_eq fun i hi => ?_)
  rw [getLsbD_lane, getLsbD_ofLanes, if_neg (by omega), if_pos (by omega)]
  simp [hi]

/-- The third of four packed lanes. -/
@[simp] lemma lane_ofLanes_two : lane (ofLanes x0 x1 x2 x3) 2 = x2 := by
  refine UInt32.toBitVec_inj.1 (BitVec.eq_of_getLsbD_eq fun i hi => ?_)
  rw [getLsbD_lane, getLsbD_ofLanes, if_neg (by omega), if_neg (by omega), if_pos (by omega)]
  simp [hi]

/-- The highest of four packed lanes. -/
@[simp] lemma lane_ofLanes_three : lane (ofLanes x0 x1 x2 x3) 3 = x3 := by
  refine UInt32.toBitVec_inj.1 (BitVec.eq_of_getLsbD_eq fun i hi => ?_)
  rw [getLsbD_lane, getLsbD_ofLanes, if_neg (by omega), if_neg (by omega), if_neg (by omega)]
  simp [hi]

/-- `pshufd` with 0xb1 swaps the lanes in pairs. -/
lemma pshufd_swap : pshufd (ofLanes x0 x1 x2 x3) 0xb1 = ofLanes x1 x0 x3 x2 := by
  show ofLanes (lane _ 1) (lane _ 0) (lane _ 3) (lane _ 2) = _
  rw [lane_ofLanes_zero, lane_ofLanes_one, lane_ofLanes_two, lane_ofLanes_three]

/-- `pshufd` with 0x1b turns the order of the lanes. -/
lemma pshufd_reverse : pshufd (ofLanes x0 x1 x2 x3) 0x1b = ofLanes x3 x2 x1 x0 := by
  show ofLanes (lane _ 3) (lane _ 2) (lane _ 1) (lane _ 0) = _
  rw [lane_ofLanes_zero, lane_ofLanes_one, lane_ofLanes_two, lane_ofLanes_three]

/-- A shift by eight bytes moves the high lanes down. -/
lemma psrldq_ofLanes : psrldq (ofLanes x0 x1 x2 x3) 8 = ofLanes x2 x3 0 0 := by
  refine BitVec.eq_of_getLsbD_eq fun i hi => ?_
  rw [psrldq, BitVec.getLsbD_ushiftRight, getLsbD_ofLanes, getLsbD_ofLanes, if_neg (by omega),
    if_neg (by omega)]
  split_ifs <;> first | omega | skip
  · exact congrArg _ (by omega)
  · exact congrArg _ (by omega)
  · exact (BitVec.getLsbD_of_ge _ _ (by omega)).trans (by simp)
  · exact (BitVec.getLsbD_of_ge _ _ (by omega)).trans (by simp)

/-- A shift by eight bytes the other way moves the low lanes up. -/
lemma pslldq_ofLanes : pslldq (ofLanes x0 x1 x2 x3) 8 = ofLanes 0 0 x0 x1 := by
  refine BitVec.eq_of_getLsbD_eq fun i hi => ?_
  rw [pslldq, BitVec.getLsbD_shiftLeft, getLsbD_ofLanes, getLsbD_ofLanes]
  by_cases low : i < 64
  · have zero : (decide (i < 128) && !decide (i < 8 * 8)) = false := by simp [low]
    rw [zero, Bool.false_and]
    split_ifs <;> simp
  · have inside : (decide (i < 128) && !decide (i < 8 * 8)) = true := by simp [low, hi]
    rw [inside, Bool.true_and, if_neg (by omega : ¬i < 32), if_neg low]
    split_ifs <;> first | omega | rfl

/-- The disjunction is taken lane by lane. -/
lemma por_ofLanes :
    por (ofLanes x0 x1 x2 x3) (ofLanes y0 y1 y2 y3) =
      ofLanes (x0 ||| y0) (x1 ||| y1) (x2 ||| y2) (x3 ||| y3) := by
  refine BitVec.eq_of_getLsbD_eq fun i hi => ?_
  rw [por, BitVec.getLsbD_or, getLsbD_ofLanes, getLsbD_ofLanes, getLsbD_ofLanes]
  split_ifs <;> simp

/-- The low halves are put side by side. -/
lemma punpcklqdq_ofLanes :
    punpcklqdq (ofLanes x0 x1 x2 x3) (ofLanes y0 y1 y2 y3) = ofLanes x0 x1 y0 y1 := by
  refine BitVec.eq_of_getLsbD_eq fun i hi => ?_
  rw [punpcklqdq]
  change BitVec.getLsbD (w := 64 + 64) _ i = _
  rw [BitVec.getLsbD_append, BitVec.getLsbD_extractLsb', BitVec.getLsbD_extractLsb',
    getLsbD_ofLanes, getLsbD_ofLanes, getLsbD_ofLanes]
  simp only [Nat.zero_add]
  by_cases low : i < 64
  · rw [if_pos low]
    split_ifs <;> simp [low]
  · have below : i - 64 < 64 := by omega
    rw [if_neg low, if_neg (by omega : ¬i < 32), if_neg low, decide_eq_true below, Bool.true_and]
    split_ifs <;> first | omega | rfl

end Xmm

namespace Sha256
open Xmm

/-- The two registers that hold the state: A, B, E, F and C, D, G, H from the high lane down. -/
def packed (r : Registers) : Xmm × Xmm :=
  (ofLanes r.f r.e r.b r.a, ofLanes r.h r.g r.d r.c)

variable (schedule : Vector UInt32 64)

/-- A round of the instruction is a round of `compress_scalar`. -/
lemma shaRound_eq (r : Registers) (index : Nat) :
    shaRound r (schedule[index]! + K[index]!) = scalarRound schedule r index := by
  rw [shaRound, scalarRound]
  simp only [choose, majority, sigma0, sigma1, Registers.mk.injEq, true_and]
  refine ⟨?_, ?_⟩ <;> ac_rfl

/-- Two rounds: what was in one register is then in the other. -/
lemma packed_rounds (r : Registers) (index : Nat) (wk : Xmm)
    (first : lane wk 0 = schedule[index]! + K[index]!)
    (second : lane wk 1 = schedule[index + 1]! + K[index + 1]!) :
    packed (scalarRound schedule (scalarRound schedule r index) (index + 1)) =
      (sha256rnds2 (packed r).2 (packed r).1 wk, (packed r).1) := by
  have start : sha256rnds2 (packed r).2 (packed r).1 wk =
      (packed (scalarRound schedule (scalarRound schedule r index) (index + 1))).1 := by
    rw [← shaRound_eq schedule, ← shaRound_eq schedule, ← first, ← second]
    simp [sha256rnds2, packed]
  rw [start]
  rfl

/-- A word of the rounds is a word of the schedule with its constant. -/
lemma roundWords_get {index : Nat} (lt : index < 64) :
    (roundWords schedule)[index]! = schedule[index]! + K[index]! := by
  rw [getElem!_pos _ index lt, getElem!_pos schedule index lt, getElem!_pos K index lt, roundWords]
  simp

/-- A turn of the loop is four rounds. -/
lemma quadRound_packed (r : Registers) {turn : Nat} (lt : turn < 16) :
    quadRound (roundWords schedule) (packed r) turn =
      packed ((List.range' (4 * turn) 4).foldl (scalarRound schedule) r) := by
  have word0 := roundWords_get schedule (by omega : 4 * turn < 64)
  have word1 := roundWords_get schedule (by omega : 4 * turn + 1 < 64)
  have word2 := roundWords_get schedule (by omega : 4 * turn + 2 < 64)
  have word3 := roundWords_get schedule (by omega : 4 * turn + 3 < 64)
  have low := packed_rounds schedule r (4 * turn) (loadXmm (roundWords schedule) (4 * turn))
    (by rw [loadXmm, lane_ofLanes_zero, word0]) (by rw [loadXmm, lane_ofLanes_one, word1])
  have high := packed_rounds schedule
    (scalarRound schedule (scalarRound schedule r (4 * turn)) (4 * turn + 1)) (4 * turn + 2)
    (pshufd (loadXmm (roundWords schedule) (4 * turn)) 0x0e)
    (by rw [pshufd, lane_ofLanes_zero, loadXmm, lane_ofLanes_two, word2])
    (by rw [pshufd, lane_ofLanes_one, loadXmm, lane_ofLanes_three, word3])
  simp only [List.range', List.foldl_cons, List.foldl_nil]
  rw [quadRound, high, low]

/-- Turns of four rounds, one after another, are all rounds. -/
lemma foldl_quads {σ : Type} (f : σ → Nat → σ) (start : σ) (turns : Nat) :
    (List.range turns).foldl (fun s turn => (List.range' (4 * turn) 4).foldl f s) start =
      (List.range (4 * turns)).foldl f start := by
  induction turns with
  | zero => rfl
  | succ turns ih =>
    have split : List.range' 0 (4 * turns) ++ List.range' (0 + 4 * turns) 4 =
        List.range' 0 (4 * turns + 4) := List.range'_append_1
    rw [Nat.zero_add, ← List.range_eq_range', ← List.range_eq_range'] at split
    rw [Nat.mul_succ, ← split, List.range_succ, List.foldl_append, ih, List.foldl_append,
      List.foldl_cons, List.foldl_nil]

/-- Turns of four rounds on the packed registers are the rounds one by one. -/
lemma foldl_quadRound (r : Registers) {turns : Nat} (le : turns ≤ 16) :
    (List.range turns).foldl (quadRound (roundWords schedule)) (packed r) =
      packed ((List.range (4 * turns)).foldl (scalarRound schedule) r) := by
  rw [← foldl_quads]
  induction turns with
  | zero => rfl
  | succ turns ih =>
    rw [List.range_succ, List.foldl_append, List.foldl_append, ih (by omega), List.foldl_cons,
      List.foldl_nil, List.foldl_cons, List.foldl_nil]
    exact quadRound_packed schedule _ (by omega)

/-- The packed registers start as the scalar ones do. -/
lemma loadState_eq (state : Vector UInt32 8) : loadState state = packed (startRegisters state) := by
  have state1 : loadXmm state 0 = ofLanes state[0] state[1] state[2] state[3] := by
    rw [loadXmm, getElem!_pos state 0, getElem!_pos state 1, getElem!_pos state 2,
      getElem!_pos state 3]
  have state2 : loadXmm state 4 = ofLanes state[4] state[5] state[6] state[7] := by
    rw [loadXmm, getElem!_pos state 4, getElem!_pos state 5, getElem!_pos state 6,
      getElem!_pos state 7]
  simp only [loadState, state1, state2, pshufd_swap, pshufd_reverse, psrldq_ofLanes,
    pslldq_ofLanes, por_ofLanes, punpcklqdq_ofLanes, UInt32.or_zero, UInt32.zero_or]
  rfl

/-- The shuffles at the end undo those at the start. -/
lemma storeState_packed (r s : Registers) :
    storeState (packed r).1 (packed r).2 (packed s).1 (packed s).2 =
      #v[s.a + r.a, s.b + r.b, s.c + r.c, s.d + r.d, s.e + r.e, s.f + r.f, s.g + r.g,
        s.h + r.h] := by
  simp only [storeState, packed, paddd, lane_ofLanes_zero, lane_ofLanes_one, lane_ofLanes_two,
    lane_ofLanes_three, pshufd_swap, pshufd_reverse, psrldq_ofLanes, punpcklqdq_ofLanes]
  simp only [UInt32.add_comm]

/-- The scalar compression is its rounds and the addition of the start. -/
lemma compressScalar_eq (state : Vector UInt32 8) :
    compressScalar state schedule =
      let s := startRegisters state
      let r := (List.range 64).foldl (scalarRound schedule) s
      #v[s.a + r.a, s.b + r.b, s.c + r.c, s.d + r.d, s.e + r.e, s.f + r.f, s.g + r.g,
        s.h + r.h] := by
  rw [compressScalar, startRegisters]

/-- The SHA extension's compression is the scalar one, for every state and every schedule. -/
theorem compressShaNi_eq_compressScalar (cpu : Processor) (state : Vector UInt32 8)
    (schedule : Vector UInt32 64) :
    compressShaNi { cpu with sha256Rounds := promptbootSha256Rounds } state schedule =
      compressScalar state schedule := by
  have loop := foldl_quadRound schedule (startRegisters state) (Nat.le_refl 16)
  rw [compressShaNi, ← roundWords]
  simp only [promptbootSha256Rounds, loadState_eq, Prod.mk.eta, loop]
  rw [storeState_packed, compressScalar_eq]

end Sha256

end Promptboot
