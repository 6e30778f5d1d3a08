import Promptboot.Engine.Kv
import Promptboot.Machine.Cpu
import Promptboot.Primitive.Divide
import Mathlib.Data.Fin.VecNotation

/-!
# Attention

`inference_attention` with both of its backends (`fp32_sse2.rs`), over floating-point operations
that are left open; a vector instruction does in each lane what the scalar operation does. Queries,
scores and output are memories of words, as the cache is. A score counts only when its position is
live, so nothing that a later row holds gets into the output.

The helper `sumLane_foldl` says that four products per step are added lane by lane as they are in
the vector path, and `attentionScoresSse2_apply` and `attentionScoresAvx2_apply` bring both paths to
`scoreAt`. The congruence lemmas (`maximumScore_congr` to `softmaxScores_congr`) carry the live rows
through the softmax. The headline `attention_backends_agree` assembles them in
`inferenceAttention_output`.
-/

namespace Promptboot

/-- The scalar floating-point operations, on the bits of their operands. -/
structure Fp32Ops where
  add : Word → Word → Word
  sub : Word → Word → Word
  mul : Word → Word → Word
  greater : Word → Word → Bool
  f32ToF64 : Word → UInt64
  f64ToF32 : UInt64 → Word
  f64Add : UInt64 → UInt64 → UInt64
  f64Div : UInt64 → UInt64 → UInt64

/-- The lanes of `__m128` and of `__m128d`. -/
abbrev Ps := Fin 4 → Word
abbrev Pd := Fin 2 → UInt64

section Instructions

variable (ops : Fp32Ops)

def set1Ps (bits : Word) : Ps := fun _ => bits

def setzeroPd : Pd := fun _ => 0

def loaduPs (memory : Nat → Word) (word : Nat) : Ps := fun lane => memory (word + lane)

def storeuPs (memory : Nat → Word) (word : Nat) (x : Ps) : Nat → Word :=
  Memory.writeAll memory (List.finRange 4) (fun lane => word + lane) x

def mulPs (x y : Ps) : Ps := fun lane => ops.mul (x lane) (y lane)

def addPd (x y : Pd) : Pd := fun lane => ops.f64Add (x lane) (y lane)

/-- The low half of `y`, and then that of `x`, from their high halves. -/
def movehlPs (x y : Ps) : Ps := ![y 2, y 3, x 2, x 3]

def cvtpsPd (x : Ps) : Pd := ![ops.f32ToF64 (x 0), ops.f32ToF64 (x 1)]

def cvtpdPs (x : Pd) : Ps := ![ops.f64ToF32 (x 0), ops.f64ToF32 (x 1), 0, 0]

/-- `attention_maskload4`: a masked lane is not read. -/
def attentionMaskload4 (source : Nat → Word) (word remaining : Nat) : Ps :=
  fun lane => if lane < remaining then source (word + lane) else 0

end Instructions

section Kernels

variable (ops : Fp32Ops)

/-- A turn of `inference_expf4_in_place`. -/
def inferenceExpf (value : Word) : Word :=
  if value = 0xff800000 then
    0
  else
    let z := ops.add (ops.mul value 0x3fb8aa3b) 0x4b400000
    let n := ops.sub z 0x4b400000
    let inner := ops.sub value (ops.mul n 0x3f317200)
    let b := ops.sub inner (ops.mul n 0x35bfbe8e)
    let e := z <<< 23
    let k := e + 0x3f800000
    let absoluteN := n &&& 0x7fffffff
    let u := ops.mul b b
    let first := ops.add (ops.mul 0x3c072010 b) 0x3d2b9f17
    let second := ops.add (ops.mul 0x3e2aaf33 b) 0x3efffedb
    let polynomial := ops.add (ops.mul first u) second
    let j := ops.add (ops.mul polynomial u) (ops.mul 0x3f7ffff6 b)
    if ops.greater absoluteN 0x42fc0000 = false then
      ops.add (ops.mul j k) k
    else
      let g : Word := if ops.greater n 0 = false then 0x82000000 else 0
      let s1 := g + 0x7f000000
      let s2 := e - g
      let exceptional := ops.mul (ops.add (ops.mul s2 j) s2) s1
      if ops.greater absoluteN 0x43400000 = true then ops.mul s1 s1 else exceptional

def inferenceExpf4InPlace (values : Ps) : Ps := fun lane => inferenceExpf ops (values lane)

def horizontalSum4 (values : Ps) : Word :=
  ops.add (ops.add (values 0) (values 1)) (ops.add (values 2) (values 3))

/-- `write_bits` -/
def writeBits (memory : Nat → Word) (word : Nat) (bits : Word) : Nat → Word :=
  Function.update memory word bits

variable (query kv : Nat → Word)

def attentionScoresSse2 (scores : Nat → Word) (layer queryHead kvHead positions : Nat) :
    Nat → Word :=
  (List.range positions).foldl (fun scores position =>
    let dot := (List.range 64).foldl (fun dot component =>
      let key := kvWord layer 0 position kvHead component
      ops.f64Add dot (ops.f32ToF64 (ops.mul (query (queryHead * 64 + component)) (kv key)))) 0
    writeBits scores position (ops.mul (ops.f64ToF32 dot) 0x3e000000)) scores

/-- The two `_mm_add_pd` of a turn: the products of four lanes onto `low` and `high`. -/
def addProducts (sums : Pd × Pd) (products : Ps) : Pd × Pd :=
  (addPd ops sums.1 (cvtpsPd ops products),
    addPd ops sums.2 (cvtpsPd ops (movehlPs products products)))

/-- `low` and `high` as four words, out of `converted`. -/
def convertedWords (sums : Pd × Pd) : Ps :=
  ![cvtpdPs ops sums.1 0, cvtpdPs ops sums.1 1, cvtpdPs ops sums.2 0, cvtpdPs ops sums.2 1]

def attentionScoresAvx2 (scores : Nat → Word)
    (layer queryHead kvHead positions softmaxSpan : Nat) : Nat → Word :=
  (List.range ((softmaxSpan + 3) / 4)).foldl (fun scores tile =>
    let position := 4 * tile
    let remaining := min (positions - position) 4
    let sums := (List.range 64).foldl (fun sums component =>
      let queryLanes := set1Ps (query (queryHead * 64 + component))
      let key := kvWord layer 0 position kvHead component
      let keys := if remaining = 4 then loaduPs kv key else attentionMaskload4 kv key remaining
      addProducts ops sums (mulPs ops queryLanes keys)) (setzeroPd, setzeroPd)
    storeuPs scores position (mulPs ops (convertedWords ops sums) (set1Ps 0x3e000000))) scores

def attentionValuesSse2 (probabilities output : Nat → Word)
    (layer queryHead kvHead positions : Nat) : Nat → Word :=
  (List.range 64).foldl (fun output component =>
    let total := (List.range positions).foldl (fun total position =>
      let value := kvWord layer 1 position kvHead component
      ops.f64Add total (ops.f32ToF64 (ops.mul (probabilities position) (kv value)))) 0
    writeBits output (queryHead * 64 + component) (ops.f64ToF32 total)) output

def attentionValuesAvx2 (probabilities output : Nat → Word)
    (layer queryHead kvHead positions : Nat) : Nat → Word :=
  (List.range 16).foldl (fun output tile =>
    let component := 4 * tile
    let sums := (List.range positions).foldl (fun sums position =>
      let probability := set1Ps (probabilities position)
      let value := kvWord layer 1 position kvHead component
      addProducts ops sums (mulPs ops probability (loaduPs kv value))) (setzeroPd, setzeroPd)
    storeuPs output (queryHead * 64 + component) (convertedWords ops sums)) output

def attentionScores (backend : InferenceBackend) (scores : Nat → Word)
    (layer queryHead kvHead positions softmaxSpan : Nat) : Nat → Word :=
  match backend with
  | .avx2 => attentionScoresAvx2 ops query kv scores layer queryHead kvHead positions softmaxSpan
  | .sse2 => attentionScoresSse2 ops query kv scores layer queryHead kvHead positions

def attentionValues (backend : InferenceBackend) (probabilities output : Nat → Word)
    (layer queryHead kvHead positions : Nat) : Nat → Word :=
  match backend with
  | .avx2 => attentionValuesAvx2 ops kv probabilities output layer queryHead kvHead positions
  | .sse2 => attentionValuesSse2 ops kv probabilities output layer queryHead kvHead positions

/-- The loop that finds the maximum of the scores. -/
def maximumScore (scores : Nat → Word) (positions : Nat) : Word :=
  (List.range positions).foldl (fun maximum position =>
    let score := scores position
    if ops.greater score maximum = true then score else maximum) 0xff800000

/-- The loop that masks the scores behind the live positions. -/
def maskScores (scores : Nat → Word) (positions softmaxSpan : Nat) : Nat → Word :=
  (List.range' positions (softmaxSpan - positions)).foldl (fun scores masked =>
    writeBits scores masked 0xff800000) scores

/-- The loop that turns the scores into exponentials, and their sum. -/
def exponentiate (scores : Nat → Word) (maximum : Word) (softmaxSpan : Nat) :
    UInt64 × (Nat → Word) :=
  (List.range ((softmaxSpan + 3) / 4)).foldl (fun (sum, scores) tile =>
    let position := 4 * tile
    let probabilities : Ps := fun lane => ops.sub (scores (position + lane)) maximum
    let probabilities := inferenceExpf4InPlace ops probabilities
    (ops.f64Add sum (ops.f32ToF64 (horizontalSum4 ops probabilities)),
      storeuPs scores position probabilities)) (0, scores)

/-- The loop that scales the exponentials. -/
def normalize (scores : Nat → Word) (normalizer : Word) (positions : Nat) : Nat → Word :=
  (List.range positions).foldl (fun scores position =>
    writeBits scores position (ops.mul (scores position) normalizer)) scores

/-- What a turn of `inference_attention_inner` makes of the scores between its two kernels. -/
def softmaxScores (scores : Nat → Word) (positions softmaxSpan : Nat) : Nat → Word :=
  let maximum := maximumScore ops scores positions
  let scores := maskScores scores positions softmaxSpan
  let (sum, scores) := exponentiate ops scores maximum softmaxSpan
  let normalizer := ops.f64ToF32 (ops.f64Div 0x3ff0000000000000 sum)
  normalize ops scores normalizer positions

/-- The key and value head that a query head reads, `unsigned_divide(query_head, 7)`. -/
def kvHeadFor (queryHead : Nat) : Nat :=
  (Primitive.unsignedDivide (UInt64.ofNat queryHead) 7).toNat

/-- A turn of `inference_attention_inner`: the scores and the output after a query head. -/
def attentionHead (backend : InferenceBackend) (layer positions softmaxSpan : Nat)
    (memories : (Nat → Word) × (Nat → Word)) (queryHead : Nat) :
    (Nat → Word) × (Nat → Word) :=
  let (scores, output) := memories
  let kvHead := kvHeadFor queryHead
  let scores :=
    attentionScores ops query kv backend scores layer queryHead kvHead positions softmaxSpan
  let scores := softmaxScores ops scores positions softmaxSpan
  let output := attentionValues ops kv backend scores output layer queryHead kvHead positions
  (scores, output)

/-- `inference_attention`: the scores and the output it leaves. -/
def inferenceAttention (backend : InferenceBackend) (output scores : Nat → Word)
    (layer currentPosition softmaxSpan : Nat) : (Nat → Word) × (Nat → Word) :=
  (List.range 14).foldl
    (attentionHead ops query kv backend layer (currentPosition + 1) softmaxSpan) (scores, output)

end Kernels

section Lanes

variable (ops : Fp32Ops)

/-- The sum that a lane has come to. -/
def sumLane (sums : Pd × Pd) : Fin 4 → UInt64 := ![sums.1 0, sums.1 1, sums.2 0, sums.2 1]

/-- A turn adds its product to each lane's sum. -/
lemma sumLane_addProducts (sums : Pd × Pd) (products : Ps) (lane : Fin 4) :
    sumLane (addProducts ops sums products) lane =
      ops.f64Add (sumLane sums lane) (ops.f32ToF64 (products lane)) := by
  match lane with
  | 0 | 1 | 2 | 3 => rfl

/-- The converted word of a lane is its sum, rounded. -/
lemma convertedWords_lane (sums : Pd × Pd) (lane : Fin 4) :
    convertedWords ops sums lane = ops.f64ToF32 (sumLane sums lane) := by
  match lane with
  | 0 | 1 | 2 | 3 => rfl

/-- Each lane adds its products in the order of the scalar loop. -/
lemma sumLane_foldl (products : Nat → Ps) (turns : List Nat) (lane : Fin 4) :
    sumLane (turns.foldl (fun sums i => addProducts ops sums (products i))
      (setzeroPd, setzeroPd)) lane =
    turns.foldl (fun sum i => ops.f64Add sum (ops.f32ToF64 (products i lane))) 0 := by
  have zero : sumLane (setzeroPd, setzeroPd) lane = 0 := by
    match lane with
    | 0 | 1 | 2 | 3 => rfl
  rw [← zero]
  generalize (setzeroPd, setzeroPd) = sums
  induction turns generalizing sums with
  | nil => rfl
  | cons i turns ih =>
    rw [List.foldl_cons, List.foldl_cons, ih, sumLane_addProducts]

end Lanes

section Stores

variable {memory : Nat → Word} {word : Nat} {x : Ps}

/-- A vector store puts each lane at its word. -/
lemma storeuPs_lane (lane : Fin 4) : storeuPs memory word x (word + lane) = x lane := by
  refine Memory.writeAll_of_mem ⟨lane, List.mem_finRange lane, rfl⟩ fun i _ same => ?_
  rw [Fin.ext (Nat.add_left_cancel same)]

/-- A vector store leaves the words outside. -/
lemma storeuPs_of_ne {p : Nat} (outside : p < word ∨ word + 4 ≤ p) :
    storeuPs memory word x p = memory p := by
  refine Memory.writeAll_of_ne fun lane _ => ?_
  have small := lane.isLt
  omega

/-- What a vector store leaves at a word depends on that word only. -/
lemma storeuPs_congr {memory' : Nat → Word} {p : Nat} (same : memory p = memory' p) :
    storeuPs memory word x p = storeuPs memory' word x p := by
  by_cases inside : word ≤ p ∧ p < word + 4
  · have there : p = word + (⟨p - word, by omega⟩ : Fin 4) := by
      dsimp only
      omega
    rw [there, storeuPs_lane, storeuPs_lane]
  · rw [storeuPs_of_ne (by omega), storeuPs_of_ne (by omega), same]

/-- Stores of four words one behind the other. -/
lemma foldl_storeuPs {start : Nat} {address : Nat → Nat} (values : Nat → Ps)
    (spaced : ∀ tile, address tile = start + 4 * tile) (tiles p : Nat) :
    (List.range tiles).foldl (fun m tile => storeuPs m (address tile) (values tile)) memory p =
      if start ≤ p ∧ p < start + 4 * tiles then
        values ((p - start) / 4) ⟨(p - start) % 4, Nat.mod_lt _ (by decide)⟩
      else memory p := by
  induction tiles with
  | zero =>
    rw [if_neg (by omega)]
    rfl
  | succ tiles ih =>
    rw [List.range_succ, List.foldl_append, List.foldl_cons, List.foldl_nil, spaced]
    by_cases last : start + 4 * tiles ≤ p ∧ p < start + 4 * (tiles + 1)
    · have tile : (p - start) / 4 = tiles := by omega
      have at_lane : p = start + 4 * tiles + (p - start) % 4 := by omega
      rw [if_pos (by omega), tile]
      conv_lhs => rw [at_lane]
      exact storeuPs_lane ⟨(p - start) % 4, Nat.mod_lt _ (by decide)⟩
    · rw [storeuPs_of_ne (by omega), ih]
      by_cases inside : start ≤ p ∧ p < start + 4 * tiles
      · rw [if_pos inside, if_pos (by omega)]
      · rw [if_neg inside, if_neg (by omega)]

end Stores

section Phases

variable (ops : Fp32Ops) (query kv : Nat → Word)

/-- The score of a position. -/
def scoreAt (layer queryHead kvHead position : Nat) : Word :=
  ops.mul (ops.f64ToF32 ((List.range 64).foldl (fun dot component =>
    ops.f64Add dot (ops.f32ToF64 (ops.mul (query (queryHead * 64 + component))
      (kv (kvWord layer 0 position kvHead component))))) 0)) 0x3e000000

/-- A component of the output. -/
def valueAt (probabilities : Nat → Word) (layer kvHead positions component : Nat) : Word :=
  ops.f64ToF32 ((List.range positions).foldl (fun total position =>
    ops.f64Add total (ops.f32ToF64 (ops.mul (probabilities position)
      (kv (kvWord layer 1 position kvHead component))))) 0)

variable {ops query kv} {layer queryHead kvHead positions softmaxSpan : Nat}

/-- The four positions of a tile are side by side. -/
lemma kvWord_tile (layer kvHead component : Nat) {position : Nat} (tile : position % 4 = 0)
    (lane : Fin 4) :
    kvWord layer 0 position kvHead component + lane =
      kvWord layer 0 (position + lane) kvHead component := by
  have small := lane.isLt
  simp only [kvWord, if_true, kvTile]
  have same : (position + lane) / 4 = position / 4 := by omega
  have offset : (position + lane) % 4 = position % 4 + lane := by omega
  rw [same, offset]
  omega

/-- The components of a tile lie side by side. -/
lemma kvWord_components (layer kvHead position component : Nat) (lane : Fin 4) :
    kvWord layer 1 position kvHead component + lane =
      kvWord layer 1 position kvHead (component + lane) := by
  simp only [kvWord, Nat.one_ne_zero, if_false]
  omega

/-- The lanes of live positions are loaded, with the mask or without. -/
lemma load_lane {word remaining : Nat} {lane : Fin 4} (live : lane < remaining) :
    (if remaining = 4 then loaduPs kv word else attentionMaskload4 kv word remaining) lane =
      kv (word + lane) := by
  split_ifs
  · rfl
  · exact if_pos live

/-- With SSE2 the score of a live position is the scalar one. -/
lemma attentionScoresSse2_apply (scores : Nat → Word) {p : Nat} (live : p < positions) :
    attentionScoresSse2 ops query kv scores layer queryHead kvHead positions p =
      scoreAt ops query kv layer queryHead kvHead p := by
  show Memory.writeAll scores (List.range positions) (fun position => position)
    (scoreAt ops query kv layer queryHead kvHead) p = _
  exact Memory.writeAll_of_mem ⟨p, List.mem_range.mpr live, rfl⟩ fun i _ same => by rw [same]

/-- With AVX2 the score of a live position is the scalar one. -/
lemma attentionScoresAvx2_apply (scores : Nat → Word) (fits : positions ≤ softmaxSpan)
    (tiles : softmaxSpan % 4 = 0) {p : Nat} (live : p < positions) :
    attentionScoresAvx2 ops query kv scores layer queryHead kvHead positions softmaxSpan p =
      scoreAt ops query kv layer queryHead kvHead p := by
  -- the position is lane `p % 4` of tile `p / 4`, and that lane is not masked
  have spaced (tile : Nat) : 4 * tile = 0 + 4 * tile := (Nat.zero_add _).symm
  have inside : 0 ≤ p ∧ p < 0 + 4 * ((softmaxSpan + 3) / 4) := by omega
  have tile : 4 * (p / 4) % 4 = 0 := Nat.mul_mod_right 4 _
  have whole : 4 * (p / 4) + p % 4 = p := Nat.div_add_mod p 4
  rw [attentionScoresAvx2, foldl_storeuPs _ spaced, if_pos inside, Nat.sub_zero]
  dsimp only [mulPs, set1Ps]
  rw [convertedWords_lane, sumLane_foldl, scoreAt]
  refine congrArg (fun dot => ops.mul (ops.f64ToF32 dot) 0x3e000000) ?_
  refine List.foldl_ext _ _ _ fun dot component _ => ?_
  have key := kvWord_tile layer kvHead component tile ⟨p % 4, Nat.mod_lt _ (by decide)⟩
  have lane : p % 4 < min (positions - 4 * (p / 4)) 4 := by omega
  dsimp only [mulPs, set1Ps] at key ⊢
  rw [whole] at key
  rw [← key, load_lane lane]

/-- A component of the output, wherever the turn writes it. -/
lemma attentionValues_apply (backend : InferenceBackend) (probabilities output : Nat → Word) :
    attentionValues ops kv backend probabilities output layer queryHead kvHead positions =
    fun word => if queryHead * 64 ≤ word ∧ word < queryHead * 64 + 64 then
      valueAt ops kv probabilities layer kvHead positions (word - queryHead * 64)
    else output word := by
  funext word
  cases backend with
  | sse2 =>
    show Memory.writeAll output (List.range 64) (fun component => queryHead * 64 + component)
      (valueAt ops kv probabilities layer kvHead positions) word = _
    by_cases inside : queryHead * 64 ≤ word ∧ word < queryHead * 64 + 64
    · rw [if_pos inside]
      have there : queryHead * 64 + (word - queryHead * 64) = word := by omega
      refine Memory.writeAll_of_mem ⟨_, List.mem_range.mpr (by omega), there⟩ fun i _ same => ?_
      rw [← same, Nat.add_sub_cancel_left]
    · rw [if_neg inside]
      refine Memory.writeAll_of_ne fun component mem => ?_
      have small := List.mem_range.mp mem
      omega
  | avx2 =>
    show attentionValuesAvx2 ops kv probabilities output layer queryHead kvHead positions word = _
    have spaced (tile : Nat) : queryHead * 64 + 4 * tile = queryHead * 64 + 4 * tile := rfl
    rw [attentionValuesAvx2, foldl_storeuPs _ spaced]
    by_cases inside : queryHead * 64 ≤ word ∧ word < queryHead * 64 + 64
    · rw [if_pos inside, if_pos inside]
      dsimp only
      rw [convertedWords_lane, sumLane_foldl, valueAt]
      refine congrArg ops.f64ToF32 (List.foldl_ext _ _ _ fun total position _ => ?_)
      have value := kvWord_components layer kvHead position
        (4 * ((word - queryHead * 64) / 4)) ⟨(word - queryHead * 64) % 4, Nat.mod_lt _ (by decide)⟩
      dsimp only [mulPs, set1Ps, loaduPs] at value ⊢
      rw [value, Nat.div_add_mod]
    · rw [if_neg inside, if_neg inside]

/-- The scores are those of the live positions, on either backend. -/
lemma attentionScores_apply (backend : InferenceBackend) (scores : Nat → Word)
    (fits : positions ≤ softmaxSpan) (tiles : softmaxSpan % 4 = 0) {p : Nat}
    (live : p < positions) :
    attentionScores ops query kv backend scores layer queryHead kvHead positions softmaxSpan p =
      scoreAt ops query kv layer queryHead kvHead p := by
  cases backend with
  | sse2 => exact attentionScoresSse2_apply scores live
  | avx2 => exact attentionScoresAvx2_apply scores fits tiles live

variable {scores scores' : Nat → Word}

/-- The maximum depends on the live scores only. -/
lemma maximumScore_congr (same : ∀ p < positions, scores p = scores' p) :
    maximumScore ops scores positions = maximumScore ops scores' positions := by
  refine List.foldl_ext _ _ _ fun maximum p mem => ?_
  rw [same p (List.mem_range.mp mem)]

/-- Behind the live positions the scores are the mask. -/
lemma maskScores_congr (same : ∀ p < positions, scores p = scores' p) {p : Nat}
    (inside : p < softmaxSpan) :
    maskScores scores positions softmaxSpan p = maskScores scores' positions softmaxSpan p := by
  have loop (s : Nat → Word) : maskScores s positions softmaxSpan =
      Memory.writeAll s (List.range' positions (softmaxSpan - positions)) (fun masked => masked)
        fun _ => 0xff800000 := rfl
  rw [loop, loop]
  by_cases live : p < positions
  · have front : ∀ i ∈ List.range' positions (softmaxSpan - positions), i ≠ p := by
      intro i mem
      have bounds := List.mem_range'_1.mp mem
      omega
    rw [Memory.writeAll_of_ne front, Memory.writeAll_of_ne front, same p live]
  · have masked : ∃ i ∈ List.range' positions (softmaxSpan - positions), i = p :=
      ⟨p, List.mem_range'_1.mpr (by omega), rfl⟩
    rw [Memory.writeAll_of_mem masked fun _ _ _ => rfl,
      Memory.writeAll_of_mem masked fun _ _ _ => rfl]

/-- The exponentials and their sum depend on the scores of the span only. -/
lemma exponentiate_congr {ops : Fp32Ops} (maximum : Word) (tiles : softmaxSpan % 4 = 0)
    (same : ∀ p < softmaxSpan, scores p = scores' p) :
    (exponentiate ops scores maximum softmaxSpan).1 =
        (exponentiate ops scores' maximum softmaxSpan).1 ∧
      ∀ p < softmaxSpan, (exponentiate ops scores maximum softmaxSpan).2 p =
        (exponentiate ops scores' maximum softmaxSpan).2 p := by
  refine List.foldl_rel (r := fun left right : UInt64 × (Nat → Word) => left.1 = right.1 ∧
    ∀ p < softmaxSpan, left.2 p = right.2 p) ⟨rfl, same⟩ ?_
  rintro tile mem ⟨sum, scores⟩ ⟨sum', scores'⟩ ⟨sums, same⟩
  dsimp only at sums same ⊢
  have small := List.mem_range.mp mem
  have probabilities : (fun lane : Fin 4 => ops.sub (scores (4 * tile + lane)) maximum) =
      fun lane : Fin 4 => ops.sub (scores' (4 * tile + lane)) maximum := by
    funext lane
    have inside : 4 * tile + lane < softmaxSpan := by
      have bound := lane.isLt
      omega
    rw [same _ inside]
  rw [probabilities, sums]
  exact ⟨rfl, fun p inside => storeuPs_congr (same p inside)⟩

/-- The normalised scores depend on the live scores only. -/
lemma normalize_congr (normalizer : Word) (same : ∀ p < positions, scores p = scores' p) :
    ∀ p < positions, normalize ops scores normalizer positions p =
      normalize ops scores' normalizer positions p := by
  refine List.foldl_rel (r := fun left right : Nat → Word => ∀ p < positions, left p = right p)
    same ?_
  intro position mem scores scores' same p live
  dsimp only [writeBits]
  rw [Function.update_apply, Function.update_apply, same p live,
    same position (List.mem_range.mp mem)]

/-- The probabilities depend on the live scores only. -/
lemma softmaxScores_congr (fits : positions ≤ softmaxSpan) (tiles : softmaxSpan % 4 = 0)
    (same : ∀ p < positions, scores p = scores' p) :
    ∀ p < positions, softmaxScores ops scores positions softmaxSpan p =
      softmaxScores ops scores' positions softmaxSpan p := by
  have masked := fun p (inside : p < softmaxSpan) => maskScores_congr same inside
  obtain ⟨sums, exponents⟩ :=
    exponentiate_congr (maximumScore ops scores' positions) tiles masked
  unfold softmaxScores
  dsimp only
  rw [maximumScore_congr same, sums]
  exact normalize_congr _ fun p live => exponents p (Nat.lt_of_lt_of_le live fits)

/-- A word of the output depends on the live scores and value rows only. -/
lemma valueAt_congr {kv kv' : Nat → Word} {component : Nat}
    (same : ∀ p < positions, scores p = scores' p)
    (rows : ∀ p < positions, kv (kvWord layer 1 p kvHead component) =
      kv' (kvWord layer 1 p kvHead component)) :
    valueAt ops kv scores layer kvHead positions component =
      valueAt ops kv' scores' layer kvHead positions component := by
  refine congrArg ops.f64ToF32 (List.foldl_ext _ _ _ fun total p mem => ?_)
  rw [same p (List.mem_range.mp mem), rows p (List.mem_range.mp mem)]

/-- A score depends on the key row of its position only. -/
lemma scoreAt_congr {kv kv' : Nat → Word} {position : Nat}
    (rows : ∀ component < 64, kv (kvWord layer 0 position kvHead component) =
      kv' (kvWord layer 0 position kvHead component)) :
    scoreAt ops query kv layer queryHead kvHead position =
      scoreAt ops query kv' layer queryHead kvHead position := by
  refine congrArg (fun dot => ops.mul (ops.f64ToF32 dot) 0x3e000000)
    (List.foldl_ext _ _ _ fun dot component mem => ?_)
  rw [rows component (List.mem_range.mp mem)]

end Phases

section Agree

variable {ops : Fp32Ops} {query kv kv' : Nat → Word} {layer positions softmaxSpan : Nat}

/-- There are seven query heads to a key and value head. -/
lemma kvHeadFor_lt {queryHead : Nat} (small : queryHead < 14) : kvHeadFor queryHead < 2 := by
  have word : (UInt64.ofNat queryHead).toNat = queryHead :=
    UInt64.toNat_ofNat_of_lt' (Nat.lt_trans small (by decide))
  rw [kvHeadFor, Primitive.toNat_unsignedDivide (by decide) (by decide), word]
  exact Nat.div_lt_of_lt_mul small

/-- The words of the live rows of a layer, that attention may read. -/
def LiveRows (kv kv' : Nat → Word) (layer positions : Nat) : Prop :=
  ∀ kind < 2, ∀ p < positions, ∀ head < kvHeads, ∀ component < headWords,
    kv (kvWord layer kind p head component) = kv' (kvWord layer kind p head component)

/-- What a query head writes to the output depends on the live rows only: not on the backend, and
not on what the scores held. -/
lemma attentionHead_output (rows : LiveRows kv kv' layer positions)
    (fits : positions ≤ softmaxSpan) (tiles : softmaxSpan % 4 = 0)
    (backend backend' : InferenceBackend) (output scores scores' : Nat → Word) {queryHead : Nat}
    (small : queryHead < 14) :
    (attentionHead ops query kv backend layer positions softmaxSpan (scores, output)
        queryHead).2 =
      (attentionHead ops query kv' backend' layer positions softmaxSpan (scores', output)
        queryHead).2 := by
  have head := kvHeadFor_lt small
  -- the backends may leave different scores behind the live positions; the mask overwrites them
  have scored : ∀ p < positions,
      attentionScores ops query kv backend scores layer queryHead (kvHeadFor queryHead)
          positions softmaxSpan p =
        attentionScores ops query kv' backend' scores' layer queryHead (kvHeadFor queryHead)
          positions softmaxSpan p := by
    intro p live
    rw [attentionScores_apply backend scores fits tiles live,
      attentionScores_apply backend' scores' fits tiles live]
    exact scoreAt_congr fun component inside => rows 0 (by decide) p live _ head _ inside
  unfold attentionHead
  dsimp only
  rw [attentionValues_apply, attentionValues_apply]
  funext word
  by_cases inside : queryHead * 64 ≤ word ∧ word < queryHead * 64 + 64
  · rw [if_pos inside, if_pos inside]
    exact valueAt_congr (softmaxScores_congr fits tiles scored) fun p live =>
      rows 1 (by decide) p live _ head _ (by unfold headWords; omega)
  · rw [if_neg inside, if_neg inside]

/-- The output depends on the live rows only, whatever the backend and the scores. -/
lemma inferenceAttention_output {currentPosition : Nat}
    (rows : LiveRows kv kv' layer (currentPosition + 1)) (fits : currentPosition + 1 ≤ softmaxSpan)
    (tiles : softmaxSpan % 4 = 0) (backend backend' : InferenceBackend)
    (output scores scores' : Nat → Word) :
    (inferenceAttention ops query kv backend output scores layer currentPosition softmaxSpan).2 =
      (inferenceAttention ops query kv' backend' output scores' layer currentPosition
        softmaxSpan).2 := by
  refine List.foldl_rel (r := fun left right : (Nat → Word) × (Nat → Word) => left.2 = right.2)
    rfl ?_
  rintro queryHead mem ⟨scores, output⟩ ⟨scores', _⟩ rfl
  exact attentionHead_output rows fits tiles backend backend' output scores scores'
    (List.mem_range.mp mem)

/-- Equal rows of a layer are rows that attention may read. -/
lemma LiveRows.of_kvRow {layer : Fin layers} {currentPosition : Nat}
    (same : ∀ p ≤ currentPosition, kvRow kv p = kvRow kv' p) :
    LiveRows kv kv' layer (currentPosition + 1) := by
  intro kind low p live head small component inside
  exact congrFun (congrFun (congrFun (congrFun (same p (Nat.le_of_lt_succ live)) layer)
    ⟨kind, low⟩) ⟨head, small⟩) ⟨component, inside⟩

/-- So are those that an engine hands over for an evaluation. -/
lemma LiveRows.of_liveKv {currentPosition : Nat}
    (same : liveKv kv layer currentPosition = liveKv kv' layer currentPosition) :
    LiveRows kv kv' layer (currentPosition + 1) := by
  intro kind low p live head small component inside
  have pair := List.map_inj_left.mp same p (List.mem_range.mpr live)
  have inRow : head * headWords + component < kvRowWords := by
    unfold kvHeads headWords kvRowWords at *
    omega
  have div : (head * headWords + component) / headWords = head := by
    unfold headWords at *
    omega
  have mod : (head * headWords + component) % headWords = component := by
    unfold headWords at *
    omega
  match kind, low with
  | 0, _ =>
    have word := congrArg (fun row : KvPair => row.key[head * headWords + component]) pair
    simpa only [kvPair, Vector.getElem_ofFn, div, mod] using word
  | 1, _ =>
    have word := congrArg (fun row : KvPair => row.value[head * headWords + component]) pair
    simpa only [kvPair, Vector.getElem_ofFn, div, mod] using word

end Agree

/-- Both backends write the same output, whatever the scores held; and it stays the same when rows
behind the current position change. -/
theorem attention_backends_agree (ops : Fp32Ops) (query kv output scores scores' : Nat → Word)
    (layer : Fin layers) (currentPosition softmaxSpan : Nat)
    (fits : currentPosition + 1 ≤ softmaxSpan) (tiles : softmaxSpan % 4 = 0) :
    (inferenceAttention ops query kv .avx2 output scores layer currentPosition softmaxSpan).2 =
        (inferenceAttention ops query kv .sse2 output scores' layer currentPosition
          softmaxSpan).2 ∧
      ∀ backend kv', (∀ p ≤ currentPosition, kvRow kv p = kvRow kv' p) →
        (inferenceAttention ops query kv backend output scores layer currentPosition
            softmaxSpan).2 =
          (inferenceAttention ops query kv' backend output scores layer currentPosition
            softmaxSpan).2 := by
  constructor
  · exact inferenceAttention_output (fun _ _ _ _ _ _ _ _ => rfl) fits tiles ..
  · intro backend kv' same
    exact inferenceAttention_output (LiveRows.of_kvRow same) fits tiles ..

/-- The operations of IEEE 754. -/
def Fp32Ops.ieee : Fp32Ops where
  add x y := (Float32.ofBits x + Float32.ofBits y).toBits
  sub x y := (Float32.ofBits x - Float32.ofBits y).toBits
  mul x y := (Float32.ofBits x * Float32.ofBits y).toBits
  greater x y := decide (Float32.ofBits y < Float32.ofBits x)
  f32ToF64 x := (Float32.ofBits x).toFloat.toBits
  f64ToF32 x := (Float.ofBits x).toFloat32.toBits
  f64Add x y := (Float.ofBits x + Float.ofBits y).toBits
  f64Div x y := (Float.ofBits x / Float.ofBits y).toBits

/-- At the fifth position of a layer, over scores that differ. -/
theorem attention_backends_agree_fifth :
    (inferenceAttention .ieee (fun _ => 0x3f800000) (fun _ => 0x40000000) .avx2 (fun _ => 0)
        (fun _ => 0) 3 4 8).2 =
      (inferenceAttention .ieee (fun _ => 0x3f800000) (fun _ => 0x40000000) .sse2 (fun _ => 0)
        (fun _ => 7) 3 4 8).2 :=
  (attention_backends_agree .ieee (fun _ => 0x3f800000) (fun _ => 0x40000000) (fun _ => 0)
    (fun _ => 0) (fun _ => 7) ⟨3, by decide⟩ 4 8 (by decide) (by decide)).1

end Promptboot
