import Mathlib.Algebra.GroupWithZero.Nat
import Promptboot.Engine.Attention
import Promptboot.Engine.BlockDot
import Promptboot.Engine.KvFrame
import Promptboot.Primitive.Kernels

/-!
# The kernels of an evaluation

The routines that `evaluate_inner` calls (`fp32_sse2.rs`), with both backends where there are two,
over floating-point instructions that are left open; `sourceKernels` is all of them. A pointer is a
memory of bytes, and what a loop writes is given word by word, for no loop reads what it has written.

`attentionHead_layerOf` is the helper for attention: a head reads only the words of its own layer,
`layerOf`. The headline `sourceKernels_attention` says that the kernel on the live rows is the
routine on the whole cache.
-/

namespace Promptboot
open Primitive (Sse2Ops halfToF32Bits)

/-- The memory behind a pointer to a list of bytes. -/
def pointerTo (bytes : List UInt8) (i : Nat) : UInt8 := bytes.getD i 0

/-- `u16::from_le(ptr::read_unaligned(..))` -/
def halfAt (m : Nat → UInt8) (a : Nat) : UInt16 := (m a).toUInt16 ||| (m (a + 1)).toUInt16 <<< 8

/-- The pointer of a block routine. -/
def blockPointer (m : Nat → UInt8) (a i : Nat) : BitVec 8 := (m (a + i)).toBitVec

section Kernels
variable (ops : Sse2Ops)

/-- A word that `inference_q4_row` writes. -/
def q4RowWord (weights : Nat → UInt8) (row columns i : Nat) : Word :=
  let blocksPerRow := columns / 32
  let block := row * blocksPerRow * 18 + i / 32 * 18
  let element := i % 32
  let scale := halfToF32Bits (halfAt weights block)
  let packed := weights (block + 2 + element % 16)
  let quant : Int32 :=
    if element < 16 then (packed &&& 0x0f).toUInt32.toInt32 - 8
    else (packed >>> 4).toUInt32.toInt32 - 8
  ops.mul scale (ops.fromI32 quant)

def f32BitsToHalf (bits : Word) : UInt16 :=
  let sign := ((bits >>> 16) &&& 0x8000).toUInt16
  let magnitude := bits &&& 0x7fffffff
  let base := ops.mul (ops.mul magnitude 0x77800000) 0x08800000
  let doubled := bits + bits
  let bias := doubled &&& 0xff000000
  let bias := if bias < 0x71000000 then 0x71000000 else bias
  let rounded := ops.add ((bias >>> 1) + 0x07800000) base
  let exponent := (rounded >>> 13) &&& 0x7c00
  let mantissa := rounded &&& 0x0fff
  if doubled > 0xff000000 then sign ||| 0x7e00 else sign ||| (exponent + mantissa).toUInt16

def roundHalfAway (value : Word) : Int32 :=
  let half := if value >>> 31 = 0 then 0x3f000000 else 0xbf000000
  ops.truncI32 (ops.add value half)

/-- The greatest magnitude of a block of activations. -/
def blockMaximum (input : Nat → Word) (inputBase : Nat) : Word :=
  (List.range 32).foldl (fun maximum element =>
    let magnitude := input (inputBase + element) &&& 0x7fffffff
    if ops.greater magnitude maximum = true then magnitude else maximum) 0

/-- A byte that `inference_prepare_q8` writes into the staging area. -/
def stagingByte (input : Nat → Word) (columns i : Nat) : UInt8 :=
  if i / 34 < columns / 32 then
    let inputBase := i / 34 * 32
    let scale := ops.div (blockMaximum ops input inputBase) 0x42fe0000
    if i % 34 = 0 then
      (f32BitsToHalf ops scale).toUInt8
    else if i % 34 = 1 then
      (f32BitsToHalf ops scale >>> 8).toUInt8
    else
      let inverse := if scale = 0 then 0 else ops.div 0x3f800000 scale
      let element := i % 34 - 2
      (roundHalfAway ops (ops.mul (input (inputBase + element)) inverse)).toInt8.toUInt8
  else
    0

/-- What a block routine returns in `eax`. -/
def blockDot (routine : (Nat → BitVec 8) → (Nat → BitVec 8) → StateM Bool (BitVec 32))
    (weights activation : Nat → BitVec 8) : Int32 :=
  .ofBitVec (routine weights activation false).1

/-- A row of `inference_q4_matvec_rows_prepared`. -/
def q4MatvecRow (backend : InferenceBackend) (weights staging : Nat → UInt8) (columns row : Nat) :
    Word :=
  let blocksPerRow := columns / 32
  let rowBase := row * blocksPerRow * 18
  (List.range blocksPerRow).foldl (fun total blockIndex =>
    let block := rowBase + blockIndex * 18
    let activation := blockIndex * 34
    let integer := blockDot (q4BlockDot backend) (blockPointer weights (block + 2))
      (blockPointer staging (activation + 2))
    let weightScale := halfToF32Bits (halfAt weights block)
    let activationScale := halfToF32Bits (halfAt staging activation)
    ops.add total (ops.mul (ops.mul (ops.fromI32 integer) weightScale) activationScale)) 0

/-- A row of `inference_q8_matvec_rows_prepared`; the scales are multiplied first. -/
def q8MatvecRow (backend : InferenceBackend) (weights staging : Nat → UInt8) (columns row : Nat) :
    Word :=
  let blocksPerRow := columns / 32
  let rowBase := row * blocksPerRow * 34
  (List.range blocksPerRow).foldl (fun total blockIndex =>
    let block := rowBase + blockIndex * 34
    let activation := blockIndex * 34
    let integer := blockDot (q8BlockDot backend) (blockPointer weights (block + 2))
      (blockPointer staging (activation + 2))
    let weightScale := halfToF32Bits (halfAt weights block)
    let activationScale := halfToF32Bits (halfAt staging activation)
    ops.add total (ops.mul (ops.fromI32 integer) (ops.mul weightScale activationScale))) 0

/-- `inference_rmsnorm` -/
def inferenceRmsnorm (input weight : Nat → Word) (words : Nat) : Nat → Word :=
  let sum := (List.range words).foldl (fun sum index =>
    let value := input index
    ops.f64Add sum (ops.f32ToF64 (ops.mul value value))) 0
  let mean := ops.f64ToF32 (ops.f64Div sum (ops.f32ToF64 (ops.fromU32 (UInt32.ofNat words))))
  let inverse := ops.div 0x3f800000 (ops.sqrt (ops.add mean 0x358637bd))
  fun index => ops.mul (ops.mul (input index) inverse) (weight index)

/-- `inference_rope_bits`, out of `INFERENCE_ROPE_TABLE`. -/
def inferenceRopeBits (table : Nat → UInt8) (position pair component : Nat) : Word :=
  Memory.u32At table (((position * 32 + pair) * 2 + component) * 4)

/-- `inference_rope_in_place`: the two halves of a head turn together. -/
def inferenceRope (table : Nat → UInt8) (values : Nat → Word) (heads position : Nat) :
    Nat → Word := fun i =>
  let base := i / 64 * 64
  let pair := i % 32
  let left := values (base + pair)
  let right := values (base + pair + 32)
  let cosine := inferenceRopeBits table position pair 0
  let sine := inferenceRopeBits table position pair 1
  if heads ≤ i / 64 then values i
  else if i % 64 < 32 then ops.sub (ops.mul left cosine) (ops.mul right sine)
  else ops.add (ops.mul left sine) (ops.mul right cosine)

/-- A word of `inference_swiglu`. -/
def inferenceSwiglu (gate up : Nat → Word) (i : Nat) : Word :=
  let x := gate i
  let exponent := inferenceExpf ops.toFp32Ops (ops.sub 0 x)
  let silu := ops.div x (ops.add 0x3f800000 exponent)
  ops.mul silu (up i)

/-- The memory behind a pointer to a vector. -/
def wordsOf {n : Nat} (v : Vector Word n) (i : Nat) : Word := v.toList.getD i 0

/-- The words behind a pointer to a tensor of words. -/
def tensorWords (bytes : List UInt8) (i : Nat) : Word := Memory.u32At (pointerTo bytes) (4 * i)

/-- The rows of one layer in a cache of their own. -/
def liveMemory (live : List KvPair) : Nat → Word :=
  live.zipIdx.foldl (fun kv (pair, position) => storeKv kv 0 position pair.key pair.value)
    fun _ => 0

/-- The end of the scores that `evaluate_inner` lets `inference_attention` use. -/
def softmaxSpan (positions : Nat) : Nat := (positions + 3) / 4 * 4

/-- What `evaluate` is given of `fp32_sse2.rs`. -/
def sourceKernels (table : Nat → UInt8) : Kernels where
  q4Row weights row := .ofFn fun i => q4RowWord ops (pointerTo weights) row hiddenWords i
  rmsnorm input weight :=
    .ofFn fun i => inferenceRmsnorm ops (wordsOf input) (tensorWords weight) hiddenWords i
  prepareQ8 input := .ofFn fun i => stagingByte ops (input.getD · 0) input.length i
  q4MatvecRow backend weights staging columns row :=
    q4MatvecRow ops backend (pointerTo weights) (pointerTo staging.toList) columns row
  q8MatvecRow backend weights staging columns row :=
    q8MatvecRow ops backend (pointerTo weights) (pointerTo staging.toList) columns row
  addBias values bias := .ofFn fun i => ops.add (wordsOf values i) (tensorWords bias i)
  addResidual residual update := .ofFn fun i => ops.add (wordsOf residual i) (wordsOf update i)
  ropeInPlace values heads position :=
    .ofFn fun i => inferenceRope ops table (wordsOf values) heads position i
  attention backend query live scores :=
    let written := inferenceAttention ops.toFp32Ops (wordsOf query) (liveMemory live) backend
      (fun _ => 0) (wordsOf scores) 0 (live.length - 1) (softmaxSpan live.length)
    (.ofFn fun i => written.2 i, .ofFn fun i => written.1 i)
  swiglu gate up := .ofFn fun i => inferenceSwiglu ops (wordsOf gate) (wordsOf up) i
  greater := ops.greater

end Kernels

section Cache

variable {ops : Sse2Ops} {query kv : Nat → Word} {layer positions span : Nat} {live : List KvPair}

/-- A further row is stored behind the others. -/
lemma liveMemory_concat (pair : KvPair) :
    liveMemory (live ++ [pair]) =
      storeKv (liveMemory live) 0 live.length pair.key pair.value := by
  simp only [liveMemory, List.zipIdx_append, List.foldl_append, List.zipIdx_singleton,
    List.foldl_cons, List.foldl_nil, Nat.zero_add]

/-- A stored row leaves the other positions. -/
lemma kvPair_of_ne {kv' : Nat → Word} {layer position position' : Nat} {k v : Vector Word kvRowWords}
    (hl : layer < layers) (hp : position < contextLimit) (hp' : position' < contextLimit)
    (other : position' ≠ position) (stored : kv' = storeKv kv layer position k v) :
    kvPair kv' layer position' = kvPair kv layer position' := by
  have kept (kind : Fin 2) (i : Fin kvRowWords) :
      kv' (kvWord layer kind position' (i / headWords) (i % headWords)) =
        kv (kvWord layer kind position' (i / headWords) (i % headWords)) := by
    let c : KvCoord := ⟨⟨layer, hl⟩, kind, ⟨position', hp'⟩, (rowIndex i).1, (rowIndex i).2⟩
    rw [stored]
    exact storeKv_of_ne (c := c) hp (.inr other)
  exact congrArg₂ KvPair.mk (congrArg Vector.ofFn (funext (kept ⟨0, by decide⟩)))
    (congrArg Vector.ofFn (funext (kept ⟨1, by decide⟩)))

/-- A cache of its own holds the pairs it was given. -/
lemma kvPair_liveMemory (fits : live.length ≤ contextLimit) {p : Nat} (inside : p < live.length) :
    live[p]? = some (kvPair (liveMemory live) 0 p) := by
  induction live using List.reverseRecOn generalizing p with
  | nil => exact absurd inside (Nat.not_lt_zero p)
  | append_singleton live pair ih =>
    rw [List.length_append, List.length_singleton] at fits inside
    rw [liveMemory_concat]
    rcases Nat.lt_succ_iff_lt_or_eq.mp inside with old | rfl
    · rw [List.getElem?_append_left old, ih (Nat.le_of_lt fits) old,
        kvPair_of_ne (by decide) fits (Nat.lt_trans old fits) (Nat.ne_of_lt old) rfl]
    · rw [List.getElem?_concat_length, kvPair_storeKv (by decide) fits]

/-- A layer of a cache as the first one. -/
def layerOf (kv : Nat → Word) (layer : Nat) (word : Nat) : Word := kv (layer * kvLayerWords + word)

/-- A word of a layer is the word of the first layer, moved up. -/
lemma layer_kvWord (layer kind position head component offset : Nat) :
    layer * kvLayerWords + (kvWord 0 kind position head component + offset) =
      kvWord layer kind position head component + offset := by
  simp only [kvWord]
  split <;> omega

/-- A load from the layer as the first one. -/
lemma layerOf_kvWord (kind position head component : Nat) :
    layerOf kv layer (kvWord 0 kind position head component) =
      kv (kvWord layer kind position head component) :=
  congrArg kv (layer_kvWord layer kind position head component 0)

/-- A vector load from the layer as the first one. -/
lemma layerOf_loaduPs (kind position head component : Nat) :
    loaduPs (layerOf kv layer) (kvWord 0 kind position head component) =
      loaduPs kv (kvWord layer kind position head component) :=
  funext fun lane => congrArg kv (layer_kvWord layer kind position head component lane)

/-- A masked load from the layer as the first one. -/
lemma layerOf_maskload (kind position head component remaining : Nat) :
    attentionMaskload4 (layerOf kv layer) (kvWord 0 kind position head component) remaining =
      attentionMaskload4 kv (kvWord layer kind position head component) remaining := by
  funext lane
  unfold attentionMaskload4
  split
  · exact congrArg kv (layer_kvWord layer kind position head component lane)
  · rfl

/-- A query head on the layer as the first one. -/
lemma attentionHead_layerOf (backend : InferenceBackend) (memories : (Nat → Word) × (Nat → Word))
    (queryHead : Nat) :
    attentionHead ops.toFp32Ops query (layerOf kv layer) backend 0 positions span memories
        queryHead =
      attentionHead ops.toFp32Ops query kv backend layer positions span memories queryHead := by
  cases backend with
  | sse2 =>
    simp only [attentionHead, attentionScores, attentionScoresSse2, attentionValues,
      attentionValuesSse2, layerOf_kvWord]
  | avx2 =>
    simp only [attentionHead, attentionScores, attentionScoresAvx2, attentionValues,
      attentionValuesAvx2, layerOf_loaduPs, layerOf_maskload]

/-- The heads write every word of the output. -/
lemma attentionHead_fold (backend : InferenceBackend) (scores output output' : Nat → Word)
    (heads : Nat) :
    let head := attentionHead ops.toFp32Ops query kv backend layer positions span
    ((List.range heads).foldl head (scores, output)).1 =
        ((List.range heads).foldl head (scores, output')).1 ∧
      ∀ word < heads * 64, ((List.range heads).foldl head (scores, output)).2 word =
        ((List.range heads).foldl head (scores, output')).2 word := by
  dsimp only
  induction heads with
  | zero => exact ⟨rfl, fun word inside => absurd inside (by omega)⟩
  | succ heads ih =>
    obtain ⟨same, written⟩ := ih
    rw [List.range_succ, List.foldl_append, List.foldl_append, List.foldl_cons, List.foldl_nil,
      List.foldl_cons, List.foldl_nil]
    unfold attentionHead
    dsimp only
    rw [attentionValues_apply, attentionValues_apply]
    refine ⟨?_, fun word inside => ?_⟩
    · exact congrArg (fun s => softmaxScores ops.toFp32Ops (attentionScores ops.toFp32Ops query kv
        backend s layer heads (kvHeadFor heads) positions span) positions span) same
    · by_cases here : heads * 64 ≤ word ∧ word < heads * 64 + 64
      · dsimp only
        rw [if_pos here, if_pos here]
        exact congrArg (fun s => valueAt ops.toFp32Ops kv (softmaxScores ops.toFp32Ops
          (attentionScores ops.toFp32Ops query kv backend s layer heads (kvHeadFor heads)
            positions span) positions span) layer (kvHeadFor heads) positions
          (word - heads * 64)) same
      · dsimp only
        rw [if_neg here, if_neg here]
        exact written word (by omega)

/-- The attention of the kernels, which are handed the live rows, is `inference_attention` on the
whole cache, at every layer and position and whatever the output held. -/
def Kernels.AttendsCache (K : Kernels) (ops : Sse2Ops) : Prop :=
  ∀ (backend : InferenceBackend) (query : Vector Word hiddenWords) (kv output : Nat → Word)
    (scores : Vector Word contextLimit) (layer position : Nat), position < contextLimit →
    (K.attention backend query (liveKv kv layer position) scores).1 =
      .ofFn fun i : Fin hiddenWords => (inferenceAttention ops.toFp32Ops (wordsOf query) kv backend
        output (wordsOf scores) layer position (softmaxSpan (position + 1))).2 i

/-- The routine on the live rows writes what it writes on the whole cache. -/
lemma sourceKernels_attention (table : Nat → UInt8) :
    (sourceKernels ops table).AttendsCache ops := by
  intro backend query kv output scores layer position inside
  have length : (liveKv kv layer position).length = position + 1 := by
    rw [liveKv, List.length_map, List.length_range]
  have fits : (liveKv kv layer position).length ≤ contextLimit := by
    rw [length]
    exact inside
  -- the pairs are the rows of the layer, as the first one
  have rows : LiveRows (liveMemory (liveKv kv layer position)) (layerOf kv layer) 0
      (position + 1) := by
    refine LiveRows.of_liveKv (List.map_congr_left fun p mem => ?_)
    have below := List.mem_range.mp mem
    have held := kvPair_liveMemory fits (length ▸ below)
    have pair : kvPair (layerOf kv layer) 0 p = kvPair kv layer p := by
      simp only [kvPair, layerOf_kvWord]
    rw [liveKv, List.getElem?_map, List.getElem?_range below] at held
    rw [pair]
    exact (Option.some.inj held).symm
  have span : position + 1 ≤ softmaxSpan (position + 1) := by
    unfold softmaxSpan
    omega
  have tiles : softmaxSpan (position + 1) % 4 = 0 := Nat.mul_mod_left _ 4
  have heads : attentionHead ops.toFp32Ops (wordsOf query) (layerOf kv layer) backend 0
      (position + 1) (softmaxSpan (position + 1)) =
      attentionHead ops.toFp32Ops (wordsOf query) kv backend layer (position + 1)
        (softmaxSpan (position + 1)) :=
    funext fun memories => funext fun queryHead => attentionHead_layerOf backend memories queryHead
  have whole : (inferenceAttention ops.toFp32Ops (wordsOf query)
      (liveMemory (liveKv kv layer position)) backend (fun _ => 0) (wordsOf scores) 0 position
        (softmaxSpan (position + 1))).2 =
      (inferenceAttention ops.toFp32Ops (wordsOf query) (layerOf kv layer) backend (fun _ => 0)
        (wordsOf scores) 0 position (softmaxSpan (position + 1))).2 :=
    inferenceAttention_output rows span tiles backend backend ..
  have shifted : inferenceAttention ops.toFp32Ops (wordsOf query) (layerOf kv layer) backend
      (fun _ => 0) (wordsOf scores) 0 position (softmaxSpan (position + 1)) =
      inferenceAttention ops.toFp32Ops (wordsOf query) kv backend (fun _ => 0) (wordsOf scores)
        layer position (softmaxSpan (position + 1)) := by
    unfold inferenceAttention
    rw [heads]
  have written : ∀ word < 14 * 64,
      (inferenceAttention ops.toFp32Ops (wordsOf query) kv backend (fun _ => 0) (wordsOf scores)
        layer position (softmaxSpan (position + 1))).2 word =
      (inferenceAttention ops.toFp32Ops (wordsOf query) kv backend output (wordsOf scores) layer
        position (softmaxSpan (position + 1))).2 word :=
    (attentionHead_fold backend (wordsOf scores) (fun _ => 0) output 14).2
  show Vector.ofFn (fun i : Fin hiddenWords => (inferenceAttention ops.toFp32Ops (wordsOf query)
    (liveMemory (liveKv kv layer position)) backend (fun _ => 0) (wordsOf scores) 0
    ((liveKv kv layer position).length - 1)
    (softmaxSpan (liveKv kv layer position).length)).2 i) = _
  rw [length, Nat.add_sub_cancel, whole, shifted]
  exact congrArg Vector.ofFn (funext fun i => written i i.isLt)

end Cache

/-- The operations of IEEE 754; a conversion is only given what the integers hold. -/
def sse2Ieee : Sse2Ops where
  toFp32Ops := .ieee
  div x y := (Float32.ofBits x / Float32.ofBits y).toBits
  sqrt x := (Float32.ofBits x).sqrt.toBits
  fromI32 value := value.toFloat32.toBits
  fromU32 value := value.toFloat32.toBits
  truncI32 x := (Float32.ofBits x).toInt32

end Promptboot
