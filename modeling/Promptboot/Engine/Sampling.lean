import Promptboot.Engine.Types

/-!
# Choosing a token

`greedy_token`, `top_logits_8`, `sample_token` and `sample_token_with_repetition`
(`inference.rs`) with the routines of `fp32_sse2.rs` behind them. A comparison is that of the
instruction, on the bits; the arithmetic of the sampler is left to `FloatOps`.

`Candidates.insert` and `shiftSmaller` keep the slots in the source's own order of comparisons,
which is what makes them stable. `FloatOps.sampleTokenWithRepetition` is the whole of a call: the
checks, the penalty, the choice and the bitmap put back.
-/

namespace Promptboot

/-- Orders the values of binary32 words that are numbers; both zeros are 0. -/
def floatKey (bits : Word) : Int :=
  let magnitude : Nat := (bits &&& 0x7fffffff).toNat
  if bits &&& 0x80000000 = 0 then magnitude else -magnitude

def isNan (bits : Word) : Bool := decide ((0x7f800000 : Word) < bits &&& 0x7fffffff)

/-- `greater`: `ucomiss` and `seta`, false on operands without an order. -/
def greater (left right : Word) : Bool :=
  !isNan left && !isNan right && decide (floatKey right < floatKey left)

structure TopLogit where
  token : Token
  logitBits : Word
  deriving DecidableEq, Repr

def topLogitSlots : Nat := 8

def nonfiniteLogit (bits : Word) (index : Nat) : InferenceError :=
  ⟨.nonfiniteOutput, .argmax, noLayer, 0, noTensor, 0, bits.toNat, .finite, index⟩

/-- The inner loop of `top_logits_8`: moves the smaller logits up and returns the slot below
them. -/
def shiftSmaller (bits : Word) : Nat → List TopLogit → Nat × List TopLogit
  | 0, staged => (0, staged)
  | insertion + 1, staged =>
    let below := staged.getD insertion ⟨0, 0⟩
    if greater bits below.logitBits then
      shiftSmaller bits insertion
        (if insertion + 1 < topLogitSlots then staged.set (insertion + 1) below else staged)
    else
      (insertion + 1, staged)

/-- The loop of `top_logits_8` over the logits that are left. -/
def topLogitsLoop (staged : List TopLogit) (used : Nat) :
    List (Word × Nat) → Except InferenceError (List TopLogit)
  | [] => .ok staged
  | (bits, token) :: rest =>
    if !finite bits then
      .error (nonfiniteLogit bits token)
    else
      let (insertion, shifted) := shiftSmaller bits used staged
      topLogitsLoop
        (if insertion < topLogitSlots then shifted.set insertion ⟨token.toUInt32, bits⟩
          else shifted)
        (min (used + 1) topLogitSlots) rest

/-- `top_logits_8` into the caller's output. -/
def topLogits8 (logits : List Word) : Fallible (List TopLogit) InferenceError Unit :=
  match logitsError logits.length 0 with
  | some error => Fallible.fail error
  | none =>
    match topLogitsLoop (List.replicate topLogitSlots ⟨0, 0⟩) 0 logits.zipIdx with
    | .error error => Fallible.fail error
    | .ok staged => Fallible.modify fun _ => staged

/-- `validate_sample_logits`, and the same checks in `greedy_token`. -/
def validateSampleLogits (logits : List Word) : Except InferenceError Unit :=
  match logitsError logits.length 0 with
  | some error => .error error
  | none =>
    match logits.zipIdx.find? fun (bits, _) => !finite bits with
    | some (bits, index) => .error (nonfiniteLogit bits index)
    | none => .ok ()

def greedyToken (K : Kernels) (logits : List Word) : Except InferenceError Token :=
  (validateSampleLogits logits).map fun _ => (inferenceArgmax K logits).toUInt32

/-- `SamplingState`: the words of its xorshift generator and of its counter. -/
structure SamplingState where
  state : UInt64
  draws : UInt64
  deriving DecidableEq, Repr

def SamplingState.next24 (s : SamplingState) : UInt32 × SamplingState :=
  let value := s.state ^^^ s.state >>> 12
  let value := value ^^^ value <<< 25
  let value := value ^^^ value >>> 27
  (((value * 0x2545f4914f6cdd1d) >>> 40).toUInt32, ⟨value, s.draws + 1⟩)

/-- The scalar instructions and the exponential of the sampler, on words. -/
structure FloatOps where
  sub : Word → Word → Word
  mul : Word → Word → Word
  div : Word → Word → Word
  expf : Word → Word
  fromU32 : UInt32 → Word
  f64Add : UInt64 → UInt64 → UInt64
  f32ToF64 : Word → UInt64
  f64ToF32 : UInt64 → Word

def topK : Nat := 20
def temperature : Word := 0x3f333333
def topP : Word := 0x3f4ccccd
def twoPow24 : Word := 0x4b800000

/-- The marker of an empty slot. -/
def noToken : Token := 0xffffffff

/-- The slots of `inference_sample_top_k_top_p`. -/
structure Candidates where
  ids : List Token
  values : List Word

def Candidates.empty : Candidates :=
  ⟨List.replicate topK noToken, List.replicate topK 0xff800000⟩

/-- The first slot that is empty or holds a smaller value, or one past the last. -/
def Candidates.insertion (c : Candidates) (value : Word) : Nat :=
  ((List.range topK).find? fun slot =>
    c.ids.getD slot 0 == noToken || greater value (c.values.getD slot 0)).getD topK

/-- `slots[at] = slots[at - 1]` for `count` slots behind `insertion`, from the last one down. -/
def shiftUp {α : Type} (fill : α) (insertion : Nat) : Nat → List α → List α
  | 0, slots => slots
  | count + 1, slots =>
    shiftUp fill insertion count
      (slots.set (insertion + 1 + count) (slots.getD (insertion + count) fill))

def Candidates.insert (c : Candidates) (token : Token) (value : Word) : Candidates :=
  let insertion := c.insertion value
  if insertion < topK then
    let count := topK - (insertion + 1)
    ⟨(shiftUp 0 insertion count c.ids).set insertion token,
      (shiftUp 0 insertion count c.values).set insertion value⟩
  else
    c

/-- The scan over all logits. -/
def collect (logits : List Word) : Candidates :=
  logits.zipIdx.foldl (fun c (value, token) => c.insert token.toUInt32 value) .empty

namespace FloatOps

variable (F : FloatOps)

/-- The probability cut: how many candidates are kept and their weight, after `at` of them. -/
def cut (cutoff : Word) : (keptTotal : UInt64) → (slot : Nat) → List Word → Nat × UInt64
  | keptTotal, _, [] => (topK, keptTotal)
  | keptTotal, slot, weight :: rest =>
    let keptTotal := F.f64Add keptTotal (F.f32ToF64 weight)
    if !greater cutoff (F.f64ToF32 keptTotal) then (slot + 1, keptTotal)
    else cut cutoff keptTotal (slot + 1) rest

/-- The walk along the kept candidates: the first at which the weights so far pass the target. -/
def walk (target : Word) : (cumulative : UInt64) → List (Token × Word) → Option Token
  | _, [] => none
  | cumulative, (id, weight) :: rest =>
    let cumulative := F.f64Add cumulative (F.f32ToF64 weight)
    if greater (F.f64ToF32 cumulative) target then some id else walk target cumulative rest

/-- The weights of the candidates. -/
def weights (values : List Word) : List Word :=
  values.map fun value => F.expf (F.div (F.sub value (values.headD 0)) temperature)

/-- How many candidates the probability cut keeps, and their weight. -/
def kept (weights : List Word) : Nat × UInt64 :=
  let total := weights.foldl (fun total weight => F.f64Add total (F.f32ToF64 weight)) 0
  F.cut (F.mul (F.f64ToF32 total) topP) 0 0 weights

/-- `inference_sample_top_k_top_p` -/
def sampleTopKTopP (logits : List Word) (random24 : UInt32) : Token :=
  let candidates := collect logits
  let weights := F.weights candidates.values
  let (kept, keptTotal) := F.kept weights
  let unit := F.div (F.fromU32 (random24 &&& 0x00ffffff)) twoPow24
  let target := F.mul (F.f64ToF32 keptTotal) unit
  (F.walk target 0 ((candidates.ids.zip weights).take kept)).getD
    (candidates.ids.getD (kept - 1) 0)

/-- `sample_validated`: one draw and the choice made with it. -/
def sampleValidated (logits : List Word) (state : SamplingState) : Token × SamplingState :=
  let (random, state) := state.next24
  (F.sampleTopKTopP logits random, state)

def sampleToken (logits : List Word) : Fallible SamplingState InferenceError Token :=
  match validateSampleLogits logits with
  | .error error => Fallible.fail error
  | .ok () => fun state =>
    let (token, state) := F.sampleValidated logits state
    (.ok token, state)

def penalty : Word := 0x3f8ccccd

/-- The penalty rule: a negative score is multiplied, any other divided. -/
def adjust (score : Word) : Word :=
  if score &&& 0x80000000 ≠ 0 ∧ score &&& 0x7fffffff ≠ 0 then F.mul score penalty
  else F.div score penalty

end FloatOps

def seenByte (token : Token) : Nat := token.toNat / 8

/-- `1u8 << (token & 7)` -/
def seenBit (token : Token) : UInt8 := 1 <<< (token &&& 7).toUInt8

/-- The two buffers of `inference_apply_repetition_penalty`. -/
structure PenaltyBuffers where
  logits : List Word
  seen : List UInt8

namespace FloatOps

variable (F : FloatOps)

/-- The first loop on one token. -/
def penalize (b : PenaltyBuffers) (token : Token) : PenaltyBuffers :=
  let byte := b.seen.getD (seenByte token) 0
  if byte &&& seenBit token = 0 then
    ⟨b.logits.set token.toNat (F.adjust (b.logits.getD token.toNat 0)),
      b.seen.set (seenByte token) (byte ||| seenBit token)⟩
  else
    b

/-- The second loop on one token. -/
def forget (b : PenaltyBuffers) (token : Token) : PenaltyBuffers :=
  { b with
    seen := b.seen.set (seenByte token) (b.seen.getD (seenByte token) 0 &&& ~~~seenBit token) }

/-- `inference_apply_repetition_penalty` -/
def applyRepetitionPenalty (b : PenaltyBuffers) (tokens : List Token) : PenaltyBuffers :=
  tokens.foldl forget (tokens.foldl F.penalize b)

end FloatOps

/-- What `sample_token_with_repetition` may change. -/
structure RepetitionState where
  buffers : PenaltyBuffers
  sampling : SamplingState

/-- The bytes of a bitmap for the logits. -/
def seenBytes (logits : List Word) : Nat := (logits.length + 7) / 8

/-- The checks of `sample_token_with_repetition` behind those of the logits. -/
def repetitionRejection (b : PenaltyBuffers) (tokens : List Token) : Option InferenceError :=
  if b.seen.length < seenBytes b.logits then
    some ⟨.capacity, .argmax, noLayer, 0, noTensor, seenBytes b.logits, b.seen.length, .bytes, 2⟩
  else
    match tokens.find? fun token => decide (b.logits.length ≤ token.toNat) with
    | some token =>
      some ⟨.tokenId, .argmax, noLayer, 0, noTensor, b.logits.length, token.toNat, .token, 0⟩
    | none => none

def FloatOps.sampleTokenWithRepetition (F : FloatOps) (tokens : List Token) :
    Fallible RepetitionState InferenceError Token := fun s =>
  match validateSampleLogits s.buffers.logits with
  | .error error => (.error error, s)
  | .ok () =>
    match repetitionRejection s.buffers tokens with
    | some error => (.error error, s)
    | none =>
      let buffers := F.applyRepetitionPenalty s.buffers tokens
      let (token, sampling) := F.sampleValidated buffers.logits s.sampling
      (.ok token, ⟨buffers, sampling⟩)

end Promptboot
