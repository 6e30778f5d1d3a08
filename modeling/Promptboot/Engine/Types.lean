import Promptboot.Lib.Fallible
import Promptboot.Machine.Cpu
import Promptboot.Model.View

/-!
# Inference engine: data

The constants, errors and state of `InferenceEngine` (`crates/promptboot-core/src/inference.rs`).
The arenas are typed: the KV cache is a memory of binary32 words addressed by `kvWord`, the
scratch arena a record of its regions. Floating-point work is left to `Kernels`, the
uninterpreted results of the routines of `fp32_sse2.rs` that evaluation calls; the engine's own
logic only moves their words around.
-/

namespace Promptboot

/-- The bits of a binary32 value. -/
abbrev Word := UInt32

abbrev Token := UInt32

def contextLimit : Nat := 32768
def kvBytes : Nat := 805306368
def scratchBytes : Nat := 262144
def logitWords : Nat := 151936
def maxTokens : Nat := 599
def hiddenWords : Nat := 896
def kvHeads : Nat := 2
def queryHeads : Nat := 14
def headWords : Nat := 64
def ffnWords : Nat := 4864
def kvRowWords : Nat := 128
def layers : Nat := 24
def kvWordsPerPosition : Nat := layers * 2 * kvHeads * headWords
def kvTile : Nat := 4
def kvValueWords : Nat := kvHeads * contextLimit * headWords
def kvLayerWords : Nat := 2 * kvValueWords
def q8StagingBytes : Nat := 5184

/-- `NO_LAYER` and `NO_TENSOR` are the largest 32-bit value. -/
def noLayer : Nat := 2 ^ 32 - 1
def noTensor : Nat := 2 ^ 32 - 1

inductive InferenceStatus where
  | ok | state | context | tokenId | capacity | alignment | nonfiniteInput | nonfiniteOutput
  | model | arithmetic | faulted
  deriving DecidableEq, Repr

inductive InferenceDomain where
  | none | init | prompt | embedding | attnNorm | q | k | v | rope | kv | attention | attnOutput
  | ffnNorm | gate | up | swiglu | down | outputNorm | logits | argmax | reset
  deriving DecidableEq, Repr

inductive InferenceFieldKind where
  | none | state | token | context | bytes | alignment | tensor | finite | add | mul | usize
  | reserve | logits | fault | selected
  deriving DecidableEq, Repr

inductive InferenceState where
  | reset | ready | eos | faulted
  deriving DecidableEq, Repr

/-- An engine error; `kind` and `sub` are the two halves of the source's packed `detail` word. -/
structure InferenceError where
  status : InferenceStatus
  domain : InferenceDomain
  layer : Nat
  position : Nat
  tensorId : Nat
  needed : Nat
  available : Nat
  kind : InferenceFieldKind
  sub : Nat
  deriving DecidableEq, Repr

structure InferenceStep where
  position : Nat
  selectedToken : Token
  selectedLogitBits : Word
  eos : Bool
  deriving DecidableEq, Repr

structure ScratchRegion where
  offset : Nat
  bytes : Nat
  deriving DecidableEq, Repr

/-- `INFERENCE_SCRATCH_LAYOUT`, in the order of the regions. -/
def inferenceScratchLayout : List ScratchRegion :=
  [⟨0, 3584⟩, ⟨3584, 3584⟩, ⟨7168, 3584⟩, ⟨10752, 3584⟩, ⟨14336, 512⟩, ⟨14848, 512⟩,
    ⟨15360, 3584⟩, ⟨18944, 131072⟩, ⟨150016, 19456⟩, ⟨169472, 19456⟩, ⟨188928, 19456⟩,
    ⟨208384, 5184⟩, ⟨213568, 48576⟩]

/-- The layout tiles the arena: each region starts where the one before it ends, and the last
ends with the arena. A record of regions therefore loses nothing. -/
example : inferenceScratchLayout.foldl
    (fun stop r => if r.offset = stop then stop + r.bytes else 0) 0 = scratchBytes := by
  decide

/-- The end of the hidden region, of the norm region, and of the regions in use. -/
def hiddenEnd : Nat := 3584
def normEnd : Nat := 10752
def usedScratch : Nat := 213568

/-- The scratch arena by region; the reserved tail is never written. -/
structure Scratch where
  hidden : Vector Word hiddenWords
  residual : Vector Word hiddenWords
  norm : Vector Word hiddenWords
  q : Vector Word hiddenWords
  k : Vector Word kvRowWords
  v : Vector Word kvRowWords
  attention : Vector Word hiddenWords
  scores : Vector Word contextLimit
  gate : Vector Word ffnWords
  up : Vector Word ffnWords
  product : Vector Word ffnWords
  q8Staging : Vector UInt8 q8StagingBytes

/-- `scratch[..SCRATCH_BYTES].fill(0)` -/
def Scratch.zero : Scratch where
  hidden := Vector.replicate _ 0
  residual := Vector.replicate _ 0
  norm := Vector.replicate _ 0
  q := Vector.replicate _ 0
  k := Vector.replicate _ 0
  v := Vector.replicate _ 0
  attention := Vector.replicate _ 0
  scores := Vector.replicate _ 0
  gate := Vector.replicate _ 0
  up := Vector.replicate _ 0
  product := Vector.replicate _ 0
  q8Staging := Vector.replicate _ 0

/-- The key and the value words that one layer keeps for one position. -/
structure KvPair where
  key : Vector Word kvRowWords
  value : Vector Word kvRowWords

/-- The results of the floating-point routines that evaluation calls. The matrix-vector routines
compute one output row at a time; attention sees the layer's keys and values up to and including
the current position, and nothing else of the cache. -/
structure Kernels where
  q4Row : (weights : List UInt8) → (row : Nat) → Vector Word hiddenWords
  rmsnorm : Vector Word hiddenWords → (weight : List UInt8) → Vector Word hiddenWords
  prepareQ8 : (input : List Word) → Vector UInt8 q8StagingBytes
  q4MatvecRow : InferenceBackend → (weights : List UInt8) → (staging : Vector UInt8 q8StagingBytes) →
    (columns row : Nat) → Word
  q8MatvecRow : InferenceBackend → (weights : List UInt8) → (staging : Vector UInt8 q8StagingBytes) →
    (columns row : Nat) → Word
  addBias : {n : Nat} → Vector Word n → (bias : List UInt8) → Vector Word n
  addResidual : Vector Word hiddenWords → Vector Word hiddenWords → Vector Word hiddenWords
  ropeInPlace : {n : Nat} → Vector Word n → (heads position : Nat) → Vector Word n
  attention : InferenceBackend → (query : Vector Word hiddenWords) → (live : List KvPair) →
    (scores : Vector Word contextLimit) → Vector Word hiddenWords × Vector Word contextLimit
  swiglu : Vector Word ffnWords → Vector Word ffnWords → Vector Word ffnWords
  greater : Word → Word → Bool

/-- The prefix whose KV rows survive `reset_to_prefix`: its length and a copy of its tokens. -/
structure RetainedPrefix where
  len : Nat
  tokens : Vector Token maxTokens
  deriving DecidableEq, Repr

/-- `RetainedPrefix::EMPTY`, also what `clear` leaves. -/
def RetainedPrefix.empty : RetainedPrefix := ⟨0, Vector.replicate _ 0⟩

/-- The firmware callback of `InferenceDispatcher`. Its contract lets it return only after slot 0
has evaluated the token; `completes` says for which token and position it did. Every
application processor enters the job with `backend`. -/
structure InferenceDispatcher where
  backend : InferenceBackend
  completes : Token → Nat → Bool

structure InferenceEngine where
  model : ModelView
  kv : Nat → Word
  kvLength : Nat
  scratch : Scratch
  scratchLength : Nat
  position : Nat
  generationReserve : Nat
  predictionsEmitted : Nat
  lastSelected : Token
  state : InferenceState
  backend : InferenceBackend
  dispatcher : Option InferenceDispatcher
  kvHighWater : Nat
  scratchHighWater : Nat
  retainedPrefix : RetainedPrefix

/-- A storage handed to `build`: its address, its length in bytes, its words. -/
structure Storage where
  address : Nat
  length : Nat
  words : Nat → Word

/-- `buffer_error` -/
def bufferError (storage : Storage) (needed sub : Nat) : Option InferenceError :=
  if storage.length < needed then
    some ⟨.capacity, .init, noLayer, 0, noTensor, needed, storage.length, .bytes, sub⟩
  else if storage.address % 64 ≠ 0 then
    some ⟨.alignment, .init, noLayer, 0, noTensor, 64, storage.address % 64, .alignment, sub⟩
  else
    none

/-- `logits_error` -/
def logitsError (length position : Nat) : Option InferenceError :=
  if length = logitWords then
    none
  else
    some ⟨.capacity, .logits, noLayer, position, noTensor, logitWords, length, .logits, 0⟩

/-- A binary32 value is finite when its exponent is not all ones. -/
def finite (bits : Word) : Bool := bits &&& 0x7f800000 != 0x7f800000

def argmaxFrom (K : Kernels) : (index selected : Nat) → (best : Word) → List Word → Nat
  | _, selected, _, [] => selected
  | index, selected, best, value :: rest =>
    if K.greater value best then
      argmaxFrom K (index + 1) index value rest
    else
      argmaxFrom K (index + 1) selected best rest

/-- `inference_argmax`: the first of the greatest values. -/
def inferenceArgmax (K : Kernels) : List Word → Nat
  | [] => 0
  | first :: rest => argmaxFrom K 1 0 first rest

/-- `InferenceEngine::build` on the processor it runs on. -/
def InferenceEngine.build (cpu : Cpu) (model : ModelView) (kvStorage scratchStorage : Storage)
    (dispatcher : Option InferenceDispatcher) : Except InferenceError InferenceEngine :=
  match bufferError kvStorage kvBytes 0 with
  | some error => .error error
  | none =>
    match bufferError scratchStorage scratchBytes 1 with
    | some error => .error error
    | none =>
      .ok
        { model
          kv := kvStorage.words
          kvLength := kvStorage.length
          scratch := .zero
          scratchLength := scratchStorage.length
          position := 0
          generationReserve := 0
          predictionsEmitted := 0
          lastSelected := 0
          state := .reset
          backend := .detect cpu
          dispatcher
          kvHighWater := 0
          scratchHighWater := 0
          retainedPrefix := .empty }

/-- Floating-point routines whose every result is zero. -/
def zeroKernels : Kernels where
  q4Row _ _ := Vector.replicate _ 0
  rmsnorm _ _ := Vector.replicate _ 0
  prepareQ8 _ := Vector.replicate _ 0
  q4MatvecRow _ _ _ _ _ := 0
  q8MatvecRow _ _ _ _ _ := 0
  addBias _ _ := Vector.replicate _ 0
  addResidual _ _ := Vector.replicate _ 0
  ropeInPlace _ _ _ := Vector.replicate _ 0
  attention _ _ _ _ := (Vector.replicate _ 0, Vector.replicate _ 0)
  swiglu _ _ := Vector.replicate _ 0
  greater _ _ := false

def blankModel : ModelView := ⟨fun _ => 0, frozenSections, .frozen⟩

def blankCpu : Cpu := ⟨1, 0, 0, 0, 0, 0, 0, 0⟩

def blankStorage (length : Nat) : Storage := ⟨0, length, fun _ => 0⟩

/-- The engine of a serial machine on an all-zero model. -/
def blankEngine : InferenceEngine where
  model := blankModel
  kv := fun _ => 0
  kvLength := kvBytes
  scratch := .zero
  scratchLength := scratchBytes
  position := 0
  generationReserve := 0
  predictionsEmitted := 0
  lastSelected := 0
  state := .reset
  backend := .sse2
  dispatcher := none
  kvHighWater := 0
  scratchHighWater := 0
  retainedPrefix := .empty

/-- The blank engine is built. -/
lemma build_blank : InferenceEngine.build blankCpu blankModel (blankStorage kvBytes)
    (blankStorage scratchBytes) none = .ok blankEngine := rfl

end Promptboot
