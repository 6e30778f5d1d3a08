import Promptboot.Hash.Fips180

/-!
# Streaming SHA-256

`Sha256` of the core crate buffers its input in 64-byte blocks. Every sequence of `update` calls
leaves it holding the compressed whole blocks of what it has been given and, in front of its buffer,
the rest; `finish` then pads exactly as the standard does.

Both compressions of the source are here as it writes them, `compressScalar` and `compressShaNi`,
and `Backend` chooses between them as `resolve` does, on the processor's `cpuid` leaves. What the
two have to do with each other is in the modules of the SHA extension and of the streaming.
-/

namespace Promptboot
open Absorb

inductive Backend where
  | unresolved
  | scalar
  | shaNi
  deriving DecidableEq

/-- What the hash reads off its processor: two `cpuid` answers and the SHA extension's rounds. -/
structure Processor where
  maxBasicLeaf : UInt32
  leaf7Ebx : UInt32
  sha256Rounds : Vector UInt32 8 → Vector UInt32 64 → Vector UInt32 8

namespace Sha256

def K : Vector UInt32 64 :=
  #v[0x428a2f98, 0x71374491, 0xb5c0fbcf, 0xe9b5dba5, 0x3956c25b, 0x59f111f1, 0x923f82a4, 0xab1c5ed5,
    0xd807aa98, 0x12835b01, 0x243185be, 0x550c7dc3, 0x72be5d74, 0x80deb1fe, 0x9bdc06a7, 0xc19bf174,
    0xe49b69c1, 0xefbe4786, 0x0fc19dc6, 0x240ca1cc, 0x2de92c6f, 0x4a7484aa, 0x5cb0a9dc, 0x76f988da,
    0x983e5152, 0xa831c66d, 0xb00327c8, 0xbf597fc7, 0xc6e00bf3, 0xd5a79147, 0x06ca6351, 0x14292967,
    0x27b70a85, 0x2e1b2138, 0x4d2c6dfc, 0x53380d13, 0x650a7354, 0x766a0abb, 0x81c2c92e, 0x92722c85,
    0xa2bfe8a1, 0xa81a664b, 0xc24b8b70, 0xc76c51a3, 0xd192e819, 0xd6990624, 0xf40e3585, 0x106aa070,
    0x19a4c116, 0x1e376c08, 0x2748774c, 0x34b0bcb5, 0x391c0cb3, 0x4ed8aa4a, 0x5b9cca4f, 0x682e6ff3,
    0x748f82ee, 0x78a5636f, 0x84c87814, 0x8cc70208, 0x90befffa, 0xa4506ceb, 0xbef9a3f7, 0xc67178f2]

/-- `u32::rotate_right`. -/
def rotateRight (x n : UInt32) : UInt32 :=
  x >>> n ||| x <<< (32 - n)

/-- `u32::from_be_bytes`. -/
def fromBeBytes (b0 b1 b2 b3 : UInt8) : UInt32 :=
  UInt32.ofNat (b0.toNat * 2 ^ 24 + b1.toNat * 2 ^ 16 + b2.toNat * 2 ^ 8 + b3.toNat)

/-- `to_be_bytes` of a word of `count` bytes. -/
def toBeBytes (count value : Nat) : Vector UInt8 count :=
  Vector.ofFn fun i => UInt8.ofNat (value / 256 ^ (count - 1 - i))

/-- `block[start..start + source.len()].copy_from_slice(source)`. -/
def copyFromSlice {α : Type} {n : Nat} (block : Vector α n) (start : Nat) (source : List α) :
    Vector α n :=
  Vector.ofFn fun i =>
    if i < start then block[i] else (source[i.val - start]?).getD block[i]

def loadWord (block : Vector UInt8 64) (schedule : Vector UInt32 64) (index : Nat) :
    Vector UInt32 64 :=
  schedule.setIfInBounds index
    (fromBeBytes block[4 * index]! block[4 * index + 1]! block[4 * index + 2]!
      block[4 * index + 3]!)

def extendWord (schedule : Vector UInt32 64) (index : Nat) : Vector UInt32 64 :=
  let w15 := schedule[index - 15]!
  let s0 := rotateRight w15 7 ^^^ rotateRight w15 18 ^^^ w15 >>> 3
  let w2 := schedule[index - 2]!
  let s1 := rotateRight w2 17 ^^^ rotateRight w2 19 ^^^ w2 >>> 10
  schedule.setIfInBounds index (schedule[index - 16]! + s0 + schedule[index - 7]! + s1)

def messageSchedule (block : Vector UInt8 64) : Vector UInt32 64 :=
  let loaded := (List.range 16).foldl (loadWord block) (Vector.replicate 64 0)
  (List.range' 16 48).foldl extendWord loaded

/-- The working variables of `compress_scalar`. -/
structure Registers where
  a : UInt32
  b : UInt32
  c : UInt32
  d : UInt32
  e : UInt32
  f : UInt32
  g : UInt32
  h : UInt32

def scalarRound (schedule : Vector UInt32 64) (r : Registers) (index : Nat) : Registers :=
  let s1 := rotateRight r.e 6 ^^^ rotateRight r.e 11 ^^^ rotateRight r.e 25
  let choice := (r.e &&& r.f) ^^^ (~~~r.e &&& r.g)
  let t1 := r.h + s1 + choice + K[index]! + schedule[index]!
  let s0 := rotateRight r.a 2 ^^^ rotateRight r.a 13 ^^^ rotateRight r.a 22
  let majority := (r.a &&& r.b) ^^^ (r.a &&& r.c) ^^^ (r.b &&& r.c)
  let t2 := s0 + majority
  ⟨t1 + t2, r.a, r.b, r.c, r.d + t1, r.e, r.f, r.g⟩

def compressScalar (state : Vector UInt32 8) (schedule : Vector UInt32 64) : Vector UInt32 8 :=
  let start : Registers :=
    ⟨state[0], state[1], state[2], state[3], state[4], state[5], state[6], state[7]⟩
  let r := (List.range 64).foldl (scalarRound schedule) start
  #v[state[0] + r.a, state[1] + r.b, state[2] + r.c, state[3] + r.d,
    state[4] + r.e, state[5] + r.f, state[6] + r.g, state[7] + r.h]

def compressShaNi (cpu : Processor) (state : Vector UInt32 8) (schedule : Vector UInt32 64) :
    Vector UInt32 8 :=
  cpu.sha256Rounds state (Vector.ofFn fun index => schedule[index] + K[index])

/-- The working variables at the start of the rounds. -/
def startRegisters (state : Vector UInt32 8) : Registers :=
  ⟨state[0], state[1], state[2], state[3], state[4], state[5], state[6], state[7]⟩

/-- The round words are the schedule with the constants. -/
def roundWords (schedule : Vector UInt32 64) : Vector UInt32 64 :=
  Vector.ofFn fun index => schedule[index] + K[index]

/-- The state words as the standard's hash value. -/
def view (state : Vector UInt32 8) : Fips180.Hash :=
  ⟨state[0].toBitVec, state[1].toBitVec, state[2].toBitVec, state[3].toBitVec,
    state[4].toBitVec, state[5].toBitVec, state[6].toBitVec, state[7].toBitVec⟩

def selectShaNi (maxBasicLeaf leaf7Ebx : UInt32) : Bool :=
  maxBasicLeaf ≥ 7 && (leaf7Ebx &&& ((1 : UInt32) <<< 29)) != 0

def shaNiAvailable (cpu : Processor) : Bool :=
  let leaf7Ebx := if cpu.maxBasicLeaf ≥ 7 then cpu.leaf7Ebx else 0
  selectShaNi cpu.maxBasicLeaf leaf7Ebx

end Sha256

/-- The hasher between two calls, when its buffer is never full. -/
structure Sha256 where
  state : Vector UInt32 8
  block : Vector UInt8 64
  used : Nat
  bytes : UInt64
  backend : Backend
  used_lt : used < 64

namespace Sha256

def new : Sha256 where
  state := #v[0x6a09e667, 0xbb67ae85, 0x3c6ef372, 0xa54ff53a, 0x510e527f, 0x9b05688c, 0x1f83d9ab,
    0x5be0cd19]
  block := Vector.replicate 64 0
  used := 0
  bytes := 0
  backend := .unresolved
  used_lt := by decide

/-- The backend the first compression settles on. -/
def resolve (cpu : Processor) : Backend → Backend
  | .unresolved => if shaNiAvailable cpu then .shaNi else .scalar
  | backend => backend

def compress (cpu : Processor) (self : Sha256) (block : Vector UInt8 64) : Sha256 :=
  let backend := resolve cpu self.backend
  let schedule := messageSchedule block
  match backend with
  | .scalar => { self with backend, state := compressScalar self.state schedule }
  | .shaNi => { self with backend, state := compressShaNi cpu self.state schedule }
  -- `unreachable!()`: resolving leaves no unresolved backend
  | .unresolved => self

/-- The `while` loop of `update`: whole blocks straight from the input. -/
def compressWhole (cpu : Processor) (self : Sha256) (input : List UInt8) : Sha256 × List UInt8 :=
  if 64 ≤ input.length then
    let block := copyFromSlice (Vector.replicate 64 0) 0 (input.take 64)
    compressWhole cpu (self.compress cpu block) (input.drop 64)
  else
    (self, input)
termination_by input.length
decreasing_by simp only [List.length_drop]; omega

/-- The last two lines of `update`, reached with less than a block of input. -/
def keepTail (self : Sha256) (input : List UInt8) (short : input.length < 64) : Sha256 :=
  { self with
    block := copyFromSlice self.block 0 input
    used := input.length
    used_lt := short }

/-- Less than a block is left. -/
lemma compressWhole_short (cpu : Processor) (self : Sha256) (input : List UInt8) :
    (compressWhole cpu self input).2.length < 64 := by
  induction self, input using compressWhole.induct cpu with
  | case1 self input whole block ih =>
    rw [compressWhole, if_pos whole]
    exact ih
  | case2 self input short =>
    rw [compressWhole, if_neg short]
    exact Nat.lt_of_not_ge short

/-- `update` from its `while` loop on. -/
def updateWhole (cpu : Processor) (self : Sha256) (input : List UInt8) : Sha256 :=
  let rest := compressWhole cpu self input
  rest.1.keepTail rest.2 (compressWhole_short cpu self input)

def update (cpu : Processor) (self : Sha256) (input : List UInt8) : Sha256 :=
  let self := { self with bytes := self.bytes + UInt64.ofNat input.length }
  if self.used ≠ 0 then
    let take := min (64 - self.used) input.length
    let block := copyFromSlice self.block self.used (input.take take)
    let input := input.drop take
    if full : self.used + take = 64 then
      let self := { self with block, used := 0, used_lt := by decide }
      updateWhole cpu (self.compress cpu block) input
    else
      { self with
        block
        used := self.used + take
        used_lt := by have := self.used_lt; omega }
  else
    updateWhole cpu self input

def finish (cpu : Processor) (self : Sha256) : Vector UInt8 (8 * 4) :=
  let bitLength := self.bytes * 8
  let block := self.block.setIfInBounds self.used 0x80
  let used := self.used + 1
  let (self, block) :=
    if used > 56 then
      let block := copyFromSlice block used (List.replicate (64 - used) 0)
      (self.compress cpu block, Vector.replicate 64 0)
    else
      (self, copyFromSlice block used (List.replicate (56 - used) 0))
  let block := copyFromSlice block 56 (toBeBytes 8 bitLength.toNat).toList
  let self := self.compress cpu block
  (self.state.map fun word => toBeBytes 4 word.toNat).flatten

end Sha256

end Promptboot
