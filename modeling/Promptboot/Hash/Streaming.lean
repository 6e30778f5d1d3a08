import Mathlib.Tactic.IntervalCases
import Promptboot.Hash.Sha256

/-!
# Every chunking hashes alike

The scalar compression computes the standard's, word by word and round by round. The invariant
`Holds` then says what the hasher has made of the bytes given so far, `update` keeps it for every
chunk, and `finish` completes the last one or two blocks to the standard's padding.

`compressScalar_view` is the compression, from `messageSchedule_eq` and `scalarRound_foldl`.
`Carries` is the invariant over whole blocks and `Holds` adds the buffer; `update_holds` is the
step, `finish_eq` the padding. The headline `finish_updates` follows by induction on the list of
chunks.
-/

namespace Promptboot.Sha256
open Absorb

def Registers.view (r : Registers) : Fips180.Hash :=
  ⟨r.a.toBitVec, r.b.toBitVec, r.c.toBitVec, r.d.toBitVec,
    r.e.toBitVec, r.f.toBitVec, r.g.toBitVec, r.h.toBitVec⟩

/-- The round constants are the ones the standard derives from the primes. -/
lemma K_eq : ∀ index < 64, K[index]!.toBitVec = Fips180.constant index := by
  decide +kernel

/-- A new hasher has the initial hash value. -/
lemma view_new : view new.state = Fips180.initial := by
  ext1 <;> decide +kernel

/-- The rotation of the source is that of the standard. -/
lemma toBitVec_rotateRight (x : UInt32) {n : UInt32} (pos : 0 < n.toNat) (lt : n.toNat < 32) :
    (rotateRight x n).toBitVec = x.toBitVec.rotateRight n.toNat := by
  have left : (4294967296 - n.toNat) % 32 = 32 - n.toNat := by omega
  rw [BitVec.rotateRight_def, Nat.mod_eq_of_lt lt, rotateRight]
  apply BitVec.eq_of_toNat_eq
  simp [Nat.mod_eq_of_lt lt, left]

/-- The source's σ0 is the standard's. -/
lemma smallSigma0_toBitVec (x : UInt32) :
    (rotateRight x 7 ^^^ rotateRight x 18 ^^^ x >>> 3).toBitVec =
      Fips180.smallSigma0 x.toBitVec := by
  rw [UInt32.toBitVec_xor, UInt32.toBitVec_xor, toBitVec_rotateRight x (by decide) (by decide),
    toBitVec_rotateRight x (by decide) (by decide), UInt32.toBitVec_shiftRight]
  rfl

/-- The source's σ1 is the standard's. -/
lemma smallSigma1_toBitVec (x : UInt32) :
    (rotateRight x 17 ^^^ rotateRight x 19 ^^^ x >>> 10).toBitVec =
      Fips180.smallSigma1 x.toBitVec := by
  rw [UInt32.toBitVec_xor, UInt32.toBitVec_xor, toBitVec_rotateRight x (by decide) (by decide),
    toBitVec_rotateRight x (by decide) (by decide), UInt32.toBitVec_shiftRight]
  rfl

/-- The source's Σ0 is the standard's. -/
lemma bigSigma0_toBitVec (x : UInt32) :
    (rotateRight x 2 ^^^ rotateRight x 13 ^^^ rotateRight x 22).toBitVec =
      Fips180.bigSigma0 x.toBitVec := by
  rw [UInt32.toBitVec_xor, UInt32.toBitVec_xor, toBitVec_rotateRight x (by decide) (by decide),
    toBitVec_rotateRight x (by decide) (by decide), toBitVec_rotateRight x (by decide) (by decide)]
  rfl

/-- The source's Σ1 is the standard's. -/
lemma bigSigma1_toBitVec (x : UInt32) :
    (rotateRight x 6 ^^^ rotateRight x 11 ^^^ rotateRight x 25).toBitVec =
      Fips180.bigSigma1 x.toBitVec := by
  rw [UInt32.toBitVec_xor, UInt32.toBitVec_xor, toBitVec_rotateRight x (by decide) (by decide),
    toBitVec_rotateRight x (by decide) (by decide), toBitVec_rotateRight x (by decide) (by decide)]
  rfl

/-- A word of four bytes, the most significant first. -/
lemma toBitVec_fromBeBytes (b0 b1 b2 b3 : UInt8) :
    (fromBeBytes b0 b1 b2 b3).toBitVec =
      BitVec.ofNat 32
        (b0.toNat * 2 ^ 24 + b1.toNat * 2 ^ 16 + b2.toNat * 2 ^ 8 + b3.toNat) :=
  UInt32.toBitVec_ofNat' _

/-- Storing a word of the schedule leaves the others. -/
lemma getElem!_setIfInBounds {schedule : Vector UInt32 64} {index t : Nat} {word : UInt32}
    (lt : t < 64) :
    (schedule.setIfInBounds index word)[t]! = if index = t then word else schedule[t]! := by
  rw [getElem!_pos _ t lt, getElem!_pos _ t lt, Vector.getElem_setIfInBounds lt]

/-- After `count` steps of the first loop the first `count` words are the block's. -/
lemma loadWord_foldl (block : Vector UInt8 64) (schedule : Vector UInt32 64) :
    ∀ count ≤ 16, ∀ t < count,
      ((List.range count).foldl (loadWord block) schedule)[t]!.toBitVec =
        Fips180.messageWord block.toList t := by
  intro count
  induction count with
  | zero => omega
  | succ count ih =>
    intro le t lt
    rw [List.range_succ, List.foldl_append, List.foldl_cons, List.foldl_nil, loadWord,
      getElem!_setIfInBounds (by omega)]
    split
    case isTrue last =>
      subst last
      rw [toBitVec_fromBeBytes, Fips180.messageWord]
      simp [List.getD_eq_getElem?_getD, getElem!_pos, show 4 * count + 3 < 64 by omega,
        show 4 * count + 2 < 64 by omega, show 4 * count + 1 < 64 by omega,
        show 4 * count < 64 by omega]
    case isFalse earlier => exact ih (by omega) t (by omega)

/-- The first sixteen words of the schedule are those of the message. -/
lemma scheduleWord_of_lt {block : List UInt8} {t : Nat} (lt : t < 16) :
    Fips180.scheduleWord block t = Fips180.messageWord block t := by
  rw [Fips180.scheduleWord, if_pos lt]

/-- One step of the second loop computes the next schedule word from the earlier ones. -/
lemma extendWord_step {block : List UInt8} {schedule : Vector UInt32 64} {index : Nat}
    (low : 16 ≤ index) (high : index < 64)
    (earlier : ∀ t < index, schedule[t]!.toBitVec = Fips180.scheduleWord block t) :
    ∀ t < index + 1, (extendWord schedule index)[t]!.toBitVec = Fips180.scheduleWord block t := by
  intro t lt
  rw [extendWord, getElem!_setIfInBounds (by omega)]
  split
  case isTrue last =>
    subst last
    rw [Fips180.scheduleWord, if_neg (by omega), ← earlier _ (by omega : index - 2 < index),
      ← earlier _ (by omega : index - 7 < index), ← earlier _ (by omega : index - 15 < index),
      ← earlier _ (by omega : index - 16 < index)]
    simp only [UInt32.toBitVec_add, smallSigma0_toBitVec, smallSigma1_toBitVec]
    ac_rfl
  case isFalse other => exact earlier t (by omega)

/-- The words of the schedule are the standard's as far as it is extended. -/
lemma extendWord_foldl {block : List UInt8} {schedule : Vector UInt32 64}
    (loaded : ∀ t < 16, schedule[t]!.toBitVec = Fips180.scheduleWord block t) :
    ∀ count ≤ 48, ∀ t < 16 + count,
      ((List.range' 16 count).foldl extendWord schedule)[t]!.toBitVec =
        Fips180.scheduleWord block t := by
  intro count
  induction count with
  | zero => exact fun _ => loaded
  | succ count ih =>
    intro le
    have low : 16 ≤ 16 + count := Nat.le_add_right 16 count
    have high : 16 + count < 64 := by omega
    rw [List.range'_1_concat, List.foldl_append, List.foldl_cons, List.foldl_nil]
    exact extendWord_step low high (ih (by omega))

/-- The schedule of the source is the standard's. -/
lemma messageSchedule_eq (block : Vector UInt8 64) :
    ∀ t < 64, (messageSchedule block)[t]!.toBitVec = Fips180.scheduleWord block.toList t := by
  intro t lt
  rw [messageSchedule]
  refine extendWord_foldl (fun t lt => ?_) 48 (Nat.le_refl 48) t lt
  rw [scheduleWord_of_lt lt]
  exact loadWord_foldl block _ 16 (Nat.le_refl 16) t lt

/-- A round of the source is one of the standard. -/
lemma scalarRound_view {block : Vector UInt8 64} (r : Registers) {index : Nat}
    (lt : index < 64) :
    (scalarRound (messageSchedule block) r index).view =
      Fips180.round block.toList r.view index := by
  have schedule := messageSchedule_eq block index lt
  have constant := K_eq index lt
  simp only [scalarRound, Registers.view, Fips180.round, UInt32.toBitVec_add, schedule, constant,
    bigSigma0_toBitVec, bigSigma1_toBitVec]
  rfl

/-- Rounds of the source are rounds of the standard. -/
lemma scalarRound_foldl (block : Vector UInt8 64) :
    ∀ count ≤ 64, ∀ r : Registers,
      ((List.range count).foldl (scalarRound (messageSchedule block)) r).view =
        (List.range count).foldl (Fips180.round block.toList) r.view := by
  intro count
  induction count with
  | zero => exact fun _ _ => rfl
  | succ count ih =>
    intro le r
    rw [List.range_succ, List.foldl_append, List.foldl_append, List.foldl_cons, List.foldl_nil,
      List.foldl_cons, List.foldl_nil, scalarRound_view _ (by omega), ih (by omega)]

/-- The scalar backend compresses as the standard does. -/
lemma compressScalar_view (state : Vector UInt32 8) (block : Vector UInt8 64) :
    view (compressScalar state (messageSchedule block)) =
      Fips180.compress (view state) block.toList := by
  have rounds := scalarRound_foldl block 64 le_rfl
    ⟨state[0], state[1], state[2], state[3], state[4], state[5], state[6], state[7]⟩
  have start : view state = Registers.view
    ⟨state[0], state[1], state[2], state[3], state[4], state[5], state[6], state[7]⟩ := rfl
  rw [Fips180.compress, start, ← rounds]
  rfl

/-- A copy into a block replaces the bytes from its start on. -/
lemma toList_copyFromSlice {α : Type} {n : Nat} {block : Vector α n} {start : Nat}
    {source : List α} (fits : start + source.length ≤ n) :
    (copyFromSlice block start source).toList =
      block.toList.take start ++ source ++ block.toList.drop (start + source.length) := by
  apply List.ext_getElem
  · simp
    omega
  intro i left right
  simp only [Vector.length_toList] at left
  simp only [copyFromSlice, Vector.getElem_toList, Vector.getElem_ofFn]
  by_cases before : i < start
  · rw [if_pos before, List.getElem_append_left (by simp; omega),
      List.getElem_append_left (by simp; omega)]
    simp
  · rw [if_neg before]
    by_cases within : i - start < source.length
    · rw [List.getElem_append_left (by simp; omega), List.getElem_append_right (by simp; omega)]
      simp [within, show min start n = start by omega]
    · rw [List.getElem_append_right (by simp; omega)]
      simp [List.getElem?_eq_none (by omega : source.length ≤ i - start)]
      congr 1
      omega

section Backend
variable {cpu : Processor} {hasher : Sha256}

/-- A compression that resolves to the scalar backend. -/
lemma compress_eq (scalar : resolve cpu hasher.backend = .scalar) (block : Vector UInt8 64) :
    hasher.compress cpu block =
      { hasher with
        backend := .scalar
        state := compressScalar hasher.state (messageSchedule block) } := by
  rw [compress, scalar]

/-- What a hasher carries from one block to the next when it compresses in software. -/
structure Carries (cpu : Processor) (hasher : Sha256) (hash : Fips180.Hash) (bytes : UInt64) :
    Prop where
  state : view hasher.state = hash
  bytes : hasher.bytes = bytes
  scalar : resolve cpu hasher.backend = .scalar

/-- A compression carries the hash value on by its block. -/
lemma Carries.compress {hash : Fips180.Hash} {bytes : UInt64} (carries : Carries cpu hasher hash bytes)
    (block : Vector UInt8 64) :
    Carries cpu (hasher.compress cpu block) (Fips180.compress hash block.toList) bytes := by
  rw [compress_eq carries.scalar]
  refine ⟨?_, carries.bytes, rfl⟩
  rw [← carries.state]
  exact compressScalar_view hasher.state block

/-- The `while` loop absorbs the whole blocks of the input and returns the rest. -/
lemma compressWhole_carries (hasher : Sha256) (input : List UInt8) :
    ∀ {hash : Fips180.Hash} {bytes : UInt64}, Carries cpu hasher hash bytes →
      Carries cpu (compressWhole cpu hasher input).1 (absorb 64 Fips180.compress hash input) bytes ∧
        (compressWhole cpu hasher input).2 = leftover 64 input := by
  induction hasher, input using compressWhole.induct cpu with
  | case1 hasher input whole block =>
    rename_i ih
    intro hash bytes carries
    have loaded :
        (copyFromSlice (Vector.replicate 64 0) 0 (input.take 64)).toList = input.take 64 := by
      rw [toList_copyFromSlice (by simp)]
      simp [whole]
    have one : (input.take 64).length = 1 * 64 := by simp [whole]
    have next := carries.compress (copyFromSlice (Vector.replicate 64 0) 0 (input.take 64))
    rw [loaded] at next
    obtain ⟨rest, tail⟩ := ih next
    rw [compressWhole, if_pos whole, absorb_of_le (by decide) whole]
    refine ⟨rest, tail.trans ?_⟩
    conv_rhs => rw [← List.take_append_drop 64 input]
    exact (leftover_append_of_dvd (by decide) one _).symm
  | case2 hasher input short =>
    intro hash bytes carries
    rw [compressWhole, if_neg short, absorb_of_lt (Nat.lt_of_not_ge short),
      leftover_of_lt (Nat.lt_of_not_ge short)]
    exact ⟨carries, rfl⟩

/-- What the hasher has made of the bytes given so far. -/
structure Holds (cpu : Processor) (hasher : Sha256) (message : List UInt8) : Prop where
  carries : Carries cpu hasher (absorb 64 Fips180.compress Fips180.initial message)
    (UInt64.ofNat message.length)
  block : hasher.block.toList.take hasher.used = leftover 64 message

/-- The buffer holds what is left over of the message. -/
lemma Holds.used {message : List UInt8} (holds : Holds cpu hasher message) :
    hasher.used = (leftover 64 message).length := by
  have lt := hasher.used_lt
  rw [← holds.block]
  simp
  omega

/-- A new hasher holds the empty message. -/
lemma holds_new {backend : Backend} (scalar : resolve cpu backend = .scalar) :
    Holds cpu { new with backend } [] := by
  refine ⟨⟨?_, rfl, scalar⟩, rfl⟩
  rw [absorb_of_lt (by decide)]
  exact view_new

/-- `update` from its `while` loop on, after whole blocks only. -/
lemma updateWhole_holds {front input : List UInt8} {blocks : Nat}
    (whole : front.length = blocks * 64)
    (carries : Carries cpu hasher (absorb 64 Fips180.compress Fips180.initial front)
      (UInt64.ofNat (front ++ input).length)) :
    Holds cpu (updateWhole cpu hasher input) (front ++ input) := by
  obtain ⟨rest, tail⟩ := compressWhole_carries hasher input carries
  have short := compressWhole_short cpu hasher input
  rw [← absorb_append (by decide) blocks front whole] at rest
  have state : (updateWhole cpu hasher input).state = (compressWhole cpu hasher input).1.state := by
    rw [updateWhole, keepTail]
  have bytes : (updateWhole cpu hasher input).bytes = (compressWhole cpu hasher input).1.bytes := by
    rw [updateWhole, keepTail]
  have backend :
      (updateWhole cpu hasher input).backend = (compressWhole cpu hasher input).1.backend := by
    rw [updateWhole, keepTail]
  refine ⟨⟨?_, ?_, ?_⟩, ?_⟩
  · rw [state]
    exact rest.state
  · rw [bytes]
    exact rest.bytes
  · rw [backend]
    exact rest.scalar
  · rw [leftover_append_of_dvd (by decide) whole, ← tail, updateWhole, keepTail]
    dsimp only
    rw [toList_copyFromSlice (by omega)]
    simp

/-- An update appends its input to the message. -/
lemma update_holds {message : List UInt8} (holds : Holds cpu hasher message)
    (input : List UInt8) : Holds cpu (hasher.update cpu input) (message ++ input) := by
  obtain ⟨front, whole, split⟩ := exists_blocks (n := 64) message
  have used := holds.used
  have lt := hasher.used_lt
  have held := holds.block
  have absorbed : absorb 64 Fips180.compress Fips180.initial message =
      absorb 64 Fips180.compress Fips180.initial front := by
    conv_lhs => rw [split]
    rw [absorb_append (by decide) _ front whole, absorb_of_lt (by omega)]
  have bytes : hasher.bytes + UInt64.ofNat input.length =
      UInt64.ofNat (message ++ input).length := by
    rw [holds.carries.bytes, List.length_append, UInt64.ofNat_add]
  have carries : Carries cpu { hasher with bytes := hasher.bytes + UInt64.ofNat input.length }
      (absorb 64 Fips180.compress Fips180.initial front)
      (UInt64.ofNat (message ++ input).length) :=
    ⟨holds.carries.state.trans absorbed, bytes, holds.carries.scalar⟩
  rw [update]
  split
  case isFalse empty =>
    -- nothing is buffered, so the message so far is whole blocks
    have none : leftover 64 message = [] := List.eq_nil_of_length_eq_zero (by simp at empty; omega)
    rw [none, List.append_nil] at split
    rw [split] at carries ⊢
    exact updateWhole_holds whole carries
  case isTrue some =>
    dsimp only
    split
    case isTrue full =>
      -- the buffered bytes and the head of the input fill one block
      obtain ⟨head, head_eq⟩ : ∃ head, input.take (min (64 - hasher.used) input.length) = head :=
        ⟨_, rfl⟩
      have head_len : head.length = min (64 - hasher.used) input.length := by
        rw [← head_eq, List.length_take]
        omega
      have len : (leftover 64 message ++ head).length = 64 := by
        rw [List.length_append, ← used, head_len, full]
      have copied : (copyFromSlice hasher.block hasher.used head).toList =
          leftover 64 message ++ head := by
        rw [toList_copyFromSlice (by omega), held, List.drop_eq_nil_of_le (by simp; omega),
          List.append_nil]
      have rejoin : message ++ input = (front ++ (leftover 64 message ++ head)) ++
          input.drop (min (64 - hasher.used) input.length) := by
        rw [List.append_assoc, List.append_assoc, ← head_eq, List.take_append_drop,
          ← List.append_assoc, ← split]
      have carried : Carries cpu
          { hasher with
            bytes := hasher.bytes + UInt64.ofNat input.length
            block := copyFromSlice hasher.block hasher.used head
            used := 0
            used_lt := by decide } _ _ :=
        ⟨carries.state, carries.bytes, carries.scalar⟩
      have next := carried.compress (copyFromSlice hasher.block hasher.used head)
      have block : absorb 64 Fips180.compress
          (absorb 64 Fips180.compress Fips180.initial front) (leftover 64 message ++ head) = _ :=
        absorb_block (by decide) len _
      rw [copied, ← block, ← absorb_append (by decide) _ front whole] at next
      have blocks : (front ++ (leftover 64 message ++ head)).length =
          (message.length / 64 + 1) * 64 := by
        rw [List.length_append, whole, len, Nat.add_mul, Nat.one_mul]
      rw [head_eq]
      rw [rejoin] at next ⊢
      exact updateWhole_holds blocks next
    case isFalse partly =>
      -- the input does not fill the block, and goes behind the buffered bytes
      have all : min (64 - hasher.used) input.length = input.length := by omega
      have short : (leftover 64 message ++ input).length < 64 := by
        simp
        omega
      have split : message ++ input = front ++ (leftover 64 message ++ input) := by
        rw [← List.append_assoc, ← split]
      refine ⟨⟨?_, bytes, holds.carries.scalar⟩, ?_⟩
      · rw [split, absorb_append (by decide) _ front whole, absorb_of_lt short]
        exact carries.state
      · rw [split, leftover_append_of_dvd (by decide) whole, leftover_of_lt short, ← held]
        dsimp only
        rw [all, List.take_length, toList_copyFromSlice (by omega)]
        exact List.take_left' (by simp; omega)

/-- The buffer up to the mark that ends the message. -/
lemma Holds.marked {message : List UInt8} (holds : Holds cpu hasher message) :
    (hasher.block.setIfInBounds hasher.used 0x80).toList.take (hasher.used + 1) =
      leftover 64 message ++ [0x80] := by
  have lt := hasher.used_lt
  have held := holds.block
  rw [Vector.toList_setIfInBounds, List.set_eq_take_append_cons_drop, if_pos (by simpa using lt),
    held, List.append_cons]
  exact List.take_left' (by simp [holds.used])

/-- The bytes of a number are those of the standard. -/
lemma toList_toBeBytes (count value : Nat) :
    (toBeBytes count value).toList = Fips180.bigEndian count value := by
  apply List.ext_getElem
  · simp [Fips180.bigEndian]
  · intro i left right
    simp [toBeBytes, Fips180.bigEndian]

/-- The bytes of rows are those of each row in turn. -/
lemma toList_flatten {α : Type} {m n : Nat} (rows : Vector (Vector α m) n) :
    rows.flatten.toList = rows.toList.flatMap Vector.toList := by
  obtain ⟨⟨rows⟩, len⟩ := rows
  simp only [Vector.flatten, Vector.toList, List.flatMap_def, List.map_toArray,
    Array.toList_flatten, List.map_map]
  rfl

/-- The output bytes are the state words in order. -/
lemma toList_flatten_view (state : Vector UInt32 8) :
    (state.map fun word => toBeBytes 4 word.toNat).flatten.toList = (view state).bytes := by
  have words : state.toList = [state[0], state[1], state[2], state[3], state[4], state[5],
      state[6], state[7]] := by
    apply List.ext_getElem (by simp)
    intro i left right
    simp only [List.length_cons, List.length_nil] at right
    interval_cases i <;> rfl
  rw [toList_flatten, Vector.toList_map, words, Fips180.Hash.bytes]
  simp [toList_toBeBytes, view]

/-- The length in bits does not wrap below 2^61 bytes. -/
lemma bitLength {message : List UInt8} (holds : Holds cpu hasher message)
    (short : message.length < 2 ^ 61) : (hasher.bytes * 8).toNat = 8 * message.length := by
  rw [holds.carries.bytes, UInt64.toNat_mul, UInt64.toNat_ofNat']
  simp
  omega

/-- The digest of the message held is its SHA-256. -/
lemma finish_eq {message : List UInt8} (holds : Holds cpu hasher message)
    (short : message.length < 2 ^ 61) :
    (hasher.finish cpu).toList = Fips180.sha256 message := by
  have used := holds.used
  have lt := hasher.used_lt
  have marked := holds.marked
  have bits := bitLength holds short
  have residue : hasher.used = message.length % 64 := by rw [used, length_leftover]
  have padded : absorb 64 Fips180.compress Fips180.initial (message ++ _) = _ :=
    absorb_leftover (by decide) Fips180.initial message (Fips180.padding message.length)
  rw [Fips180.sha256, padded, finish]
  dsimp only
  rw [toList_flatten_view, bits]
  congr 1
  split
  case isTrue spill =>
    -- the mark leaves no room for the length: one block of zeros, one for the length
    have zeros : Fips180.zeroCount message.length = (64 - (hasher.used + 1)) + 56 := by
      rw [Fips180.zeroCount]
      omega
    have first : (copyFromSlice (hasher.block.setIfInBounds hasher.used 0x80) (hasher.used + 1)
        (List.replicate (64 - (hasher.used + 1)) 0)).toList =
          leftover 64 message ++ [0x80] ++ List.replicate (64 - (hasher.used + 1)) 0 := by
      rw [toList_copyFromSlice (by simp; omega), marked, List.drop_eq_nil_of_le (by simp; omega),
        List.append_nil]
    have last : (copyFromSlice (Vector.replicate 64 0) 56
        (toBeBytes 8 (8 * message.length)).toList).toList =
          List.replicate 56 0 ++ Fips180.bigEndian 8 (8 * message.length) := by
      rw [toList_copyFromSlice (by simp), List.drop_eq_nil_of_le (by simp), toList_toBeBytes]
      simp
    have split : leftover 64 message ++ Fips180.padding message.length =
        (leftover 64 message ++ [0x80] ++ List.replicate (64 - (hasher.used + 1)) 0) ++
          (List.replicate 56 0 ++ Fips180.bigEndian 8 (8 * message.length)) := by
      rw [Fips180.padding, zeros, List.replicate_add]
      simp
    have len : (leftover 64 message ++ [0x80] ++
        List.replicate (64 - (hasher.used + 1)) (0 : UInt8)).length = 64 := by
      simp
      omega
    have len' : (List.replicate 56 (0 : UInt8) ++
        Fips180.bigEndian 8 (8 * message.length)).length = 64 := by
      rw [List.length_append, List.length_replicate, Fips180.length_bigEndian]
    rw [((holds.carries.compress _).compress _).state, first, last, split,
      absorb_append (by decide) 1 _ len, absorb_block (by decide) len,
      absorb_block (by decide) len']
  case isFalse fits =>
    have zeros : Fips180.zeroCount message.length = 56 - (hasher.used + 1) := by
      rw [Fips180.zeroCount]
      omega
    have last : (copyFromSlice (copyFromSlice (hasher.block.setIfInBounds hasher.used 0x80)
        (hasher.used + 1) (List.replicate (56 - (hasher.used + 1)) 0)) 56
          (toBeBytes 8 (8 * message.length)).toList).toList =
        leftover 64 message ++ Fips180.padding message.length := by
      rw [toList_copyFromSlice (by simp), List.drop_eq_nil_of_le (by simp), toList_toBeBytes,
        toList_copyFromSlice (by simp; omega), marked, List.take_left' (by simp; omega),
        Fips180.padding, zeros]
      simp
    have len : (leftover 64 message ++ Fips180.padding message.length).length = 64 := by
      rw [← last, Vector.length_toList]
    rw [(holds.carries.compress _).state, last, absorb_block (by decide) len]

end Backend

/-- Every way of splitting a message into calls of `update` hashes it as the standard does. -/
theorem finish_updates (cpu : Processor) (backend : Backend)
    (scalar : resolve cpu backend = .scalar) (chunks : List (List UInt8))
    (short : chunks.flatten.length < 2 ^ 61) :
    ((chunks.foldl (update cpu) { new with backend }).finish cpu).toList =
      Fips180.sha256 chunks.flatten := by
  suffices run : ∀ (chunks : List (List UInt8)) (hasher : Sha256) (message : List UInt8),
      Holds cpu hasher message →
        Holds cpu (chunks.foldl (update cpu) hasher) (message ++ chunks.flatten) by
    exact finish_eq (run chunks _ [] (holds_new scalar)) short
  intro chunks
  induction chunks with
  | nil =>
    intro hasher message holds
    rwa [List.flatten_nil, List.append_nil]
  | cons chunk chunks ih =>
    intro hasher message holds
    rw [List.flatten_cons, ← List.append_assoc]
    exact ih _ _ (update_holds holds chunk)

/-- A processor without the extension, three chunks of which one is empty and one straddles. -/
theorem finish_updates_bare :
    let cpu : Processor := ⟨1, 0, fun state _ => state⟩
    let chunks : List (List UInt8) := [[97], [], List.replicate 70 98]
    resolve cpu .unresolved = .scalar ∧
      ((chunks.foldl (update cpu) new).finish cpu).toList = Fips180.sha256 chunks.flatten :=
  ⟨by decide, finish_updates ⟨1, 0, fun state _ => state⟩ .unresolved (by decide)
    [[97], [], List.replicate 70 98] (by decide)⟩

end Promptboot.Sha256
