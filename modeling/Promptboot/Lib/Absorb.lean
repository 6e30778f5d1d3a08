import Mathlib.Data.List.Basic

/-!
# Absorbing a stream in blocks

An iterated hash feeds its input to a compression function one block at a time and keeps the bytes
that do not fill a block. `absorb` is the state after the whole blocks of a stream and `leftover`
the rest of it. The lemmas say how both extend when the stream grows, which is all that a buffered
implementation has to maintain.

`absorb_append` is the rule for a stream that grows at a block's boundary, `leftover_append_of_dvd`
the one for its rest, and `absorb_leftover` the identity that a final block is padded with.
-/

namespace Absorb

variable {α σ τ : Type*} {n : Nat}

/-- The state after every whole block of `stream`. -/
def absorb (n : Nat) (compress : σ → List α → σ) (state : σ) (stream : List α) : σ :=
  if 0 < n ∧ n ≤ stream.length then
    absorb n compress (compress state (stream.take n)) (stream.drop n)
  else
    state
termination_by stream.length
decreasing_by simp only [List.length_drop]; omega

/-- What is left of `stream` behind its last whole block. -/
def leftover (n : Nat) (stream : List α) : List α :=
  stream.drop (stream.length / n * n)

/-- A stream shorter than a block leaves the state. -/
lemma absorb_of_lt {compress : σ → List α → σ} {state : σ} {stream : List α}
    (short : stream.length < n) : absorb n compress state stream = state := by
  unfold absorb
  rw [if_neg]
  omega

/-- A longer stream begins with a block, which is compressed first. -/
lemma absorb_of_le {compress : σ → List α → σ} {state : σ} {stream : List α}
    (pos : 0 < n) (long : n ≤ stream.length) :
    absorb n compress state stream =
      absorb n compress (compress state (stream.take n)) (stream.drop n) := by
  conv_lhs => unfold absorb
  rw [if_pos ⟨pos, long⟩]

/-- Whole blocks in front of a stream are absorbed first. -/
lemma absorb_append {compress : σ → List α → σ} (pos : 0 < n) :
    ∀ (blocks : Nat) (front : List α), front.length = blocks * n →
      ∀ (state : σ) (stream : List α),
        absorb n compress state (front ++ stream) =
          absorb n compress (absorb n compress state front) stream := by
  intro blocks
  induction blocks with
  | zero =>
    intro front len state stream
    obtain rfl : front = [] := List.eq_nil_of_length_eq_zero (by omega)
    have empty : absorb n compress state [] = state := absorb_of_lt (by simpa using pos)
    rw [List.nil_append, empty]
  | succ blocks ih =>
    intro front len state stream
    rw [Nat.succ_mul] at len
    have long : n ≤ front.length := by omega
    rw [absorb_of_le pos (by simp; omega), absorb_of_le pos long,
      List.take_append_of_le_length long, List.drop_append_of_le_length long]
    exact ih (front.drop n) (by rw [List.length_drop]; omega) _ stream

/-- One block is one call of the compression function. -/
lemma absorb_block {compress : σ → List α → σ} (pos : 0 < n) {block : List α}
    (len : block.length = n) (state : σ) : absorb n compress state block = compress state block := by
  rw [absorb_of_le pos (by omega), absorb_of_lt (by simp; omega), ← len, List.take_length]

/-- What is left over is the remainder of the length. -/
lemma length_leftover (stream : List α) : (leftover n stream).length = stream.length % n := by
  rw [leftover, List.length_drop]
  have split := Nat.div_add_mod stream.length n
  rw [Nat.mul_comm] at split
  omega

/-- A stream is its whole blocks followed by what is left. -/
lemma exists_blocks (stream : List α) :
    ∃ front : List α, front.length = stream.length / n * n ∧ stream = front ++ leftover n stream := by
  refine ⟨stream.take (stream.length / n * n), ?_, (List.take_append_drop _ _).symm⟩
  rw [List.length_take]
  have le := Nat.div_mul_le_self stream.length n
  omega

/-- Whole blocks in front do not change what is left over. -/
lemma leftover_append_of_dvd (pos : 0 < n) {blocks : Nat} {front : List α}
    (len : front.length = blocks * n) (stream : List α) :
    leftover n (front ++ stream) = leftover n stream := by
  rw [leftover, leftover, List.length_append, len, Nat.add_comm, Nat.add_mul_div_right _ _ pos,
    Nat.add_mul, Nat.add_comm, ← len, List.drop_append]
  simp

/-- All of a short stream is left over. -/
lemma leftover_of_lt {stream : List α} (short : stream.length < n) :
    leftover n stream = stream := by
  rw [leftover, Nat.div_eq_of_lt short, Nat.zero_mul, List.drop_zero]

/-- Absorbing in two parts: the second starts from what the first has left over. -/
lemma absorb_leftover {compress : σ → List α → σ} (pos : 0 < n) (state : σ)
    (stream rest : List α) :
    absorb n compress state (stream ++ rest) =
      absorb n compress (absorb n compress state stream) (leftover n stream ++ rest) := by
  obtain ⟨front, len, split⟩ := exists_blocks (n := n) stream
  have state_eq : absorb n compress state stream = absorb n compress state front := by
    conv_lhs => rw [split]
    rw [absorb_append pos _ front len, absorb_of_lt]
    rw [length_leftover]
    exact Nat.mod_lt _ pos
  rw [state_eq]
  conv_lhs => rw [split, List.append_assoc]
  exact absorb_append pos _ front len state _

end Absorb
