import Promptboot.Lib.Xorshift
import Promptboot.Engine.Sampling

/-!
# The sampler's generator

`SamplingState::new` and `next_24` (`inference.rs`). The update of the state is a permutation of
the words that fixes zero, so a state that does not start at zero never gets there, and the seed
zero is replaced.

`next24_state` takes the source's three shifts to `update`, which `toBitVec_update` takes to the
library's `scramble`. The headlines are `update_bijective` and `generator_never_degenerates`.
-/

namespace Promptboot

def zeroSeedReplacement : UInt64 := 0x9e3779b97f4a7c15

namespace SamplingState

/-- `SamplingState::new` -/
def new (seed : UInt64) : SamplingState where
  state := if seed = 0 then zeroSeedReplacement else seed
  draws := 0

/-- The state after so many draws. -/
def drawn (s : SamplingState) : Nat → SamplingState
  | 0 => s
  | n + 1 => (s.drawn n).next24.2

/-- What `next_24` makes of the state's word. -/
def update (word : UInt64) : UInt64 := (next24 ⟨word, 0⟩).2.state

/-- A draw takes one step. -/
lemma next24_state (s : SamplingState) : s.next24.2.state = update s.state := rfl

/-- The update is a scramble of the 64 bits. -/
lemma toBitVec_update (word : UInt64) :
    (update word).toBitVec = Xorshift.scramble 12 25 27 word.toBitVec := rfl

/-- The step is a permutation of the words. -/
theorem update_bijective : Function.Bijective update := by
  have scrambled : Function.Bijective (Xorshift.scramble (w := 64) 12 25 27) :=
    Xorshift.scramble_bijective (by decide) (by decide) (by decide)
  constructor
  · intro x y same
    have bits := congrArg UInt64.toBitVec same
    rw [toBitVec_update, toBitVec_update] at bits
    exact UInt64.toBitVec_inj.mp (scrambled.injective bits)
  · intro y
    obtain ⟨x, hx⟩ := scrambled.surjective y.toBitVec
    exact ⟨⟨x⟩, UInt64.toBitVec_inj.mp ((toBitVec_update _).trans hx)⟩

/-- The step never comes to zero. -/
lemma update_ne_zero {word : UInt64} (nonzero : word ≠ 0) : update word ≠ 0 := by
  have bits : word.toBitVec ≠ 0#64 := fun zero => nonzero (UInt64.toBitVec_inj.mp zero)
  intro zero
  have scrambled := congrArg UInt64.toBitVec zero
  rw [toBitVec_update] at scrambled
  exact Xorshift.scramble_ne_zero (by decide) (by decide) (by decide) bits scrambled

/-- A seed never starts at zero. -/
lemma new_state_ne_zero (seed : UInt64) : (new seed).state ≠ 0 := by
  simp only [new]
  split_ifs with zero
  · decide
  · exact zero

/-- One draw keeps the state from zero, any number of draws does. -/
lemma drawn_state_ne_zero {s : SamplingState} (nonzero : s.state ≠ 0) (n : Nat) :
    (s.drawn n).state ≠ 0 := by
  induction n with
  | zero => exact nonzero
  | succ n ih =>
    rw [drawn, next24_state]
    exact update_ne_zero ih

/-- A draw is the top 24 bits of a word. -/
lemma next24_lt (s : SamplingState) : s.next24.1.toNat < 2 ^ 24 := by
  have top (word : UInt64) : (word >>> 40).toUInt32.toNat < 2 ^ 24 := by
    have small := word.toNat_lt
    have amount : (40 : UInt64).toNat % 64 = 40 := rfl
    rw [UInt64.toNat_toUInt32, UInt64.toNat_shiftRight, amount, Nat.shiftRight_eq_div_pow]
    omega
  exact top _

end SamplingState

/-- The generator never degenerates. -/
theorem generator_never_degenerates :
    (∀ seed n, ((SamplingState.new seed).drawn n).state ≠ 0) ∧
    (∀ draws, Function.Bijective fun word => (SamplingState.next24 ⟨word, draws⟩).2.state) ∧
    (∀ s : SamplingState, s.next24.1.toNat < 2 ^ 24) :=
  ⟨fun seed n => SamplingState.drawn_state_ne_zero (SamplingState.new_state_ne_zero seed) n,
    fun _ => SamplingState.update_bijective, SamplingState.next24_lt⟩

end Promptboot
