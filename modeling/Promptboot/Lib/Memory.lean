import Mathlib.Logic.Function.Basic
import Mathlib.Data.List.Basic
import Mathlib.Data.List.Induction
import Mathlib.Tactic.Common
import Mathlib.Algebra.Group.Int.Defs
import Mathlib.Algebra.Group.Nat.Defs

/-!
# Flat memories

A memory is a total function from addresses to cells. `writeAll` is a loop of single writes, with
what it stores and its frame: the addresses it leaves alone. `u32At` reads a little-endian word in
a memory of bytes.

`writeAll_of_mem` is what the loop stores where no address is written twice, `writeAll_of_ne` its
frame.
-/

namespace Memory

variable {ι α : Type}

/-- Writes `val i` at `addr i` for every `i` of the list, in order. -/
def writeAll (m : Nat → α) (l : List ι) (addr : ι → Nat) (val : ι → α) : Nat → α :=
  l.foldl (fun m i => Function.update m (addr i) (val i)) m

/-- The writes are made from the first on. -/
lemma writeAll_cons (m : Nat → α) (i : ι) (l : List ι) (addr : ι → Nat) (val : ι → α) :
    writeAll m (i :: l) addr val = writeAll (Function.update m (addr i) (val i)) l addr val :=
  rfl

/-- A loop of writes leaves alone every address it does not write. -/
lemma writeAll_of_ne {m : Nat → α} {l : List ι} {addr : ι → Nat} {val : ι → α} {a : Nat}
    (h : ∀ i ∈ l, addr i ≠ a) : writeAll m l addr val a = m a := by
  induction l generalizing m with
  | nil => rfl
  | cons i l ih =>
    rw [writeAll_cons, ih fun j hj => h j (List.mem_cons_of_mem _ hj)]
    exact Function.update_of_ne (h i (List.mem_cons_self ..)).symm _ _

/-- A loop of writes stores the one value it gives an address. -/
lemma writeAll_of_mem {m : Nat → α} {l : List ι} {addr : ι → Nat} {val : ι → α} {a : Nat} {v : α}
    (mem : ∃ i ∈ l, addr i = a) (one : ∀ i ∈ l, addr i = a → val i = v) :
    writeAll m l addr val a = v := by
  induction l generalizing m with
  | nil =>
    obtain ⟨i, hi, _⟩ := mem
    cases hi
  | cons j l ih =>
    rw [writeAll_cons]
    by_cases later : ∃ i ∈ l, addr i = a
    · exact ih later fun i hi => one i (List.mem_cons_of_mem _ hi)
    -- no later write hits the address, so the head's value stays
    · rw [writeAll_of_ne fun i hi e => later ⟨i, hi, e⟩]
      obtain ⟨i, hi, e⟩ := mem
      cases hi with
      | head =>
        rw [← e, Function.update_self]
        exact one j (List.mem_cons_self ..) e
      | tail _ hi => exact absurd ⟨i, hi, e⟩ later

/-- The little-endian 32-bit word at `a`. -/
def u32At (m : Nat → UInt8) (a : Nat) : UInt32 :=
  UInt32.ofNat ((m a).toNat + (m (a + 1)).toNat * 2 ^ 8 + (m (a + 2)).toNat * 2 ^ 16 +
    (m (a + 3)).toNat * 2 ^ 24)

end Memory
