import Promptboot.Lib.Fallible

/-!
# Stopping with a message or by a panic

The tools report errors as messages. A step that would panic (an unchecked sum out of range, an
index past the end, an `unwrap` of nothing) stops with `fault`, so that running without a panic is
a statement.

`require_eq_ok` and `checkedAdd_eq_ok` read a success back, `require_bind` and
`noFault_require_bind` are the rules for a check with what follows it. `NoFault` is kept by every
construct, so that it goes through a program by its shape.
-/

namespace Promptboot

inductive Stop where
  | error (message : String)
  | fault

def fileError {σ α : Type} (message : String) : Fallible σ Stop α := .fail (.error message)

/-- Stops with a message unless `holds`. -/
def require {σ : Type} (holds : Bool) (message : String) : Fallible σ Stop Unit :=
  if holds then pure () else fileError message

/-- `checked_add` with its error. -/
def checkedAdd {σ : Type} (a b : Nat) (message : String) : Fallible σ Stop Nat :=
  if a + b < 2 ^ 64 then pure (a + b) else fileError message

/-- `checked_mul` with its error. -/
def checkedMul {σ : Type} (a b : Nat) (message : String) : Fallible σ Stop Nat :=
  if a * b < 2 ^ 64 then pure (a * b) else fileError message

section Steps
variable {σ α β : Type} {p q : σ}

/-- What passes a requirement holds. -/
lemma require_eq_ok {holds : Bool} {message : String} {u : Unit}
    (h : require holds message p = (.ok u, q)) : holds = true ∧ q = p := by
  rw [require] at h
  cases holds with
  | false => cases h
  | true =>
    cases h
    exact ⟨rfl, rfl⟩

/-- A condition that holds passes. -/
lemma require_true {message : String} : require true message p = (.ok (), p) := rfl

/-- Behind a requirement that held the state is the same. -/
lemma require_bind_eq_ok {holds : Bool} {message : String} {f : Unit → Fallible σ Stop β} {b : β}
    (h : (require holds message >>= f) p = (.ok b, q)) :
    holds = true ∧ f () p = (.ok b, q) := by
  obtain ⟨_, r, checked, rest⟩ := Fallible.bind_eq_ok h
  obtain ⟨held, rfl⟩ := require_eq_ok checked
  exact ⟨held, rest⟩

/-- Behind a requirement that holds comes the rest. -/
lemma require_bind {holds : Bool} {message : String} {f : Unit → Fallible σ Stop β}
    (held : holds = true) :
    (require holds message >>= f) p = f () p := by
  rw [held]
  exact Fallible.bind_ok require_true

/-- A sum that was taken fits. -/
lemma checkedAdd_eq_ok {a b c : Nat} {message : String}
    (h : checkedAdd a b message p = (.ok c, q)) : a + b < 2 ^ 64 ∧ c = a + b ∧ q = p := by
  rw [checkedAdd] at h
  split at h
  case isTrue fits =>
    cases h
    exact ⟨fits, rfl, rfl⟩
  case isFalse _ => cases h

/-- A sum that fits is taken. -/
lemma checkedAdd_ok {a b : Nat} {message : String} (fits : a + b < 2 ^ 64) :
    checkedAdd a b message p = (.ok (a + b), p) := by
  rw [checkedAdd, if_pos fits]
  rfl

/-- A product that was taken fits. -/
lemma checkedMul_eq_ok {a b c : Nat} {message : String}
    (h : checkedMul a b message p = (.ok c, q)) : a * b < 2 ^ 64 ∧ c = a * b ∧ q = p := by
  rw [checkedMul] at h
  split at h
  case isTrue fits =>
    cases h
    exact ⟨fits, rfl, rfl⟩
  case isFalse _ => cases h

/-- A product that fits is taken. -/
lemma checkedMul_ok {a b : Nat} {message : String} (fits : a * b < 2 ^ 64) :
    checkedMul a b message p = (.ok (a * b), p) := by
  rw [checkedMul, if_pos fits]
  rfl

end Steps

section NoFault
variable {σ α β : Type}

/-- A computation that cannot panic. -/
abbrev NoFault (c : Fallible σ Stop α) : Prop := Fallible.Keeps (fun _ => True) (fun e => e ≠ Stop.fault) c

/-- A value alone does not fault. -/
lemma noFault_pure {a : α} : NoFault (pure a : Fallible σ Stop α) := .pure

/-- An error is no fault. -/
lemma noFault_fileError {message : String} : NoFault (fileError message : Fallible σ Stop α) := by
  intro p _
  refine ⟨trivial, ?_⟩
  rintro e ⟨⟩
  exact Stop.noConfusion

/-- A requirement does not fault. -/
lemma noFault_require {holds : Bool} {message : String} : NoFault (require holds message : Fallible σ Stop Unit) := by
  cases holds with
  | false => exact noFault_fileError
  | true => exact noFault_pure

/-- What is behind a requirement may rely on it. -/
lemma noFault_require_bind {holds : Bool} {message : String} {f : Unit → Fallible σ Stop β}
    (h : holds = true → NoFault (f ())) : NoFault (require holds message >>= f) := by
  cases held : holds with
  | false =>
    intro p _
    refine ⟨trivial, ?_⟩
    rintro e ⟨⟩
    exact Stop.noConfusion
  | true =>
    intro p _
    rw [require_bind rfl]
    exact h held p trivial

/-- A checked sum does not fault. -/
lemma noFault_checkedAdd {a b : Nat} {message : String} : NoFault (checkedAdd a b message : Fallible σ Stop Nat) := by
  rw [checkedAdd]
  split
  · exact noFault_pure
  · exact noFault_fileError

/-- A checked product does not fault. -/
lemma noFault_checkedMul {a b : Nat} {message : String} : NoFault (checkedMul a b message : Fallible σ Stop Nat) := by
  rw [checkedMul]
  split
  · exact noFault_pure
  · exact noFault_fileError

end NoFault

end Promptboot
