import Mathlib.Logic.Relation
import Mathlib.Data.List.Basic
import Mathlib.Order.Defs.LinearOrder
import Mathlib.Tactic.Common
import Mathlib.Order.Lattice

/-!
# Byte-pair encoding

A rule map gives some pairs of adjacent tokens a result and a rank. A step replaces the leftmost
occurrence of the pair of lowest rank by its result; an encoding is what no step applies to any
more. With distinct ranks there is one.

The helper `PairAt.unique` says that the rank tells the pair, `Step.unique` that a step has one
result, and the headline `Encodes.unique` is the induction on the length of the derivation. `Spells`
is the invariant of what the tokens stand for, and `Spells.mergeAt` its step.
-/

namespace BytePair

variable {τ κ : Type} [LinearOrder κ]

/-- A map of pairs to results and ranks, no rank given twice. -/
structure Rules (τ κ : Type) where
  rule : τ → τ → Option (τ × κ)
  rank_injective : ∀ {l r a l' r' a' k}, rule l r = some (a, k) → rule l' r' = some (a', k) →
    l = l' ∧ r = r'

/-- The pair `l`, `r` stands at `i`. -/
def PairAt (tokens : List τ) (i : Nat) (l r : τ) : Prop :=
  tokens[i]? = some l ∧ tokens[i + 1]? = some r

/-- The tokens with those at `i` and behind it replaced by one. -/
def mergeAt (tokens : List τ) (i : Nat) (a : τ) : List τ := (tokens.set i a).eraseIdx (i + 1)

/-- The leftmost occurrence of the pair of lowest rank is replaced by its result. -/
inductive Step (M : Rules τ κ) : List τ → List τ → Prop where
  | merge {tokens i l r a k} :
    PairAt tokens i l r →
    M.rule l r = some (a, k) →
    (∀ {j l' r' a' k'}, PairAt tokens j l' r' → M.rule l' r' = some (a', k') → k ≤ k') →
    (∀ j < i, ¬PairAt tokens j l r) →
    Step M tokens (mergeAt tokens i a)

/-- No adjacent pair has a rule. -/
def Irreducible (M : Rules τ κ) (tokens : List τ) : Prop :=
  ∀ i l r, PairAt tokens i l r → M.rule l r = none

/-- The reference procedure turns `tokens` into `result`. -/
def Encodes (M : Rules τ κ) (tokens result : List τ) : Prop :=
  Relation.ReflTransGen (Step M) tokens result ∧ Irreducible M result

variable {M : Rules τ κ} {tokens : List τ}

/-- There is one pair at an index. -/
lemma PairAt.unique {i : Nat} {l r l' r' : τ} (h : PairAt tokens i l r)
    (h' : PairAt tokens i l' r') : l = l' ∧ r = r' :=
  ⟨Option.some.inj (h.1.symm.trans h'.1), Option.some.inj (h.2.symm.trans h'.2)⟩

/-- A step is determined by what it starts from. -/
lemma Step.unique {result result' : List τ} (h : Step M tokens result)
    (h' : Step M tokens result') : result = result' := by
  cases h with
  | @merge i l r a k pair rule low left =>
    cases h' with
    | @merge i' l' r' a' k' pair' rule' low' left' =>
      have rank : k = k' := le_antisymm (low pair' rule') (low' pair rule)
      subst rank
      obtain ⟨rfl, rfl⟩ := M.rank_injective rule rule'
      have place : i = i' := by
        rcases Nat.lt_trichotomy i i' with lt | eq | gt
        · exact absurd pair (left' i lt)
        · exact eq
        · exact absurd pair' (left i' gt)
      subst place
      rw [rule] at rule'
      cases rule'
      rfl

/-- Tokens that each stand for a text, and the text they make together. -/
inductive Spells {β : Type} (S : τ → List β → Prop) : List τ → List β → Prop where
  | nil : Spells S [] []
  | cons {t x tokens text} : S t x → Spells S tokens text → Spells S (t :: tokens) (x ++ text)

/-- The spellings of two lists, one behind the other. -/
lemma Spells.append {β : Type} {S : τ → List β → Prop} {tokens tokens' : List τ}
    {text text' : List β} (h : Spells S tokens text) (h' : Spells S tokens' text') :
    Spells S (tokens ++ tokens') (text ++ text') := by
  induction h with
  | nil => exact h'
  | cons head _ ih =>
    rw [List.append_assoc]
    exact .cons head ih

/-- A spelling stays one when more is a spelling of a token. -/
lemma Spells.mono {β : Type} {S S' : τ → List β → Prop} {text : List β}
    (h : Spells S tokens text) (le : ∀ t x, S t x → S' t x) : Spells S' tokens text := by
  induction h with
  | nil => exact .nil
  | cons head _ ih => exact .cons (le _ _ head) ih

/-- A merge into a token that stands for what the pair stands for keeps the text. -/
lemma Spells.mergeAt {β : Type} {S : τ → List β → Prop} {text : List β} {i : Nat} {l r a : τ}
    (h : Spells S tokens text) (pair : PairAt tokens i l r)
    (merged : ∀ x y, S l x → S r y → S a (x ++ y)) : Spells S (mergeAt tokens i a) text := by
  induction h generalizing i with
  | nil => cases pair.1
  | @cons t x tokens text head rest ih =>
    cases i with
    | zero =>
      cases pair.1
      cases rest with
      | nil => cases pair.2
      | @cons t' y tokens text second rest =>
        cases pair.2
        rw [← List.append_assoc]
        exact .cons (merged x y head second) rest
    | succ i => exact .cons head (ih pair)

/-- No merge applies to an irreducible list. -/
lemma Irreducible.no_step {result : List τ} (h : Irreducible M tokens) : ¬Step M tokens result := by
  rintro ⟨pair, rule, -, -⟩
  rw [h _ _ _ pair] at rule
  cases rule

/-- There is one encoding at most. -/
lemma Encodes.unique {result result' : List τ} (h : Encodes M tokens result)
    (h' : Encodes M tokens result') : result = result' := by
  obtain ⟨run, final⟩ := h
  induction run using Relation.ReflTransGen.head_induction_on with
  | refl =>
    cases h'.1.cases_head with
    | inl eq => exact eq
    | inr step =>
      obtain ⟨_, step, _⟩ := step
      exact absurd step final.no_step
  | head step _ ih =>
    cases h'.1.cases_head with
    | inl eq =>
      subst eq
      exact absurd step h'.2.no_step
    | inr step' =>
      obtain ⟨middle, step', rest⟩ := step'
      rw [step'.unique step] at rest
      exact ih ⟨rest, h'.2⟩

end BytePair
