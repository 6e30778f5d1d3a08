import Mathlib.Data.List.Basic

/-!
# Terminated lines

A list cut at a separator, when every piece ends with one: the pieces and the list give each other
back.

The headlines are `splitOn_terminated` and `terminated_splitOn`, the two directions; the helpers
follow the last piece, the one that the separator has to end.
-/

namespace Lines

variable {α : Type} {x : α} {pieces : List (List α)} {text : List α}

/-- The pieces, each with its separator behind it. -/
def terminated (x : α) (pieces : List (List α)) : List α := (pieces.map (· ++ [x])).flatten

/-- Terminated pieces are the separated ones and a terminator. -/
lemma terminated_eq (some : pieces ≠ []) :
    terminated x pieces = [x].intercalate pieces ++ [x] := by
  induction pieces with
  | nil => exact absurd rfl some
  | cons piece rest ih =>
    cases rest with
    | nil => simp [terminated]
    | cons next rest =>
      have tail := ih (List.cons_ne_nil _ _)
      rw [terminated, List.map_cons, List.flatten_cons, ← terminated, tail]
      simp

/-- Terminated pieces end with the terminator. -/
lemma getLast?_terminated (some : pieces ≠ []) :
    (terminated x pieces).getLast? = .some x := by
  rw [terminated_eq some, List.getLast?_append]
  rfl

/-- Without the last terminator the pieces are separated. -/
lemma dropLast_terminated (some : pieces ≠ []) :
    (terminated x pieces).dropLast = [x].intercalate pieces := by
  rw [terminated_eq some, List.dropLast_concat]

variable [BEq α] [LawfulBEq α]

/-- Pieces without a separator are what the cut gives back. -/
theorem splitOn_terminated (some : pieces ≠ []) (clean : ∀ piece ∈ pieces, x ∉ piece) :
    (terminated x pieces).dropLast.splitOn x = pieces := by
  rw [dropLast_terminated some, List.splitOn_intercalate x clean some]

/-- Behind the last separator the cut finds an empty piece. -/
lemma splitOn_terminated_all (clean : ∀ piece ∈ pieces, x ∉ piece) :
    (terminated x pieces).splitOn x = pieces ++ [[]] := by
  have joined : terminated x pieces = [x].intercalate (pieces ++ [[]]) := by
    induction pieces with
    | nil => rfl
    | cons piece rest ih =>
      rw [terminated, List.map_cons, List.flatten_cons, ← terminated,
        ih fun piece mem => clean piece (List.mem_cons_of_mem _ mem), List.cons_append,
        List.intercalate_cons_of_ne_nil (List.append_ne_nil_of_right_ne_nil _ (List.cons_ne_nil _ _))]
  rw [joined, List.splitOn_intercalate x _ (List.append_ne_nil_of_right_ne_nil _ (List.cons_ne_nil _ _))]
  intro piece mem
  rcases List.mem_append.mp mem with mem | mem
  · exact clean piece mem
  · rw [List.mem_singleton.mp mem]
    exact List.not_mem_nil

/-- A list that ends with the separator is its pieces. -/
theorem terminated_splitOn (ends : text.getLast? = .some x) :
    terminated x (text.dropLast.splitOn x) = text := by
  rw [terminated_eq (List.splitOn_ne_nil _ _), List.intercalate_splitOn]
  obtain ⟨front, rfl⟩ := List.getLast?_eq_some_iff.mp ends
  rw [List.dropLast_concat]

end Lines
