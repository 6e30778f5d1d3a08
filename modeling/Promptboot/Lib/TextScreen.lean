import Mathlib.Logic.Function.Basic
import Mathlib.Tactic.Common
import Mathlib.Algebra.Group.Int.Defs
import Mathlib.Algebra.Group.Nat.Defs

/-!
# Text screens

A screen of cells under a cursor: a unit is written where the cursor stands, and a line feed in the
last row moves all rows up by one. `write_row`, `write_newline_down` and `write_newline_scroll` say
what a text within a row and a new line do.

A firmware's console is only known by its interface. `TextOutput` is the interface over any state,
`TextOutput.view` the screen that a state shows, and `TextOutput.Documented` the rules that the
firmware's documentation has for each call. From them a console shows what a text screen does
(`Documented.write`), and a text screen is itself such a console (`TextScreen.documented`).
-/

/-- A unit and the attribute that it is shown with. -/
structure TextCell where
  unit : UInt16
  attr : Nat
  deriving DecidableEq

structure TextScreen where
  columns : Nat
  rows : Nat
  /-- by row and column -/
  cells : Nat → Nat → TextCell
  column : Nat
  row : Nat
  attr : Nat

namespace TextScreen

/-- A space as the screen writes it now. -/
def blank (s : TextScreen) : TextCell := ⟨0x0020, s.attr⟩

def feed (s : TextScreen) : TextScreen :=
  if s.row + 1 < s.rows then
    { s with row := s.row + 1 }
  else
    { s with cells := fun row => if row + 1 < s.rows then s.cells (row + 1) else fun _ => s.blank }

def put (s : TextScreen) (unit : UInt16) : TextScreen :=
  let row := Function.update (s.cells s.row) s.column ⟨unit, s.attr⟩
  let written := { s with cells := Function.update s.cells s.row row }
  if s.column + 1 < s.columns then
    { written with column := s.column + 1 }
  else
    feed { written with column := 0 }

def unit (s : TextScreen) (unit : UInt16) : TextScreen :=
  if unit = 0x0008 then
    { s with column := s.column - 1 }
  else if unit = 0x000d then
    { s with column := 0 }
  else if unit = 0x000a then
    s.feed
  else
    s.put unit

def write (s : TextScreen) (units : List UInt16) : TextScreen := units.foldl unit s

/-- All cells blank, and the cursor in the first. -/
def clear (s : TextScreen) : TextScreen :=
  { s with cells := fun _ _ => s.blank, column := 0, row := 0 }

def moveTo (s : TextScreen) (column row : Nat) : TextScreen := { s with column, row }

def setAttribute (s : TextScreen) (attr : Nat) : TextScreen := { s with attr }

/-- A unit that takes a cell. -/
def Plain (unit : UInt16) : Prop := unit ≠ 0x0008 ∧ unit ≠ 0x000d ∧ unit ≠ 0x000a

variable {s : TextScreen} {units : List UInt16}

/-- Writing two texts is writing one behind the other. -/
lemma write_append (s : TextScreen) (units more : List UInt16) :
    s.write (units ++ more) = (s.write units).write more := List.foldl_append

/-- A unit leaves the number of rows. -/
@[simp] lemma rows_unit (s : TextScreen) (u : UInt16) : (s.unit u).rows = s.rows := by
  have feeds (s : TextScreen) : s.feed.rows = s.rows := by
    rw [feed]
    split <;> rfl
  rw [unit]
  split_ifs
  · rfl
  · rfl
  · exact feeds s
  · rw [put]
    dsimp only
    split
    · rfl
    · exact feeds _

/-- A text leaves the number of rows. -/
@[simp] lemma rows_write (s : TextScreen) (units : List UInt16) : (s.write units).rows = s.rows := by
  induction units generalizing s with
  | nil => rfl
  | cons u units ih => exact (ih (s.unit u)).trans (rows_unit s u)

/-- A printed unit is put at the cursor. -/
lemma unit_plain {u : UInt16} (plain : Plain u) : s.unit u = s.put u := by
  rw [unit, if_neg plain.1, if_neg plain.2.1, if_neg plain.2.2]

/-- Before the right edge the cursor moves on in its row. -/
lemma put_inside {u : UInt16} (inside : s.column + 1 < s.columns) :
    s.put u = { s with
      cells := Function.update s.cells s.row
        (Function.update (s.cells s.row) s.column ⟨u, s.attr⟩)
      column := s.column + 1 } := by
  rw [put]
  exact if_pos inside

/-- A row with units written into it from a column on. -/
def written (row : Nat → TextCell) (column attr : Nat) (units : List UInt16) : Nat → TextCell :=
  fun c => if column ≤ c ∧ c < column + units.length then
    ⟨units.getD (c - column) 0x0020, attr⟩ else row c

/-- No unit leaves the row. -/
lemma written_nil (row : Nat → TextCell) (column attr : Nat) :
    written row column attr [] = row := by
  funext c
  exact if_neg fun inside => Nat.not_lt.mpr inside.1 inside.2

/-- The units go into their cells from the first on. -/
lemma written_cons (row : Nat → TextCell) (column attr : Nat) (u : UInt16) :
    written row column attr (u :: units) =
      written (Function.update row column ⟨u, attr⟩) (column + 1) attr units := by
  funext c
  unfold written
  rw [List.length_cons]
  by_cases here : c = column
  · subst here
    rw [if_pos (by omega), if_neg (by omega), Function.update_self, Nat.sub_self]
    rfl
  · rw [Function.update_of_ne here]
    by_cases inside : column + 1 ≤ c ∧ c < column + 1 + units.length
    · have next : c - column = c - (column + 1) + 1 := by omega
      rw [if_pos (by omega), if_pos inside, next]
      rfl
    · rw [if_neg (by omega), if_neg inside]

/-- A text within its row is written cell by cell, and nothing else changes. -/
lemma write_row (plain : ∀ u ∈ units, Plain u) (fits : s.column + units.length < s.columns) :
    s.write units = { s with
      cells := Function.update s.cells s.row
        (written (s.cells s.row) s.column s.attr units)
      column := s.column + units.length } := by
  induction units generalizing s with
  | nil =>
    rw [written_nil, Function.update_eq_self]
    rfl
  | cons u units ih =>
    obtain ⟨first, rest⟩ := List.forall_mem_cons.1 plain
    rw [List.length_cons] at fits
    have step : s.write (u :: units) = (s.unit u).write units := rfl
    rw [step, unit_plain first, put_inside (by omega), ih rest (by dsimp only; omega)]
    dsimp only
    rw [Function.update_self, Function.update_idem, ← written_cons, List.length_cons]
    congr 1
    omega

/-- A new line within the screen. -/
lemma write_newline_down (inside : s.row + 1 < s.rows) :
    s.write [0x000d, 0x000a] = { s with column := 0, row := s.row + 1 } := by
  have feeds : s.write [0x000d, 0x000a] = feed { s with column := 0 } := rfl
  rw [feeds, feed]
  exact if_pos inside

/-- A new line in the last row. -/
lemma write_newline_scroll (last : ¬s.row + 1 < s.rows) :
    s.write [0x000d, 0x000a] = { s with
      cells := fun row => if row + 1 < s.rows then s.cells (row + 1) else fun _ => s.blank
      column := 0 } := by
  have feeds : s.write [0x000d, 0x000a] = feed { s with column := 0 } := rfl
  rw [feeds, feed]
  exact if_neg last

end TextScreen

/-- A console by its interface: the numbers of its mode, the cells that it shows, and what its calls
do when they succeed. -/
structure TextOutput (σ : Type) where
  columns : σ → Nat
  rows : σ → Nat
  column : σ → Nat
  row : σ → Nat
  attr : σ → Nat
  cells : σ → Nat → Nat → TextCell
  clear : σ → σ
  moveTo : Nat → Nat → σ → σ
  setAttribute : Nat → σ → σ
  enableCursor : σ → σ
  write : List UInt16 → σ → σ

namespace TextOutput
variable {σ : Type} {console : TextOutput σ}

/-- What a console shows. -/
def view (console : TextOutput σ) (s : σ) : TextScreen where
  columns := console.columns s
  rows := console.rows s
  cells := console.cells s
  column := console.column s
  row := console.row s
  attr := console.attr s

/-- The rules of the documentation. A text is written unit by unit, up to the zero that ends it: a
backspace moves the cursor left unless it is at the left edge, a carriage return to the left edge, a
line feed down or, at the bottom, scrolls; another unit is printed in the cell of the cursor, which
moves right and, past the right edge, to the next line. -/
structure Documented (console : TextOutput σ) : Prop where
  clear : ∀ s, console.view (console.clear s) = (console.view s).clear
  moveTo : ∀ s column row, console.view (console.moveTo column row s) =
    (console.view s).moveTo column row
  setAttribute : ∀ s attr, console.view (console.setAttribute attr s) =
    (console.view s).setAttribute attr
  enableCursor : ∀ s, console.view (console.enableCursor s) = console.view s
  nothing : ∀ s, console.view (console.write [] s) = console.view s
  units : ∀ s unit units, 0 ∉ unit :: units → console.view (console.write (unit :: units) s) =
    console.view (console.write units (console.write [unit] s))
  backspace : ∀ s, console.view (console.write [0x0008] s) =
    { console.view s with column := console.column s - 1 }
  carriageReturn : ∀ s, console.view (console.write [0x000d] s) =
    { console.view s with column := 0 }
  lineFeed : ∀ s, console.view (console.write [0x000a] s) = (console.view s).feed
  other : ∀ s unit, TextScreen.Plain unit → unit ≠ 0 →
    console.view (console.write [unit] s) = (console.view s).put unit

/-- A documented console treats a unit as the screen does. -/
lemma Documented.unit (documented : console.Documented) (s : σ) {unit : UInt16} (some : unit ≠ 0) :
    console.view (console.write [unit] s) = (console.view s).unit unit := by
  by_cases backspace : unit = 0x0008
  · rw [backspace]
    exact documented.backspace s
  by_cases carriage : unit = 0x000d
  · rw [carriage]
    exact documented.carriageReturn s
  by_cases feed : unit = 0x000a
  · rw [feed]
    exact documented.lineFeed s
  have plain : TextScreen.Plain unit := ⟨backspace, carriage, feed⟩
  rw [documented.other s unit plain some, TextScreen.unit_plain plain]

/-- A text on the console is the text on the screen that it shows. -/
lemma Documented.write (documented : console.Documented) (s : σ) {units : List UInt16}
    (whole : 0 ∉ units) :
    console.view (console.write units s) = (console.view s).write units := by
  induction units generalizing s with
  | nil => exact documented.nothing s
  | cons unit units ih =>
    have some : unit ≠ 0 := fun zero => whole (zero ▸ List.mem_cons_self)
    rw [documented.units s unit units whole, ih _ fun mem => whole (List.mem_cons_of_mem _ mem),
      documented.unit s some]
    rfl

end TextOutput

namespace TextScreen

/-- A text screen as a console. -/
def console : TextOutput TextScreen where
  columns := columns
  rows := rows
  column := column
  row := row
  attr := attr
  cells := cells
  clear := clear
  moveTo column row s := s.moveTo column row
  setAttribute attr s := s.setAttribute attr
  enableCursor := id
  write units s := s.write units

/-- The screen's own console is documented. -/
lemma documented : console.Documented where
  clear _ := rfl
  moveTo _ _ _ := rfl
  setAttribute _ _ := rfl
  enableCursor _ := rfl
  nothing _ := rfl
  units _ _ _ _ := rfl
  backspace _ := rfl
  carriageReturn _ := rfl
  lineFeed _ := rfl
  other _ _ plain _ := unit_plain plain

end TextScreen
