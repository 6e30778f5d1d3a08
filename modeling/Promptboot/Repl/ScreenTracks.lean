import Promptboot.Repl.ScreenCalls

/-!
# The screen follows the terminal

Below its status row the screen shows the last lines of the terminal. A unit changes both in the
same way: the cell of the cursor changes, or the lines move on, and the screen scrolls when the
terminal has more lines than there are rows.

`Tracks` is the invariant and `Tracks.unit` its step, from `Tracks.put` for a cell and
`Tracks.newline` for a new line. The headline `Tracks.run` is the induction over a text.
-/

namespace Promptboot
open TextScreen (Plain console)

namespace Terminal

/-- The unit of a line by its distance from the bottom. -/
def unitAt (t : Terminal) (distance column : Nat) : UInt16 :=
  t.lines[distance]?.elim 0x0020 fun line => line.units.getD column 0x0020

/-- The unit in a row of a window whose row `bottom` is so far from the bottom. -/
def window (t : Terminal) (offset bottom row column : Nat) : UInt16 :=
  if row ≤ bottom then t.unitAt (offset + (bottom - row)) column else 0x0020

/-- A new line moves the others up by one. -/
lemma unitAt_advance (t : Terminal) (hardBreak : Bool) (distance column : Nat) :
    (t.advance hardBreak).unitAt distance column =
      if distance = 0 then 0x0020 else t.unitAt (distance - 1) column := by
  match distance with
  | 0 | 1 | _ + 2 => rfl

end Terminal

/-- The screen shows the lines of the terminal below its first row, and has its cursor. -/
structure Tracks (base : Nat) (t : Terminal) (s : TextScreen) : Prop where
  width : t.width < s.columns
  rows : 2 ≤ s.rows
  attr : s.attr = base
  column : s.column = t.column
  row : s.row = min t.past.length (s.rows - 2) + 1
  content : ∀ row < s.rows - 1, ∀ column < t.width, s.cells (row + 1) column =
    ⟨t.window 0 (min t.past.length (s.rows - 2)) row column, base⟩

namespace Tracks
variable {base : Nat} {t : Terminal} {s : TextScreen} {h : ConsoleHistory}

/-- The cursor moves within its row. -/
lemma move (tracks : Tracks base t s) (column : Nat) :
    Tracks base { t with column } { s with column } where
  width := tracks.width
  rows := tracks.rows
  attr := tracks.attr
  column := rfl
  row := tracks.row
  content := tracks.content

/-- A unit replaces its cell only. -/
lemma unitAt_put (shows : Shows h t) (unit : UInt16) (distance column : Nat) :
    (t.put unit).unitAt distance column =
      if distance = 0 ∧ column = t.column then unit else t.unitAt distance column := by
  cases distance with
  | zero =>
    show (t.put unit).current.getD column 0x0020 = if _ then unit else t.current.getD column 0x0020
    rw [List.getD_eq_getElem?_getD, List.getD_eq_getElem?_getD, shows.getElem?_put]
    by_cases here : column = t.column
    · rw [if_pos here, if_pos ⟨rfl, here⟩]
      rfl
    · rw [if_neg here, if_neg fun both => here both.2]
  | succ distance =>
    rw [if_neg fun both => Nat.succ_ne_zero _ both.1]
    rfl

/-- A plain unit changes the cell of the cursor. -/
lemma put (tracks : Tracks base t s) (shows : Shows h t) {unit : UInt16} (plain : Plain unit) :
    Tracks base (t.put unit) (s.write [unit]) ∧ (s.write [unit]).cells 0 = s.cells 0 := by
  have within : t.column < t.width := shows.width ▸ shows.column ▸ shows.within
  have room := tracks.width
  have wrote : s.write [unit] = { s with
      cells := Function.update s.cells s.row
        (Function.update (s.cells s.row) s.column ⟨unit, s.attr⟩)
      column := s.column + 1 } := by
    show s.unit unit = _
    rw [TextScreen.unit_plain plain, TextScreen.put_inside]
    rw [tracks.column]
    omega
  have row := tracks.row
  rw [wrote]
  constructor
  · constructor
    case width => exact room
    case rows => exact tracks.rows
    case attr => exact tracks.attr
    case column => exact congrArg (· + 1) tracks.column
    case row => exact row
    case content =>
      intro r low c inside
      have old := tracks.content r low c inside
      have same : (t.put unit).past = t.past := rfl
      dsimp only
      rw [same, Terminal.window, unitAt_put shows]
      by_cases here : r = min t.past.length (s.rows - 2)
      · rw [row, ← here, Function.update_self, if_pos (Nat.le_refl r), Nat.sub_self, Nat.zero_add]
        rw [← here, Terminal.window, if_pos (Nat.le_refl r), Nat.sub_self, Nat.zero_add] at old
        by_cases cell : c = t.column
        · rw [cell, tracks.column, Function.update_self, if_pos ⟨rfl, rfl⟩, tracks.attr]
        · rw [tracks.column, Function.update_of_ne cell, if_neg fun both => cell both.2, old]
      · rw [row, Function.update_of_ne (by omega), old, Terminal.window]
        by_cases live : r ≤ min t.past.length (s.rows - 2)
        · rw [if_pos live, if_pos live, if_neg fun both => here (by omega)]
        · rw [if_neg live, if_neg live]
  · dsimp only
    rw [row, Function.update_of_ne (Nat.succ_ne_zero _).symm]

/-- A new line moves the lines on; the screen scrolls when it is full. -/
lemma newline (tracks : Tracks base t s) (hardBreak : Bool) :
    Tracks base (t.advance hardBreak) (s.write [0x000d, 0x000a]) ∧
      (t.past.length < s.rows - 2 → (s.write [0x000d, 0x000a]).cells 0 = s.cells 0) := by
  have row := tracks.row
  have rows := tracks.rows
  have past : (t.advance hardBreak).past.length = t.past.length + 1 := rfl
  -- while rows are free the cursor goes down, and then the screen scrolls
  by_cases free : t.past.length < s.rows - 2
  · rw [TextScreen.write_newline_down (by omega)]
    refine ⟨⟨tracks.width, rows, tracks.attr, rfl, ?_, ?_⟩, fun _ => rfl⟩
    · dsimp only
      rw [past]
      omega
    · intro r low c inside
      dsimp only at low ⊢
      rw [tracks.content r low c inside, past, Terminal.window, Terminal.window,
        Terminal.unitAt_advance]
      by_cases live : r ≤ min t.past.length (s.rows - 2)
      · have moved : 0 + (min (t.past.length + 1) (s.rows - 2) - r) - 1 =
            0 + (min t.past.length (s.rows - 2) - r) := by omega
        rw [if_pos live, if_pos (by omega), if_neg (by omega), moved]
      · rw [if_neg live]
        by_cases bottom : r ≤ min (t.past.length + 1) (s.rows - 2)
        · rw [if_pos bottom, if_pos (by omega)]
        · rw [if_neg bottom]
  · rw [TextScreen.write_newline_scroll (by omega)]
    refine ⟨⟨tracks.width, rows, tracks.attr, rfl, ?_, ?_⟩, fun more => absurd more free⟩
    · dsimp only
      rw [past]
      omega
    · intro r low c inside
      dsimp only at low ⊢
      have shown : r ≤ min (t.past.length + 1) (s.rows - 2) := by omega
      rw [past, Terminal.window, if_pos shown, Terminal.unitAt_advance]
      by_cases last : r + 1 + 1 < s.rows
      · have moved : 0 + (min (t.past.length + 1) (s.rows - 2) - r) - 1 =
            0 + (min t.past.length (s.rows - 2) - (r + 1)) := by omega
        have above : r + 1 ≤ min t.past.length (s.rows - 2) := by omega
        have more : 0 + (min (t.past.length + 1) (s.rows - 2) - r) ≠ 0 := by omega
        rw [if_pos last, tracks.content (r + 1) (by omega) c inside, Terminal.window,
          if_pos above, if_neg more, moved]
      · have bottom : 0 + (min (t.past.length + 1) (s.rows - 2) - r) = 0 := by omega
        rw [if_neg last, if_pos bottom, TextScreen.blank, tracks.attr]

/-- A unit, as it is sent. -/
lemma unit (tracks : Tracks base t s) (shows : Shows h t) (unit : UInt16)
    (returned : unit = lineFeed → t.column = 0) :
    Tracks base (t.writeUnit unit) (s.write (wrapUnit t.width t.column unit)) ∧
      nextColumn t.width t.column unit = (t.writeUnit unit).column ∧
      ((t.writeUnit unit).past.length = t.past.length ∨
          (t.writeUnit unit).past.length ≤ s.rows - 2 →
        (s.write (wrapUnit t.width t.column unit)).cells 0 = s.cells 0) := by
  have column := tracks.column
  by_cases backspace : unit = 0x0008
  · subst backspace
    have sent : wrapUnit t.width t.column 0x0008 = [0x0008] := rfl
    have wrote : s.write [0x0008] = { s with column := s.column - 1 } := rfl
    rw [sent, wrote, column]
    exact ⟨tracks.move _, rfl, fun _ => rfl⟩
  by_cases carriage : unit = 0x000d
  · subst carriage
    have sent : wrapUnit t.width t.column 0x000d = [0x000d] := rfl
    have wrote : s.write [0x000d] = { s with column := 0 } := rfl
    rw [sent, wrote]
    exact ⟨tracks.move _, rfl, fun _ => rfl⟩
  by_cases feed : unit = 0x000a
  · subst feed
    have zero := returned rfl
    have sent : wrapUnit t.width t.column 0x000a = [0x000a] := rfl
    -- in the first column a line feed is a new line
    have wrote : s.write [0x000a] = s.write [0x000d, 0x000a] := by
      show s.feed = TextScreen.feed { s with column := 0 }
      rw [← zero, ← column]
    have advanced : t.writeUnit 0x000a = t.advance true := rfl
    have more : (t.advance true).past.length = t.past.length + 1 := rfl
    have next : nextColumn t.width t.column 0x000a = t.column := rfl
    obtain ⟨moved, kept⟩ := tracks.newline true
    rw [sent, wrote, advanced, more, next, zero]
    exact ⟨moved, rfl, fun calm => kept (by omega)⟩
  have plain : Plain unit := ⟨backspace, carriage, feed⟩
  obtain ⟨wrote, kept⟩ := tracks.put shows plain
  by_cases ends : t.column + 1 = t.width
  · have fills : fillsRow t.width t.column unit = true :=
      decide_eq_true ⟨backspace, carriage, feed, ends⟩
    have written : t.writeUnit unit = (t.put unit).advance false := by
      rw [Terminal.writeUnit, if_neg backspace, if_neg carriage, if_neg feed, if_pos ends]
    have next : nextColumn t.width t.column unit = 0 := by
      rw [nextColumn, if_neg backspace, if_neg carriage, if_neg feed, if_pos ends]
    obtain ⟨moved, kept'⟩ := wrote.newline false
    have sent : s.write (wrapUnit t.width t.column unit) =
        (s.write [unit]).write [0x000d, 0x000a] := by
      rw [← TextScreen.write_append, wrapUnit, fills]
      rfl
    have more : ((t.put unit).advance false).past.length = t.past.length + 1 := rfl
    rw [written, sent, next, more]
    refine ⟨moved, rfl, fun calm => (kept' ?_).trans kept⟩
    rw [TextScreen.rows_write]
    show t.past.length < s.rows - 2
    omega
  · have stays : fillsRow t.width t.column unit = false :=
      decide_eq_false fun fills => ends fills.2.2.2
    have written : t.writeUnit unit = t.put unit := by
      rw [Terminal.writeUnit, if_neg backspace, if_neg carriage, if_neg feed, if_neg ends]
    have next : nextColumn t.width t.column unit = t.column + 1 := by
      rw [nextColumn, if_neg backspace, if_neg carriage, if_neg feed, if_neg ends]
    have sent : wrapUnit t.width t.column unit = [unit] := by
      rw [wrapUnit, stays]
      rfl
    rw [written, sent, next]
    exact ⟨wrote, rfl, fun _ => kept⟩

/-- A unit puts at most one line into the past. -/
lemma past_writeUnit (t : Terminal) (unit : UInt16) :
    (t.writeUnit unit).past.length = t.past.length ∨
      (t.writeUnit unit).past.length = t.past.length + 1 := by
  rw [Terminal.writeUnit]
  split_ifs
  · exact .inl rfl
  · exact .inl rfl
  · exact .inr rfl
  · exact .inr rfl
  · exact .inl rfl

/-- A unit leaves the width. -/
lemma width_writeUnit (t : Terminal) (unit : UInt16) : (t.writeUnit unit).width = t.width := by
  rw [Terminal.writeUnit]
  split_ifs <;> rfl

/-- A text takes no line out of the past. -/
lemma past_writeUnits (t : Terminal) (units : List UInt16) :
    t.past.length ≤ (units.foldl Terminal.writeUnit t).past.length := by
  induction units generalizing t with
  | nil => exact Nat.le_refl _
  | cons unit units ih =>
    have more := ih (t.writeUnit unit)
    have grown := past_writeUnit t unit
    rw [List.foldl_cons]
    omega

/-- A text; the row above it stays until a line leaves the screen. -/
lemma run {flag : Bool} {units : List UInt16} (tracks : Tracks base t s) (shows : Shows h t)
    (at_start : flag = true → t.column = 0) (returned : Returned flag units) :
    Tracks base (units.foldl Terminal.writeUnit t) (s.write (wrapped t.width t.column units)) ∧
      (min t.past.length (s.rows - 2) +
            ((units.foldl Terminal.writeUnit t).past.length - t.past.length) ≤ s.rows - 2 →
        (s.write (wrapped t.width t.column units)).cells 0 = s.cells 0) := by
  induction units generalizing h t s flag with
  | nil => exact ⟨tracks, fun _ => rfl⟩
  | cons unit units ih =>
    obtain ⟨first, next, kept⟩ := tracks.unit shows unit fun feed => at_start (returned.head feed)
    have column : (unit == carriageReturn) = true → (t.writeUnit unit).column = 0 := by
      intro returns
      rw [beq_iff_eq.mp returns]
      rfl
    obtain ⟨rest, kept'⟩ := ih first (shows.writeUnit unit) column returned.tail
    have sent : s.write (wrapped t.width t.column (unit :: units)) =
        (s.write (wrapUnit t.width t.column unit)).write
          (wrapped (t.writeUnit unit).width (t.writeUnit unit).column units) := by
      rw [wrapped, TextScreen.write_append, next, width_writeUnit]
    rw [List.foldl_cons, sent]
    refine ⟨rest, fun calm => ?_⟩
    have grown := past_writeUnit t unit
    have more := past_writeUnits (t.writeUnit unit) units
    rw [TextScreen.rows_write] at kept'
    exact (kept' (by omega)).trans (kept (by omega))

end Tracks

end Promptboot
