import Promptboot.Repl.ScreenTracks

/-!
# What a repaint draws

The status row is painted over the first row and nothing else; a redraw clears the screen and draws
the lines of the viewport, the cursor behind them and the status row.

`Fitted` is the geometry that every lemma assumes and `Painted` what a screen with a status row is.
`paintStatusRow_ok` and `redrawLine_ok` draw one row each; the headline `redrawConsoleHistory_ok` is
the induction over the rows of the viewport.
-/

namespace Promptboot
open TextScreen (Plain console)

section Status
variable {conout : Nat → ConoutReply TextScreen} {s t : ScreenState} {units : List UInt16}

/-- The screen with a text painted over the beginning of its first row. -/
def paintRow (screen : TextScreen) (units : List UInt16) : TextScreen :=
  { screen with
    cells := Function.update screen.cells 0
      (TextScreen.written (screen.cells 0) 0 (invertedAttribute screen.attr) units) }

/-- Painting the status row leaves the rows below. -/
lemma cells_paintRow (screen : TextScreen) (units : List UInt16) (row : Nat) :
    (paintRow screen units).cells (row + 1) = screen.cells (row + 1) := by
  show Function.update screen.cells 0 (TextScreen.written (screen.cells 0) 0
    (invertedAttribute screen.attr) units) (row + 1) = screen.cells (row + 1)
  exact Function.update_of_ne (Nat.succ_ne_zero row) ..

/-- What `render_status_row` draws when no call fails. -/
lemma renderStatusRow_ok {attr column row : Nat} (whole : 0 ∉ units)
    (run : renderStatusRow console conout attr column row 0 units s = (.ok (), t)) :
    Draws (fun screen => ((((screen.moveTo 0 0).setAttribute (invertedAttribute attr)).write
      units).setAttribute attr).moveTo column row) s t := by
  obtain ⟨_, _, _, _, first, second, third, fourth, fifth⟩ := renderStatusRow_calls run
  exact ((((conoutCall_ok first).trans (conoutCall_ok second)).trans
    (rawConoutUtf16_ok whole third)).trans (conoutCall_ok fourth)).trans (conoutCall_ok fifth)

/-- The status row is painted, and the cursor is where it was. -/
lemma paintStatusRow_ok (clean : ∀ unit ∈ units, Plain unit ∧ unit ≠ 0)
    (fits : units.length < s.screen.columns)
    (run : paintStatusRow console conout units s = (.ok (), t)) :
    Draws (fun screen => paintRow screen units) s t := by
  have whole : 0 ∉ units := fun mem => (clean 0 mem).2 rfl
  obtain ⟨calls, rfl⟩ := renderStatusRow_ok whole run
  refine ⟨calls, ?_⟩
  have plain : ∀ unit ∈ units, Plain unit := fun unit mem => (clean unit mem).1
  dsimp only
  rw [TextScreen.write_row plain (by
    show 0 + units.length < s.screen.columns
    omega)]
  rfl

end Status

/-- A status console on the screen of a terminal, whatever the screen shows. -/
structure Fitted (base : Nat) (t : Terminal) (s : ScreenState) : Prop where
  active : s.status.active = true
  columns : s.history.width + 1 = s.status.columns
  fits : s.status.columns ≤ s.screen.columns
  rows : s.history.rows + 1 = s.screen.rows
  ring : s.history.rows ≤ historyLines
  attr : s.screen.attr = base
  shows : Shows s.history t
  plain : ∀ line ∈ t.lines, ∀ unit ∈ line.units, Plain unit ∧ unit ≠ 0

/-- The screen shows the status row and below it the viewport. -/
structure Painted (base : Nat) (t : Terminal) (s : ScreenState) : Prop extends Fitted base t s where
  statusRow : ∀ column, Plain (s.statusRow column) ∧ s.statusRow column ≠ 0
  status : ∀ column < s.history.width, s.screen.cells 0 column =
    ⟨s.statusRow column, invertedAttribute base⟩
  content : ∀ row < s.history.rows, ∀ column < s.history.width, s.screen.cells (row + 1) column =
    ⟨t.window s.history.viewOffset (s.history.viewportLen - 1) row column, base⟩
  below : 1 ≤ s.screen.row
  cursor : s.history.viewportCursor = some (s.screen.column, s.screen.row - 1)

section Rows
variable {conout : Nat → ConoutReply TextScreen} {base : Nat} {t : Terminal} {s u : ScreenState}

/-- The text of the status row. -/
def statusText (s : ScreenState) : List UInt16 := (List.range (s.status.columns - 1)).map s.statusRow

/-- The status text is as wide as the console. -/
lemma Fitted.length_statusText (fitted : Fitted base t s) :
    (statusText s).length = s.history.width := by
  have columns := fitted.columns
  rw [statusText, List.length_map, List.length_range]
  omega

/-- The row that is painted shows the text. -/
lemma Fitted.painted_row (fitted : Fitted base t s) {screen : TextScreen} (attr : screen.attr = base)
    {column : Nat} (inside : column < s.history.width) :
    (paintRow screen (statusText s)).cells 0 column =
      ⟨s.statusRow column, invertedAttribute base⟩ := by
  have columns := fitted.columns
  have length := fitted.length_statusText
  have there : (statusText s).getD column 0x0020 = s.statusRow column := by
    have small : column < s.status.columns - 1 := by omega
    rw [List.getD_eq_getElem?_getD, statusText, List.getElem?_map, List.getElem?_range small]
    rfl
  have cell : 0 ≤ column ∧ column < 0 + (statusText s).length := by omega
  rw [paintRow]
  dsimp only
  rw [Function.update_self, TextScreen.written, if_pos cell, Nat.sub_zero, there, attr]

/-- The status row is painted out of `STATUS_ROW`. -/
lemma Fitted.paint_ok (fitted : Fitted base t s)
    (clean : ∀ column, Plain (s.statusRow column) ∧ s.statusRow column ≠ 0)
    (run : paintStatusRow console conout (statusText s) s = (.ok (), u)) :
    Draws (fun screen => paintRow screen (statusText s)) s u := by
  have length := fitted.length_statusText
  have columns := fitted.columns
  have fits := fitted.fits
  refine paintStatusRow_ok (fun unit mem => ?_) (by omega) run
  obtain ⟨column, -, rfl⟩ := List.mem_map.1 mem
  exact clean column

/-- Restoring the status row paints it. -/
lemma restoreStatusRow_ok (fitted : Fitted base t s)
    (clean : ∀ column, Plain (s.statusRow column) ∧ s.statusRow column ≠ 0)
    (run : restoreStatusRow console conout s = (.ok (), u)) :
    Draws (fun screen => paintRow screen (statusText s)) s u := by
  obtain ⟨_, _, got, rest⟩ := Fallible.bind_eq_ok run
  cases got
  rw [fitted.active] at rest
  exact fitted.paint_ok clean rest

/-- What only changes the screen leaves a console fitted. -/
lemma Fitted.drawn (fitted : Fitted base t s) {screen : TextScreen} {calls : Nat}
    (attr : screen.attr = s.screen.attr) (columns : screen.columns = s.screen.columns)
    (rows : screen.rows = s.screen.rows) : Fitted base t { s with screen, calls } where
  active := fitted.active
  columns := fitted.columns
  fits := columns ▸ fitted.fits
  rows := rows ▸ fitted.rows
  ring := fitted.ring
  attr := attr.trans fitted.attr
  shows := fitted.shows
  plain := fitted.plain

/-- A screen that shows the viewport, under its status row. -/
lemma Fitted.painted (fitted : Fitted base t s)
    (clean : ∀ column, Plain (s.statusRow column) ∧ s.statusRow column ≠ 0)
    (content : ∀ row < s.history.rows, ∀ column < s.history.width,
      s.screen.cells (row + 1) column =
        ⟨t.window s.history.viewOffset (s.history.viewportLen - 1) row column, base⟩)
    (below : 1 ≤ s.screen.row)
    (cursor : s.history.viewportCursor = some (s.screen.column, s.screen.row - 1)) {calls : Nat} :
    Painted base t { s with screen := paintRow s.screen (statusText s), calls } where
  toFitted := fitted.drawn rfl rfl rfl
  statusRow := clean
  status _ inside := fitted.painted_row fitted.attr inside
  content row low column inside :=
    (congrFun (cells_paintRow s.screen (statusText s) row) column).trans
      (content row low column inside)
  below := below
  cursor := cursor

end Rows

section Redraw
variable {conout : Nat → ConoutReply TextScreen} {base : Nat} {t : Terminal} {s u : ScreenState}

/-- A loop that ends well has made each of its turns. -/
lemma forM_range_ok {σ ε : Type} {f : Nat → Fallible σ ε PUnit} {I : Nat → σ → Prop} {n : Nat}
    {s u : σ} (start : I 0 s) (turn : ∀ k < n, ∀ a b, I k a → f k a = (.ok ⟨⟩, b) → I (k + 1) b)
    (run : (List.range n).forM f s = (.ok ⟨⟩, u)) : I n u := by
  induction n generalizing u with
  | zero =>
    cases run
    exact start
  | succ n ih =>
    rw [List.range_succ, Fallible.forM_append] at run
    obtain ⟨_, middle, front, last⟩ := Fallible.bind_eq_ok run
    have reached := ih (fun k below => turn k (Nat.lt_succ_of_lt below)) front
    rw [Fallible.forM_cons] at last
    obtain ⟨_, _, made, rest⟩ := Fallible.bind_eq_ok last
    cases rest
    exact turn n (Nat.lt_succ_self n) _ _ reached made

/-- The first lines are drawn, on a screen that is blank otherwise. -/
structure Redrawn (base : Nat) (t : Terminal) (s : ScreenState) (drawn : Nat) (u : ScreenState) :
    Prop where
  others : ∃ screen calls, u = { s with screen, calls }
  attr : u.screen.attr = s.screen.attr
  columns : u.screen.columns = s.screen.columns
  rows : u.screen.rows = s.screen.rows
  content : ∀ row column, u.screen.cells (row + 1) column =
    if row < drawn ∧ column < s.history.width then
      ⟨t.window s.history.viewOffset (s.history.viewportLen - 1) row column, base⟩
    else ⟨0x0020, base⟩

/-- A line of the viewport, as it is in the terminal. -/
lemma Fitted.line (fitted : Fitted base t s) {row : Nat} (inside : row < s.history.viewportLen) :
    ∃ line, s.history.viewportLine row = some line ∧ line.units.length ≤ s.history.width ∧
      (∀ unit ∈ line.units, Plain unit ∧ unit ≠ 0) ∧
      ∀ column, t.window s.history.viewOffset (s.history.viewportLen - 1) row column =
        line.units.getD column 0x0020 := by
  obtain ⟨line, found, there⟩ := fitted.shows.viewportLine inside
  have count := fitted.shows.count
  have view := fitted.shows.view
  have near : s.history.viewOffset + (s.history.viewportLen - 1 - row) < s.history.count := by
    rw [ConsoleHistory.viewportLen] at inside ⊢
    omega
  have held := fitted.shows.held _ near line there
  refine ⟨line, found, ?_, fitted.plain line (List.mem_of_getElem? there), fun column => ?_⟩
  · rw [← held.length]
    exact fitted.shows.lengths _
  · rw [Terminal.window, if_pos (by omega), Terminal.unitAt, there]
    rfl

/-- A line is drawn in its row. -/
lemma redrawLine_ok (fitted : Fitted base t s) {row : Nat} (inside : row < s.history.viewportLen)
    {a b : ScreenState} (before : Redrawn base t s row a)
    (run : redrawLine console conout row a = (.ok (), b)) : Redrawn base t s (row + 1) b := by
  obtain ⟨line, found, short, clean, shown⟩ := fitted.line inside
  obtain ⟨screen, calls, rfl⟩ := before.others
  have width := fitted.columns
  have fits := fitted.fits
  have columns : screen.columns = s.screen.columns := before.columns
  obtain ⟨read, a₁, got, rest⟩ := Fallible.bind_eq_ok run
  have here : (viewportLine row { s with screen, calls } : Except ConsoleError HistoryLine × _) =
      (.ok line, { s with screen, calls }) := by
    rw [viewportLine, Fallible.lift_apply]
    dsimp only
    rw [found]
  rw [here] at got
  cases got
  -- whatever is sent, it ends up as the units of the line at the beginning of the row
  have drawn : Draws (fun screen => (screen.moveTo 0 (row + 1)).write line.units)
      { s with screen, calls } b → Redrawn base t s (row + 1) b := by
    rintro ⟨calls', rfl⟩
    have plain : ∀ unit ∈ line.units, Plain unit := fun unit mem => (clean unit mem).1
    dsimp only
    rw [TextScreen.write_row plain (by
      show 0 + line.units.length < screen.columns
      omega)]
    refine ⟨⟨_, _, rfl⟩, before.attr, before.columns, before.rows, fun r c => ?_⟩
    have old := before.content r c
    dsimp only [TextScreen.moveTo] at old ⊢
    by_cases same : r = row
    · subst same
      rw [Function.update_self, TextScreen.written]
      rw [if_neg (by omega)] at old
      by_cases cell : c < s.history.width
      · rw [if_pos (by omega : r < r + 1 ∧ c < s.history.width), shown]
        by_cases text : 0 ≤ c ∧ c < 0 + line.units.length
        · rw [if_pos text, Nat.sub_zero]
          exact congrArg (TextCell.mk _) (before.attr.trans fitted.attr)
        · rw [if_neg text, old, List.getD_eq_default _ _ (by omega)]
      · rw [if_neg (fun text => cell (by omega) : ¬(0 ≤ c ∧ c < 0 + line.units.length)),
          if_neg (fun both => cell both.2 : ¬(r < r + 1 ∧ c < s.history.width)), old]
    · rw [Function.update_of_ne (by omega), old]
      have next : (r < row ∧ c < s.history.width) ↔ (r < row + 1 ∧ c < s.history.width) := by omega
      simp only [next]
  by_cases none : line.units = []
  · rw [if_pos none] at rest
    cases rest
    refine ⟨⟨screen, calls, rfl⟩, before.attr, before.columns, before.rows, fun r c => ?_⟩
    rw [before.content r c]
    by_cases same : r = row
    · subst same
      rw [if_neg (by omega), shown, none]
      split <;> rfl
    · have next : (r < row ∧ c < s.history.width) ↔ (r < row + 1 ∧ c < s.history.width) := by omega
      simp only [next]
  rw [if_neg none] at rest
  obtain ⟨_, a₂, moved, rest⟩ := Fallible.bind_eq_ok rest
  have at_start := setConsoleCursor_ok moved
  have whole : 0 ∉ line.units := fun mem => (clean 0 mem).2 rfl
  split at rest
  case isFalse =>
    exact drawn (at_start.trans (rawConoutUtf16_ok whole (checkedCall_ok rest)))
  case isTrue =>
    -- between the parts of a record the cursor is put where it is
    obtain ⟨_, a₃, first, rest⟩ := Fallible.bind_eq_ok rest
    obtain ⟨_, a₄, again, rest⟩ := Fallible.bind_eq_ok rest
    have head := rawConoutUtf16_ok (fun mem => whole (List.mem_of_mem_take mem)) (checkedCall_ok first)
    have tail := rawConoutUtf16_ok (fun mem => whole (List.mem_of_mem_drop mem)) (checkedCall_ok rest)
    obtain ⟨calls', drew⟩ := ((at_start.trans head).trans (setConsoleCursor_ok again)).trans tail
    apply drawn
    refine ⟨calls', drew.trans ?_⟩
    obtain ⟨unit, units, split⟩ := List.exists_cons_of_ne_nil none
    have one : (line.units.take 1) = [unit] := by rw [split]; rfl
    have one_plain : ∀ unit ∈ line.units.take 1, Plain unit :=
      fun unit mem => (clean unit (List.mem_of_mem_take mem)).1
    have stays : ((screen.moveTo 0 (row + 1)).write (line.units.take 1)).moveTo 1 (row + 1) =
        (screen.moveTo 0 (row + 1)).write (line.units.take 1) := by
      rw [one] at one_plain ⊢
      rw [TextScreen.write_row one_plain (by
        show 0 + 1 < screen.columns
        have := congrArg List.length split
        rw [List.length_cons] at this
        omega)]
      rfl
    dsimp only
    rw [stays, ← TextScreen.write_append, List.take_append_drop]

/-- A redraw that ends well shows the viewport. -/
lemma redrawConsoleHistory_ok (fitted : Fitted base t s)
    (clean : ∀ column, Plain (s.statusRow column) ∧ s.statusRow column ≠ 0)
    (run : redrawConsoleHistory console conout s = (.ok (), u)) :
    Painted base t u ∧ ∃ screen calls, u = { s with screen, calls } := by
  obtain ⟨_, _, got, rest⟩ := Fallible.bind_eq_ok run
  cases got
  obtain ⟨_, a₁, cleared, rest⟩ := Fallible.bind_eq_ok rest
  rw [fitted.active] at rest
  obtain ⟨calls, rfl⟩ := clearScreen_ok cleared
  obtain ⟨_, a₂, lines, rest⟩ := Fallible.bind_eq_ok rest
  -- the cleared screen is drawn row by row, each row a line of the viewport
  have start : Redrawn base t s 0 { s with screen := s.screen.clear, calls } := by
    refine ⟨⟨_, _, rfl⟩, rfl, rfl, rfl, fun r c => ?_⟩
    rw [if_neg fun both => Nat.not_lt_zero r both.1]
    exact congrArg (TextCell.mk _) fitted.attr
  have drawn := forM_range_ok start (fun k below a b before made =>
    redrawLine_ok fitted below before made) lines
  obtain ⟨screen, calls, rfl⟩ := drawn.others
  obtain ⟨cursor, a₃, at_, rest⟩ := Fallible.bind_eq_ok rest
  unfold viewportCursor at at_
  rw [Fallible.lift_apply] at at_
  dsimp only at at_
  rcases where_ : s.history.viewportCursor with _ | ⟨column, row⟩
  · rw [where_] at at_
    cases at_
  rw [where_] at at_
  cases at_
  obtain ⟨_, a₄, moved, rest⟩ := Fallible.bind_eq_ok rest
  obtain ⟨calls', rfl⟩ := setConsoleCursor_ok moved
  have fitted' : Fitted base t { s with screen := screen.moveTo column (row + 1), calls := calls' } :=
    fitted.drawn drawn.attr drawn.columns drawn.rows
  obtain ⟨calls'', rfl⟩ := restoreStatusRow_ok fitted' clean rest
  refine ⟨fitted'.painted clean (fun r low c inside => ?_) (Nat.succ_le_succ (Nat.zero_le row))
    where_, _, _, rfl⟩
  refine (drawn.content r c).trans ?_
  -- rows behind the viewport are as the clear has left them
  by_cases live : r < s.history.viewportLen
  · exact if_pos ⟨live, inside⟩
  · have positive : 1 ≤ s.history.viewportLen := by
      have count := fitted.shows.count
      have lines : t.lines.length = t.past.length + 1 := rfl
      have view := fitted.shows.view
      have rows := fitted.shows.rows
      unfold historyLines at count
      rw [ConsoleHistory.viewportLen]
      omega
    have past : ¬r ≤ s.history.viewportLen - 1 := by omega
    rw [if_neg fun both => live both.1]
    exact congrArg (TextCell.mk · base) (if_neg past).symm

end Redraw

end Promptboot
