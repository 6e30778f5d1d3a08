import Mathlib.Logic.Function.Basic
import Mathlib.Tactic.Common
import Mathlib.Algebra.Group.Int.Defs
import Mathlib.Algebra.Group.Nat.Defs

/-!
# The scroll-back

`ConsoleHistory` (`console_history.rs`): a ring of `HISTORY_LINES` wrapped lines over one array of
cells, and the terminal it stands for, which keeps every line. The arrays are functions of their
index.

`Holds` relates the ring to the terminal's last lines, and `Shows` adds the view. Each call has a
lemma under its own name in both namespaces; `slot_ne` and `cell_ne` keep the slots of the ring
apart. The headline `consoleHistory_shows_terminal` is the run of calls.
-/

namespace Promptboot

def maxColumns : Nat := 256
def historyLines : Nat := 2048

structure ConsoleHistory where
  cells : Nat → UInt16
  lengths : Nat → Nat
  hardBreaks : Nat → Bool
  width : Nat
  rows : Nat
  head : Nat
  count : Nat
  column : Nat
  viewOffset : Nat

/-- The units of a line and whether a line feed ended it. -/
structure HistoryLine where
  units : List UInt16
  hardBreak : Bool
  deriving DecidableEq

/-- The calls on a history. -/
inductive HistoryCall where
  | configure (columns rows : Nat)
  | write (units : List UInt16)
  | pageUp
  | pageDown
  | returnToBottom
  | reset

namespace ConsoleHistory

def new : ConsoleHistory := ⟨fun _ => 0, fun _ => 0, fun _ => false, 80, 25, 0, 1, 0, 0⟩

def reset (h : ConsoleHistory) : ConsoleHistory :=
  { h with
    cells := fun _ => 0
    lengths := fun _ => 0
    hardBreaks := fun _ => false
    head := 0
    count := 1
    column := 0
    viewOffset := 0 }

def configure (h : ConsoleHistory) (columns rows : Nat) : ConsoleHistory :=
  reset { h with width := min (max columns 1) maxColumns, rows := max rows 1 }

def returnToBottom (h : ConsoleHistory) : ConsoleHistory := { h with viewOffset := 0 }

def advanceLine (h : ConsoleHistory) : ConsoleHistory :=
  let head := (h.head + 1) % historyLines
  let start := head * maxColumns
  { h with
    head
    count := if h.count < historyLines then h.count + 1 else h.count
    cells := fun i => if start ≤ i ∧ i < start + maxColumns then 0 else h.cells i
    lengths := Function.update h.lengths head 0
    hardBreaks := Function.update h.hardBreaks head false
    column := 0 }

def writeUnit (h : ConsoleHistory) (unit : UInt16) : ConsoleHistory :=
  if unit = 0x0008 then
    { h with column := h.column - 1 }
  else if unit = 0x000d then
    { h with column := 0 }
  else if unit = 0x000a then
    advanceLine { h with hardBreaks := Function.update h.hardBreaks h.head true }
  else
    let written := { h with
      cells := Function.update h.cells (h.head * maxColumns + h.column) unit
      column := h.column + 1
      lengths := Function.update h.lengths h.head (max (h.lengths h.head) (h.column + 1)) }
    if written.column = written.width then written.advanceLine else written

def write (h : ConsoleHistory) (units : List UInt16) : ConsoleHistory := units.foldl writeUnit h

def pageUp (h : ConsoleHistory) : ConsoleHistory :=
  { h with viewOffset := min (h.count - h.rows) (h.viewOffset + h.rows) }

def pageDown (h : ConsoleHistory) : ConsoleHistory :=
  { h with viewOffset := h.viewOffset - h.rows }

def viewportLen (h : ConsoleHistory) : Nat :=
  let stop := h.count - h.viewOffset
  stop - (stop - h.rows)

/-- `viewport_line`; `none` is an index or a slice out of range. -/
def viewportLine (h : ConsoleHistory) (row : Nat) : Option HistoryLine :=
  let stop := h.count - h.viewOffset
  let logical := stop - h.rows + row
  let oldest := (h.head + historyLines + 1 - h.count) % historyLines
  let physical := (oldest + logical) % historyLines
  let start := physical * maxColumns
  if physical < historyLines ∧ start + h.lengths physical ≤ maxColumns * historyLines then
    some ⟨(List.range' start (h.lengths physical)).map h.cells, h.hardBreaks physical⟩
  else
    none

def viewportCursor (h : ConsoleHistory) : Option (Nat × Nat) :=
  if h.viewOffset ≠ 0 then
    let last := h.viewportLen - 1
    (h.viewportLine last).map fun line => (min line.units.length (h.width - 1), last)
  else
    some (h.column, h.viewportLen - 1)

def call (h : ConsoleHistory) : HistoryCall → ConsoleHistory
  | .configure columns rows => h.configure columns rows
  | .write units => h.write units
  | .pageUp => h.pageUp
  | .pageDown => h.pageDown
  | .returnToBottom => h.returnToBottom
  | .reset => h.reset

/-- The slot of the line at a distance from the bottom. -/
def slot (h : ConsoleHistory) (distance : Nat) : Nat :=
  (h.head + historyLines - distance) % historyLines

/-- The line in a slot. -/
structure Holds (h : ConsoleHistory) (slot : Nat) (line : HistoryLine) : Prop where
  length : h.lengths slot = line.units.length
  hardBreak : h.hardBreaks slot = line.hardBreak
  units : ∀ i < line.units.length, line.units[i]? = some (h.cells (slot * maxColumns + i))

end ConsoleHistory

/-- The terminal that keeps every line, newest first, behind the current one. -/
structure Terminal where
  width : Nat
  current : List UInt16
  column : Nat
  past : List HistoryLine

namespace Terminal

def new : Terminal := ⟨80, [], 0, []⟩

/-- All lines by their distance from the bottom. -/
def lines (t : Terminal) : List HistoryLine := ⟨t.current, false⟩ :: t.past

/-- Starts a new line. -/
def advance (t : Terminal) (hardBreak : Bool) : Terminal :=
  { t with current := [], column := 0, past := ⟨t.current, hardBreak⟩ :: t.past }

/-- A unit at the cursor. -/
def put (t : Terminal) (unit : UInt16) : Terminal :=
  { t with
    current := if t.column < t.current.length then t.current.set t.column unit
      else t.current ++ [unit]
    column := t.column + 1 }

def writeUnit (t : Terminal) (unit : UInt16) : Terminal :=
  if unit = 0x0008 then
    { t with column := t.column - 1 }
  else if unit = 0x000d then
    { t with column := 0 }
  else if unit = 0x000a then
    t.advance true
  else if t.column + 1 = t.width then
    (t.put unit).advance false
  else
    t.put unit

def call (t : Terminal) : HistoryCall → Terminal
  | .configure columns _ => ⟨min (max columns 1) maxColumns, [], 0, []⟩
  | .write units => units.foldl writeUnit t
  | .reset => ⟨t.width, [], 0, []⟩
  | .pageUp | .pageDown | .returnToBottom => t

end Terminal

/-- The history stands for the terminal: it has the same cursor and holds the lines at the bottom,
as many as it can. -/
structure Shows (h : ConsoleHistory) (t : Terminal) : Prop where
  width : h.width = t.width
  column : h.column = t.column
  within : h.column < h.width
  bounded : h.width ≤ maxColumns
  rows : 1 ≤ h.rows
  head : h.head < historyLines
  count : h.count = min t.lines.length historyLines
  view : h.viewOffset ≤ h.count - h.rows
  cursor : t.column ≤ t.current.length
  lengths : ∀ slot, h.lengths slot ≤ h.width
  held : ∀ distance < h.count, ∀ line, t.lines[distance]? = some line →
    h.Holds (h.slot distance) line

namespace Shows

variable {h : ConsoleHistory} {t : Terminal}

open ConsoleHistory

/-- The newest line is in the slot of the head. -/
lemma slot_zero (head : h.head < historyLines) : h.slot 0 = h.head := by
  rw [slot, Nat.sub_zero, Nat.add_mod_right, Nat.mod_eq_of_lt head]

/-- Another line is in another slot. -/
lemma slot_ne (head : h.head < historyLines) {distance : Nat} (positive : 0 < distance)
    (inside : distance < historyLines) : h.slot distance ≠ h.head := by
  rw [slot]
  unfold historyLines at *
  omega

/-- Every slot is in the ring. -/
lemma slot_lt (distance : Nat) : h.slot distance < historyLines :=
  Nat.mod_lt _ (by decide)

/-- The lines move on by one slot. -/
lemma slot_advance (head : h.head < historyLines) {distance : Nat}
    (inside : distance < historyLines) :
    h.advanceLine.slot (distance + 1) = h.slot distance := by
  show ((h.head + 1) % historyLines + historyLines - (distance + 1)) % historyLines =
    (h.head + historyLines - distance) % historyLines
  unfold historyLines at *
  omega

/-- Cells of different slots are different. -/
lemma cell_ne {p q i j : Nat} (ne : p ≠ q) (hi : i < maxColumns) (hj : j < maxColumns) :
    p * maxColumns + i ≠ q * maxColumns + j := by
  unfold maxColumns at *
  omega

/-- A fresh history, after `reset`. -/
lemma reset {columns : Nat} (positive : 0 < columns) (bounded : columns ≤ maxColumns)
    (width : h.width = columns) (rows : 1 ≤ h.rows) : Shows h.reset ⟨columns, [], 0, []⟩ where
  width := width
  column := rfl
  within := by
    rw [← width] at positive
    exact positive
  bounded := by
    rw [← width] at bounded
    exact bounded
  rows := rows
  head := Nat.succ_pos 2047
  count := rfl
  view := Nat.zero_le _
  cursor := Nat.le_refl 0
  lengths _ := Nat.zero_le _
  held distance inside line there := by
    change distance < 1 at inside
    obtain rfl : distance = 0 := by omega
    cases there
    exact ⟨rfl, rfl, nofun⟩

/-- A new line at the bottom; the oldest goes when the ring is full. -/
lemma advance (hardBreak : Bool)
    (shows : ∀ distance < h.count, ∀ line,
      (⟨t.current, hardBreak⟩ :: t.past)[distance]? = some line → h.Holds (h.slot distance) line)
    (width : h.width = t.width) (positive : 0 < h.width) (bounded : h.width ≤ maxColumns)
    (rows : 1 ≤ h.rows) (head : h.head < historyLines)
    (count : h.count = min t.lines.length historyLines) (view : h.viewOffset ≤ h.count - h.rows)
    (lengths : ∀ slot, h.lengths slot ≤ h.width) : Shows h.advanceLine (t.advance hardBreak) := by
  have grown : h.advanceLine.count = min (t.advance hardBreak).lines.length historyLines := by
    show (if h.count < historyLines then h.count + 1 else h.count) = min (t.past.length + 2) _
    have lines : t.lines.length = t.past.length + 1 := rfl
    rw [lines] at count
    unfold historyLines at *
    split_ifs <;> omega
  have most : h.count ≤ h.advanceLine.count := by
    show h.count ≤ if h.count < historyLines then h.count + 1 else h.count
    split_ifs <;> omega
  refine ⟨width, rfl, positive, bounded, rows, Nat.mod_lt _ (by decide), grown, ?_, Nat.le_refl 0,
    fun slot => ?_, fun distance inside line there => ?_⟩
  · exact Nat.le_trans view (Nat.sub_le_sub_right most _)
  · show Function.update h.lengths _ 0 slot ≤ h.width
    rw [Function.update_apply]
    split_ifs
    · exact Nat.zero_le _
    · exact lengths slot
  · cases distance with
    | zero =>
      cases there
      rw [slot_zero (Nat.mod_lt _ (by decide))]
      exact ⟨Function.update_self .., Function.update_self .., nofun⟩
    | succ distance =>
      have below : distance + 1 < historyLines := by
        rw [grown] at inside
        omega
      have old : distance < h.count := by
        change distance + 1 < (if h.count < historyLines then h.count + 1 else h.count) at inside
        split_ifs at inside <;> omega
      have moved := slot_advance head (Nat.lt_of_succ_lt below)
      -- the slot that is cleared belongs to no line that is kept
      have elsewhere : h.slot distance ≠ (h.head + 1) % historyLines := by
        rw [← moved]
        exact slot_ne (h := h.advanceLine) (Nat.mod_lt _ (by decide)) (Nat.succ_pos _) below
      obtain ⟨length, broken, units⟩ := shows distance old line there
      rw [moved]
      refine ⟨?_, ?_, fun i small => ?_⟩
      · exact (Function.update_of_ne elsewhere ..).trans length
      · exact (Function.update_of_ne elsewhere ..).trans broken
      · have column : i < maxColumns := by
          have fits := lengths (h.slot distance)
          rw [length] at fits
          omega
        rw [units i small]
        refine congrArg some (if_neg ?_).symm
        rintro ⟨low, high⟩
        unfold maxColumns at *
        omega

/-- A line feed marks the line it ends. -/
lemma lineFeed (shows : Shows h t) :
    Shows (ConsoleHistory.advanceLine
      { h with hardBreaks := Function.update h.hardBreaks h.head true }) (t.advance true) := by
  refine advance true (fun distance inside line there => ?_) shows.width
    (Nat.zero_lt_of_lt shows.within) shows.bounded shows.rows shows.head shows.count shows.view
    shows.lengths
  cases distance with
  | zero =>
    cases there
    obtain ⟨length, -, units⟩ := shows.held 0 inside _ rfl
    rw [slot_zero shows.head] at length units
    have bottom : ConsoleHistory.slot
        { h with hardBreaks := Function.update h.hardBreaks h.head true } 0 = h.head :=
      slot_zero shows.head
    rw [bottom]
    exact ⟨length, Function.update_self .., units⟩
  | succ distance =>
    obtain ⟨length, broken, units⟩ := shows.held (distance + 1) inside line there
    have small : distance + 1 < historyLines := by
      have count := shows.count
      change distance + 1 < h.count at inside
      omega
    have elsewhere := slot_ne shows.head (Nat.succ_pos distance) small
    exact ⟨length, (Function.update_of_ne elsewhere ..).trans broken, units⟩

/-- What `write` does with a unit that is no control character, before it wraps. -/
def put (h : ConsoleHistory) (unit : UInt16) : ConsoleHistory :=
  { h with
    cells := Function.update h.cells (h.head * maxColumns + h.column) unit
    column := h.column + 1
    lengths := Function.update h.lengths h.head (max (h.lengths h.head) (h.column + 1)) }

/-- A unit that is no control character is put, and may end the line. -/
lemma writeUnit_put {unit : UInt16} (backspace : unit ≠ 0x0008) (carriage : unit ≠ 0x000d)
    (feed : unit ≠ 0x000a) : h.writeUnit unit =
      if h.column + 1 = h.width then (put h unit).advanceLine else put h unit := by
  rw [ConsoleHistory.writeUnit, if_neg backspace, if_neg carriage, if_neg feed]
  rfl

/-- A unit makes the line as long as it reaches. -/
lemma length_put (shows : Shows h t) (unit : UInt16) :
    (t.put unit).current.length = max t.current.length (t.column + 1) := by
  have cursor := shows.cursor
  show List.length (if _ then _ else _) = _
  split_ifs with inside
  · rw [List.length_set]
    omega
  · rw [List.length_append, List.length_singleton]
    omega

/-- A unit replaces its cell only. -/
lemma getElem?_put (shows : Shows h t) (unit : UInt16) (i : Nat) :
    (t.put unit).current[i]? = if i = t.column then some unit else t.current[i]? := by
  have cursor := shows.cursor
  have current : (t.put unit).current = if t.column < t.current.length
      then t.current.set t.column unit else t.current ++ [unit] := rfl
  rw [current]
  by_cases inside : t.column < t.current.length
  · rw [if_pos inside]
    by_cases here : i = t.column
    · rw [if_pos here, here, List.getElem?_set_self inside]
    · rw [if_neg here, List.getElem?_set_ne (Ne.symm here)]
  · have bottom : t.column = t.current.length := by omega
    rw [if_neg inside, bottom]
    by_cases here : i = t.current.length
    · rw [if_pos here, here, List.getElem?_append_right (Nat.le_refl _), Nat.sub_self]
      rfl
    · rw [if_neg here, List.getElem?_append]
      split_ifs with low
      · rfl
      · have past : [unit].length ≤ i - t.current.length := by
          rw [List.length_singleton]
          omega
        rw [List.getElem?_eq_none past, List.getElem?_eq_none (Nat.not_lt.mp low)]

/-- No line is longer than the console is wide. -/
lemma lengths_put (shows : Shows h t) (unit : UInt16) (slot : Nat) :
    (put h unit).lengths slot ≤ h.width := by
  have within := shows.within
  have bottom := shows.lengths h.head
  show Function.update h.lengths _ _ slot ≤ _
  rw [Function.update_apply]
  split_ifs
  · omega
  · exact shows.lengths slot

/-- A unit keeps the lines that are held. -/
lemma held_put (shows : Shows h t) (unit : UInt16) :
    ∀ distance < h.count, ∀ line, (t.put unit).lines[distance]? = some line →
      (put h unit).Holds ((put h unit).slot distance) line := by
  have within := shows.within
  have bounded := shows.bounded
  have cursor := shows.cursor
  have column := shows.column
  intro distance inside line there
  have same : (put h unit).slot distance = h.slot distance := rfl
  rw [same]
  cases distance with
  | zero =>
    -- the line of the cursor is the one that changes
    cases there
    obtain ⟨length, broken, units⟩ := shows.held 0 inside _ rfl
    rw [slot_zero shows.head] at length broken units ⊢
    refine ⟨?_, broken, fun i small => ?_⟩
    · show Function.update h.lengths h.head _ h.head = (t.put unit).current.length
      rw [Function.update_self, length_put shows, length, column]
    · show (t.put unit).current[i]? = some (Function.update h.cells _ unit _)
      rw [getElem?_put shows, ← column]
      by_cases here : i = h.column
      · rw [if_pos here, here, Function.update_self]
      · have other : h.head * maxColumns + i ≠ h.head * maxColumns + h.column :=
          fun same => here (Nat.add_left_cancel same)
        have old : i < t.current.length := by
          change i < (t.put unit).current.length at small
          rw [length_put shows] at small
          omega
        rw [if_neg here, Function.update_of_ne other]
        exact units i old
  | succ distance =>
    obtain ⟨length, broken, units⟩ := shows.held (distance + 1) inside line there
    have small : distance + 1 < historyLines := by
      have count := shows.count
      omega
    have elsewhere := slot_ne shows.head (Nat.succ_pos distance) small
    refine ⟨(Function.update_of_ne elsewhere ..).trans length, broken, fun i low => ?_⟩
    have fits := shows.lengths (h.slot (distance + 1))
    rw [length] at fits
    have other := cell_ne (i := i) (j := h.column) elsewhere (by omega) (by omega)
    have cells : (put h unit).cells =
        Function.update h.cells (h.head * maxColumns + h.column) unit := rfl
    rw [cells, Function.update_of_ne other]
    exact units i low

/-- The cursor goes back in its line. -/
lemma back (shows : Shows h t) (column : Nat) (le : column ≤ h.column) :
    Shows { h with column } { t with column } where
  width := shows.width
  column := rfl
  within := Nat.lt_of_le_of_lt le shows.within
  bounded := shows.bounded
  rows := shows.rows
  head := shows.head
  count := shows.count
  view := shows.view
  cursor := Nat.le_trans (shows.column ▸ le) shows.cursor
  lengths := shows.lengths
  held distance inside line there := by
    obtain ⟨length, broken, units⟩ := shows.held distance inside line there
    exact ⟨length, broken, units⟩

/-- The view moves over the lines there are. -/
lemma scroll (shows : Shows h t) (viewOffset : Nat) (le : viewOffset ≤ h.count - h.rows) :
    Shows { h with viewOffset } t where
  width := shows.width
  column := shows.column
  within := shows.within
  bounded := shows.bounded
  rows := shows.rows
  head := shows.head
  count := shows.count
  view := le
  cursor := shows.cursor
  lengths := shows.lengths
  held distance inside line there := by
    obtain ⟨length, broken, units⟩ := shows.held distance inside line there
    exact ⟨length, broken, units⟩

/-- One unit. -/
lemma writeUnit (shows : Shows h t) (unit : UInt16) :
    Shows (h.writeUnit unit) (t.writeUnit unit) := by
  have column := shows.column
  have width := shows.width
  have within := shows.within
  rw [Terminal.writeUnit]
  by_cases backspace : unit = 0x0008
  · rw [ConsoleHistory.writeUnit, if_pos backspace, if_pos backspace, ← column]
    exact shows.back (h.column - 1) (Nat.sub_le _ 1)
  rw [if_neg backspace]
  by_cases carriage : unit = 0x000d
  · rw [ConsoleHistory.writeUnit, if_neg backspace, if_pos carriage, if_pos carriage]
    exact shows.back 0 (Nat.zero_le _)
  rw [if_neg carriage]
  by_cases feed : unit = 0x000a
  · rw [ConsoleHistory.writeUnit, if_neg backspace, if_neg carriage, if_pos feed, if_pos feed]
    exact shows.lineFeed
  rw [if_neg feed, writeUnit_put backspace carriage feed, column, width]
  by_cases wraps : t.column + 1 = t.width
  · rw [if_pos wraps, if_pos wraps]
    exact advance (h := put h unit) (t := t.put unit) false (shows.held_put unit) width
      (Nat.zero_lt_of_lt within) shows.bounded shows.rows shows.head shows.count shows.view
      (shows.lengths_put unit)
  · rw [if_neg wraps, if_neg wraps]
    refine ⟨width, congrArg (· + 1) column, ?_, shows.bounded, shows.rows, shows.head, shows.count,
      shows.view, ?_, shows.lengths_put unit, shows.held_put unit⟩
    · show h.column + 1 < h.width
      omega
    · rw [length_put shows]
      exact Nat.le_max_right _ _

/-- A text keeps the scroll-back showing the terminal. -/
lemma write (shows : Shows h t) (units : List UInt16) :
    Shows (h.write units) (units.foldl Terminal.writeUnit t) := by
  induction units generalizing h t with
  | nil => exact shows
  | cons unit units ih => exact ih (shows.writeUnit unit)

/-- A call keeps the scroll-back showing the terminal. -/
lemma call (shows : Shows h t) (call : HistoryCall) : Shows (h.call call) (t.call call) := by
  cases call with
  | configure columns rows =>
    exact reset (h := { h with width := _, rows := _ }) (by unfold maxColumns; omega)
      (Nat.min_le_right _ _) rfl (Nat.le_max_right rows 1)
  | write units => exact shows.write units
  | pageUp => exact shows.scroll _ (Nat.min_le_left _ _)
  | pageDown => exact shows.scroll _ (Nat.le_trans (Nat.sub_le _ _) shows.view)
  | returnToBottom => exact shows.scroll 0 (Nat.zero_le _)
  | reset =>
    have bounded := shows.bounded
    rw [shows.width] at bounded
    exact reset (shows.width ▸ Nat.zero_lt_of_lt shows.within) bounded shows.width shows.rows

/-- A new scroll-back shows a new terminal. -/
lemma new : Shows .new .new :=
  reset (h := { ConsoleHistory.new with width := 80 }) (by decide) (by decide) rfl (by decide)

/-- After any calls the scroll-back shows the terminal. -/
lemma run (calls : List HistoryCall) :
    Shows (calls.foldl ConsoleHistory.call .new) (calls.foldl Terminal.call .new) := by
  have start := new
  generalize ConsoleHistory.new = h, Terminal.new = t at start
  induction calls generalizing h t with
  | nil => exact start
  | cons c calls ih => exact ih _ _ (start.call c)

/-- A row of the viewport is in range, and is the line that far from the bottom. -/
lemma viewportLine (shows : Shows h t) {row : Nat} (inside : row < h.viewportLen) :
    ∃ line, h.viewportLine row = some line ∧
      t.lines[h.viewOffset + (h.viewportLen - 1 - row)]? = some line := by
  have count := shows.count
  have head := shows.head
  have view := shows.view
  rw [viewportLen] at inside ⊢
  have near : h.viewOffset + (h.count - h.viewOffset - (h.count - h.viewOffset - h.rows) - 1 - row) <
      h.count := by omega
  obtain ⟨line, there⟩ : ∃ line, t.lines[h.viewOffset +
      (h.count - h.viewOffset - (h.count - h.viewOffset - h.rows) - 1 - row)]? = some line :=
    ⟨_, List.getElem?_eq_getElem (by omega)⟩
  refine ⟨line, ?_, there⟩
  obtain ⟨length, broken, units⟩ := shows.held _ near line there
  have physical : ((h.head + historyLines + 1 - h.count) % historyLines +
      (h.count - h.viewOffset - h.rows + row)) % historyLines =
      h.slot (h.viewOffset +
        (h.count - h.viewOffset - (h.count - h.viewOffset - h.rows) - 1 - row)) := by
    rw [slot]
    unfold historyLines at *
    omega
  have low := slot_lt (h := h) (h.viewOffset +
    (h.count - h.viewOffset - (h.count - h.viewOffset - h.rows) - 1 - row))
  rw [ConsoleHistory.viewportLine, physical]
  generalize h.slot _ = p at *
  have fits := shows.lengths p
  have bounded := shows.bounded
  have range : p < historyLines ∧ p * maxColumns + h.lengths p ≤ maxColumns * historyLines := by
    refine ⟨low, ?_⟩
    unfold maxColumns historyLines at *
    omega
  rw [if_pos range, Option.some.injEq, broken]
  refine congrArg (HistoryLine.mk · line.hardBreak) (List.ext_getElem? fun i => ?_)
  rw [length, List.getElem?_map]
  by_cases small : i < line.units.length
  · rw [units i small, List.getElem?_range' small, Nat.one_mul]
    rfl
  · have past := Nat.not_lt.mp small
    rw [List.getElem?_eq_none past, List.getElem?_eq_none (by rwa [List.length_range'])]
    rfl

/-- The lines of the ring are the last lines of the terminal. -/
lemma retained (shows : Shows h t) {distance : Nat} (inside : distance < h.count) :
    ∃ line, t.lines[distance]? = some line ∧ h.Holds (h.slot distance) line := by
  have count := shows.count
  have there : t.lines[distance]? = some t.lines[distance] := List.getElem?_eq_getElem (by omega)
  exact ⟨_, there, shows.held distance inside _ there⟩

end Shows

/-- After any calls the viewport shows the lines of the terminal at the same distance from the
bottom, and the ring keeps the last `HISTORY_LINES` of them. -/
theorem consoleHistory_shows_terminal (calls : List HistoryCall) :
    let h := calls.foldl ConsoleHistory.call .new
    let t := calls.foldl Terminal.call .new
    (∀ row < h.viewportLen, ∃ line, h.viewportLine row = some line ∧
      t.lines[h.viewOffset + (h.viewportLen - 1 - row)]? = some line) ∧
    (h.count = min t.lines.length historyLines ∧
      ∀ distance < h.count, ∃ line, t.lines[distance]? = some line ∧
        h.Holds (h.slot distance) line) ∧
    h.column < h.width ∧ h.width ≤ 256 ∧ h.head < historyLines ∧
    1 ≤ h.count ∧ h.count ≤ historyLines ∧ (∀ slot, h.lengths slot ≤ h.width) ∧
    h.viewOffset ≤ h.count - h.rows := by
  intro h t
  have shows : Shows h t := Shows.run calls
  have count := shows.count
  have lines : t.lines.length = t.past.length + 1 := rfl
  have ring : 0 < historyLines := by decide
  refine ⟨fun row inside => shows.viewportLine inside,
    ⟨count, fun distance inside => shows.retained inside⟩,
    shows.within, shows.bounded, shows.head, ?_, ?_, shows.lengths, shows.view⟩ <;> omega

/-- A line that wraps, a line feed and a scrolled view. -/
example :
    let h := [.configure 3 1, .write [0x61, 0x62, 0x63, 0x64, 0x0d, 0x0a, 0x65], .pageUp].foldl
      ConsoleHistory.call .new
    h.viewportLine 0 = some ⟨[0x64], true⟩ := by
  decide +kernel

end Promptboot
