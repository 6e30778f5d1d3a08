import Promptboot.Repl.History
import Promptboot.Repl.RenderInto

/-!
# Three cursors

The status console follows the cursor three times (`status_bar.rs`): `native_scrolls_for_output`
foretells the scrolls of the screen, `write_content_with_wrap` breaks the lines it sends, and the
scroll-back keeps a column of its own.

`Follows` relates the foretold cursor to a terminal of the screen's width, with one lemma per unit
(`Follows.unit`); `Wraps` is the invariant of the loop that breaks lines. `Shows.cursor_row` reads
the row off the scroll-back. The headline `console_cursors_agree` is about all three after any
outputs.
-/

namespace Promptboot

def boundedStatusGeometry (columns rows : Nat) : Option (Nat × Nat) :=
  if columns < 2 ∨ rows < 2 then none else some (min columns maxColumns, rows)

/-- The variables of `native_scrolls_for_output`. -/
structure NativeCursor where
  column : Nat
  row : Nat
  scrolls : Nat

namespace NativeCursor

/-- `row += 1`, with a scroll past the last row. -/
def down (contentRows : Nat) (cursor : NativeCursor) : NativeCursor :=
  if contentRows ≤ cursor.row + 1 then
    { cursor with row := contentRows - 1, scrolls := cursor.scrolls + 1 }
  else
    { cursor with row := cursor.row + 1 }

def unit (width contentRows : Nat) (cursor : NativeCursor) (unit : UInt16) : NativeCursor :=
  if unit = 0x0008 then
    { cursor with column := cursor.column - 1 }
  else if unit = 0x000d then
    { cursor with column := 0 }
  else if unit = 0x000a then
    cursor.down contentRows
  else if cursor.column + 1 = width then
    down contentRows { cursor with column := 0 }
  else
    { cursor with column := cursor.column + 1 }

def output (width contentRows : Nat) (cursor : NativeCursor) (units : List UInt16) :
    NativeCursor :=
  units.foldl (unit width contentRows) cursor

end NativeCursor

def nativeScrollsForOutput (units : List UInt16) (column row width contentRows : Nat) :
    Option Nat :=
  if width = 0 ∨ contentRows = 0 ∨ width ≤ column ∨ contentRows ≤ row then
    none
  else
    some (NativeCursor.output width contentRows ⟨column, row, 0⟩ units).scrolls

section Wrap

variable {σ : Type} (units : List UInt16) (width : Nat) (output : σ → List UInt16 → σ × Nat)

/-- The loop of `write_content_with_wrap` over the units from `index`: the column and `start` it
ends with, or the status of the output that failed. -/
def wrapLoop : List UInt16 → (index column start : Nat) → σ → σ × Except Nat (Nat × Nat)
  | [], _, column, start, state => (state, .ok (column, start))
  | unit :: rest, index, column, start, state =>
    if unit = 0x0008 then
      wrapLoop rest (index + 1) (column - 1) start state
    else if unit = 0x000d then
      wrapLoop rest (index + 1) 0 start state
    else if unit = 0x000a then
      wrapLoop rest (index + 1) column start state
    else if column + 1 = width then
      let (state, status) := output state ((units.take (index + 1)).drop start)
      if status ≠ 0 then
        (state, .error status)
      else
        let (state, status) := output state [0x000d, 0x000a]
        if status ≠ 0 then
          (state, .error status)
        else
          wrapLoop rest (index + 1) 0 (index + 1) state
    else
      wrapLoop rest (index + 1) (column + 1) start state

/-- `write_content_with_wrap`, with the state of its `output`. -/
def writeContentWithWrap (column : Nat) (state : σ) : σ × Except Nat Nat :=
  if width = 0 ∨ width ≤ column then
    (state, .error (2 ^ 64 - 1))
  else
    match wrapLoop units width output units 0 column 0 state with
    | (state, .error status) => (state, .error status)
    | (state, .ok (column, start)) =>
      if start < units.length then
        let (state, status) := output state (units.drop start)
        if status ≠ 0 then (state, .error status) else (state, .ok column)
      else
        (state, .ok column)

end Wrap

/-- A line feed in front has its return before it. -/
lemma Returned.head {flag : Bool} {unit : UInt16} {units : List UInt16}
    (returned : Returned flag (unit :: units)) (feed : unit = lineFeed) : flag = true := by
  rcases returned 0 (congrArg some feed) with ⟨-, flag⟩ | ⟨j, zero, -⟩
  · exact flag
  · cases zero

/-- The rest goes on behind the first unit. -/
lemma Returned.tail {flag : Bool} {unit : UInt16} {units : List UInt16}
    (returned : Returned flag (unit :: units)) : Returned (unit == carriageReturn) units := by
  intro i feed
  rcases returned (i + 1) feed with ⟨zero, -⟩ | ⟨j, same, before⟩
  · cases zero
  · obtain rfl : i = j := Nat.succ.inj same
    cases i with
    | zero => exact .inl ⟨rfl, beq_iff_eq.mpr (Option.some.inj before)⟩
    | succ i => exact .inr ⟨i, rfl, before⟩

namespace ConsoleHistory

variable {h : ConsoleHistory}

/-- The status console leaves a column and a row of the screen to itself. -/
lemma configure_status {physicalColumns physicalRows columns rows : Nat}
    (geometry : boundedStatusGeometry physicalColumns physicalRows = some (columns, rows)) :
    (h.configure (columns - 1) (rows - 1)).width = columns - 1 ∧
      (h.configure (columns - 1) (rows - 1)).rows = rows - 1 := by
  rw [boundedStatusGeometry] at geometry
  split_ifs at geometry with small
  cases geometry
  show min (max _ 1) maxColumns = _ ∧ max _ 1 = _
  unfold maxColumns
  omega

/-- Where a unit leaves the column. -/
lemma column_writeUnit (unit : UInt16) : (h.writeUnit unit).column =
    if unit = 0x0008 then h.column - 1
    else if unit = 0x000d ∨ unit = 0x000a ∨ h.column + 1 = h.width then 0
    else h.column + 1 := by
  by_cases backspace : unit = 0x0008
  · rw [writeUnit, if_pos backspace, if_pos backspace]
  rw [if_neg backspace]
  by_cases carriage : unit = 0x000d
  · rw [writeUnit, if_neg backspace, if_pos carriage, if_pos (.inl carriage)]
  by_cases feed : unit = 0x000a
  · rw [writeUnit, if_neg backspace, if_neg carriage, if_pos feed, if_pos (.inr (.inl feed))]
    rfl
  rw [Shows.writeUnit_put backspace carriage feed]
  by_cases wraps : h.column + 1 = h.width
  · rw [if_pos wraps, if_pos (.inr (.inr wraps))]
    rfl
  · rw [if_neg wraps, if_neg (by tauto)]
    rfl

/-- A return leaves the column at zero. -/
lemma column_return (unit : UInt16) (returns : (unit == carriageReturn) = true) :
    (h.writeUnit unit).column = 0 := by
  rw [beq_iff_eq.mp returns]
  rfl

/-- Writing keeps the geometry and the view. -/
lemma writeUnit_kept (unit : UInt16) : (h.writeUnit unit).width = h.width ∧
    (h.writeUnit unit).rows = h.rows ∧ (h.writeUnit unit).viewOffset = h.viewOffset := by
  rw [writeUnit]
  dsimp only
  split_ifs <;> exact ⟨rfl, rfl, rfl⟩

end ConsoleHistory

/-- The cursor follows the history from a row, with some lines past. -/
structure Follows (h : ConsoleHistory) (t : Terminal) (start past : Nat) (cursor : NativeCursor) :
    Prop where
  shows : Shows h t
  past_le : past ≤ t.past.length
  column : cursor.column = h.column
  row : cursor.row = min (start + (t.past.length - past)) (h.rows - 1)
  scrolls : cursor.scrolls = start + (t.past.length - past) - (h.rows - 1)

namespace Follows

variable {h h' : ConsoleHistory} {t t' : Terminal} {start past : Nat} {cursor : NativeCursor}

/-- A unit that stays in the line. -/
lemma stay (follows : Follows h t start past cursor) {column : Nat} (shows : Shows h' t')
    (rows : h'.rows = h.rows) (same : t'.past = t.past) (at_column : column = h'.column) :
    Follows h' t' start past { cursor with column } where
  shows := shows
  past_le := same ▸ follows.past_le
  column := at_column
  row := by
    rw [rows, same]
    exact follows.row
  scrolls := by
    rw [rows, same]
    exact follows.scrolls

/-- A unit that ends the line. -/
lemma down (follows : Follows h t start past cursor) (column : Nat) (shows : Shows h' t')
    (rows : h'.rows = h.rows) (more : t'.past.length = t.past.length + 1)
    (at_column : column = h'.column) :
    Follows h' t' start past (NativeCursor.down h.rows { cursor with column }) := by
  have row := follows.row
  have scrolls := follows.scrolls
  have past_le := follows.past_le
  have positive := follows.shows.rows
  rw [NativeCursor.down]
  split_ifs with last <;> refine ⟨shows, by omega, at_column, ?_, ?_⟩ <;> rw [rows, more] <;>
    dsimp only at last ⊢ <;> omega

/-- A unit moves the cursor as it moves the scroll-back and the terminal. -/
lemma unit (follows : Follows h t start past cursor) (unit : UInt16)
    (returned : unit = lineFeed → h.column = 0) :
    Follows (h.writeUnit unit) (t.writeUnit unit) start past
      (cursor.unit h.width h.rows unit) := by
  have shows := follows.shows.writeUnit unit
  have rows := (ConsoleHistory.writeUnit_kept (h := h) unit).2.1
  have column := ConsoleHistory.column_writeUnit (h := h) unit
  have width := follows.shows.width
  have t_column := follows.shows.column
  rw [NativeCursor.unit, follows.column]
  by_cases backspace : unit = 0x0008
  · rw [if_pos backspace] at column ⊢
    exact follows.stay shows rows (by rw [Terminal.writeUnit, if_pos backspace]) column.symm
  rw [if_neg backspace] at column ⊢
  by_cases carriage : unit = 0x000d
  · rw [if_pos (.inl carriage)] at column
    rw [if_pos carriage]
    refine follows.stay shows rows ?_ column.symm
    rw [Terminal.writeUnit, if_neg backspace, if_pos carriage]
  rw [if_neg carriage]
  by_cases feed : unit = 0x000a
  -- a line feed leaves the column of the screen alone, but a return stands before it
  · rw [if_pos (.inr (.inl feed))] at column
    rw [if_pos feed]
    have zero : cursor.column = 0 := follows.column.trans (returned feed)
    refine follows.down cursor.column shows rows ?_ (zero.trans column.symm)
    rw [Terminal.writeUnit, if_neg backspace, if_neg carriage, if_pos feed]
    rfl
  rw [if_neg feed]
  by_cases wraps : h.column + 1 = h.width
  · rw [if_pos (.inr (.inr wraps))] at column
    rw [if_pos wraps]
    refine follows.down 0 shows rows ?_ column.symm
    rw [t_column, width] at wraps
    rw [Terminal.writeUnit, if_neg backspace, if_neg carriage, if_neg feed, if_pos wraps]
    rfl
  · rw [if_neg (by tauto)] at column
    rw [if_neg wraps]
    refine follows.stay shows rows ?_ column.symm
    rw [t_column, width] at wraps
    rw [Terminal.writeUnit, if_neg backspace, if_neg carriage, if_neg feed, if_neg wraps]
    rfl

/-- All the units of an output. -/
lemma run {flag : Bool} {units : List UInt16} (follows : Follows h t start past cursor)
    (at_start : flag = true → h.column = 0) (returned : Returned flag units) :
    Follows (h.write units) (units.foldl Terminal.writeUnit t) start past
      (cursor.output h.width h.rows units) := by
  induction units generalizing h t cursor flag with
  | nil => exact follows
  | cons unit units ih =>
    obtain ⟨width, rows, -⟩ := ConsoleHistory.writeUnit_kept (h := h) unit
    have first := follows.unit unit fun feed => at_start (returned.head feed)
    have rest := ih first (ConsoleHistory.column_return unit) returned.tail
    rw [width, rows] at rest
    exact rest

end Follows

/-- Pieces that make up the text, among carriage returns with line feeds, which are marked. -/
structure Wraps (units : List UInt16) (pieces : List (List UInt16 × Bool)) : Prop where
  inserted : ∀ piece ∈ pieces, piece.2 = true → piece.1 = [0x000d, 0x000a]
  kept : ((pieces.filter fun piece => !piece.2).map Prod.fst).flatten = units

section Wrap

variable {σ : Type} {units : List UInt16} {output : σ → List UInt16 → σ × Nat}

/-- The state that the outputs leave. -/
def outputs (output : σ → List UInt16 → σ × Nat) (state : σ)
    (pieces : List (List UInt16 × Bool)) : σ :=
  pieces.foldl (fun state piece => (output state piece.1).1) state

/-- An output of a slice and a new line, before the pieces of the next slices. -/
lemma Wraps.cons {pieces : List (List UInt16 × Bool)} {start middle stop : Nat}
    (wraps : Wraps ((units.take stop).drop middle) pieces) (start_le : start ≤ middle)
    (middle_le : middle ≤ stop) (stop_le : stop ≤ units.length) :
    Wraps ((units.take stop).drop start)
      (((units.take middle).drop start, false) :: ([0x000d, 0x000a], true) :: pieces) where
  inserted piece mem marked := by
    rcases List.mem_cons.mp mem with rfl | mem
    · cases marked
    rcases List.mem_cons.mp mem with rfl | mem
    · rfl
    · exact wraps.inserted piece mem marked
  kept := by
    have inside : start ≤ (units.take middle).length := by
      rw [List.length_take]
      omega
    have split : units.take stop = units.take middle ++ (units.take stop).drop middle := by
      have parts := List.take_append_drop middle (units.take stop)
      rw [List.take_take, Nat.min_eq_left middle_le] at parts
      exact parts.symm
    show (units.take middle).drop start ++ (List.map Prod.fst (pieces.filter _)).flatten = _
    rw [wraps.kept, ← List.drop_append_of_le_length inside, ← split]

/-- The loop keeps the column of the history, and sends the units up to where it starts again. -/
lemma wrapLoop_column (succeeds : ∀ state piece, (output state piece).2 = 0) {h : ConsoleHistory}
    {flag : Bool} {front rest : List UInt16} {start : Nat} (state : σ)
    (whole : front ++ rest = units) (start_le : start ≤ front.length)
    (at_start : flag = true → h.column = 0) (returned : Returned flag rest) :
    ∃ pieces stop, wrapLoop units h.width output rest front.length h.column start state =
        (outputs output state pieces, .ok ((h.write rest).column, stop)) ∧
      Wraps ((units.take stop).drop start) pieces ∧ start ≤ stop ∧ stop ≤ units.length := by
  induction rest generalizing h flag front start state with
  | nil =>
    rw [List.append_nil] at whole
    rw [whole] at start_le
    refine ⟨[], start, rfl, ⟨nofun, ?_⟩, Nat.le_refl start, start_le⟩
    exact (List.drop_eq_nil_of_le (List.length_take_le ..)).symm
  | cons unit rest ih =>
    have width := (ConsoleHistory.writeUnit_kept (h := h) unit).1
    have column := ConsoleHistory.column_writeUnit (h := h) unit
    have on : front ++ [unit] ++ rest = units := by rw [List.append_assoc, ← whole]; rfl
    have length : (front ++ [unit]).length = front.length + 1 := List.length_append
    have next {start : Nat} (state : σ) (start_le : start ≤ front.length + 1) :=
      ih (h := h.writeUnit unit) state on (length ▸ start_le)
        (ConsoleHistory.column_return unit) returned.tail
    rw [width, length] at next
    have stay := next state (Nat.le_succ_of_le start_le)
    rw [wrapLoop]
    by_cases backspace : unit = 0x0008
    · rw [if_pos backspace] at column ⊢
      rw [← column]
      exact stay
    rw [if_neg backspace] at column ⊢
    by_cases carriage : unit = 0x000d
    · rw [if_pos (.inl carriage)] at column
      rw [if_pos carriage, ← column]
      exact stay
    rw [if_neg carriage]
    by_cases feed : unit = 0x000a
    · rw [if_pos (.inr (.inl feed))] at column
      rw [if_pos feed, at_start (returned.head feed), ← column]
      exact stay
    rw [if_neg feed]
    -- a unit in the last column lets out what was held back, and a line break
    by_cases ends : h.column + 1 = h.width
    · rw [if_pos (.inr (.inr ends))] at column
      rw [if_pos ends]
      obtain ⟨pieces, stop, ran, wraps, middle_le, stop_le⟩ :=
        next (output (output state ((units.take (front.length + 1)).drop start)).1
          [0x000d, 0x000a]).1 (Nat.le_refl _)
      refine ⟨_, stop, ?_, wraps.cons (Nat.le_succ_of_le start_le) middle_le stop_le,
        by omega, stop_le⟩
      dsimp only
      rw [if_neg (not_not.mpr (succeeds _ _)), if_neg (not_not.mpr (succeeds _ _)), ← column]
      exact ran
    · rw [if_neg (by tauto)] at column
      rw [if_neg ends, ← column]
      exact stay

/-- A wrapped output ends in the column of the scroll-back. -/
lemma writeContentWithWrap_column (succeeds : ∀ state piece, (output state piece).2 = 0)
    {h : ConsoleHistory} (state : σ) (within : h.column < h.width)
    (returned : Returned false units) :
    ∃ pieces, Wraps units pieces ∧ writeContentWithWrap units h.width output h.column state =
      (outputs output state pieces, .ok (h.write units).column) := by
  obtain ⟨pieces, stop, ran, wraps, -, stop_le⟩ := wrapLoop_column succeeds state
    (List.nil_append units) (Nat.le_refl 0) (absurd · Bool.false_ne_true)
    returned
  rw [writeContentWithWrap, if_neg (by omega)]
  rw [List.drop_zero] at wraps
  change wrapLoop units h.width output units 0 h.column 0 state = _ at ran
  rw [ran]
  dsimp only
  by_cases more : stop < units.length
  · rw [if_pos more, if_neg (not_not.mpr (succeeds _ _))]
    refine ⟨pieces ++ [(units.drop stop, false)], ⟨fun piece mem marked => ?_, ?_⟩, ?_⟩
    · rcases List.mem_append.mp mem with mem | mem
      · exact wraps.inserted piece mem marked
      · rw [List.mem_singleton.mp mem] at marked
        cases marked
    · rw [List.filter_append, List.map_append, List.flatten_append, wraps.kept]
      show _ ++ (units.drop stop ++ []) = units
      rw [List.append_nil, List.take_append_drop]
    · rw [outputs, outputs, List.foldl_append]
      rfl
  · rw [if_neg more]
    rw [List.take_of_length_le (Nat.not_lt.mp more)] at wraps
    exact ⟨pieces, wraps, rfl⟩

end Wrap

section Agree

variable {h : ConsoleHistory} {t : Terminal}

/-- Not scrolled back, the cursor stands below the lines that are past. -/
lemma Shows.cursor_row (shows : Shows h t) (unscrolled : h.viewOffset = 0)
    (fits : h.rows ≤ historyLines) :
    h.viewportCursor = some (h.column, min t.past.length (h.rows - 1)) := by
  have count := shows.count
  have rows := shows.rows
  have lines : t.lines.length = t.past.length + 1 := rfl
  have len : h.viewportLen - 1 = min t.past.length (h.rows - 1) := by
    rw [ConsoleHistory.viewportLen]
    omega
  rw [ConsoleHistory.viewportCursor, if_neg (not_not.mpr unscrolled), len]

/-- A text leaves the geometry and the view. -/
lemma write_kept (units : List UInt16) : (h.write units).width = h.width ∧
    (h.write units).rows = h.rows ∧ (h.write units).viewOffset = h.viewOffset := by
  induction units generalizing h with
  | nil => exact ⟨rfl, rfl, rfl⟩
  | cons unit units ih =>
    obtain ⟨width, rows, view⟩ := ConsoleHistory.writeUnit_kept (h := h) unit
    obtain ⟨width', rows', view'⟩ := ih (h := h.writeUnit unit)
    exact ⟨width'.trans width, rows'.trans rows, view'.trans view⟩

end Agree

/-- An output on a console that is not scrolled back, whatever its geometry: the scroll-back, the
wrapped output and the foretold scrolls agree on where the cursor ends. -/
theorem console_cursors_agree {σ : Type} (output : σ → List UInt16 → σ × Nat) (state : σ)
    (succeeds : ∀ state piece, (output state piece).2 = 0) (calls : List HistoryCall)
    (units : List UInt16) (h : ConsoleHistory) (t : Terminal)
    (reached : h = calls.foldl ConsoleHistory.call .new)
    (reference : t = calls.foldl Terminal.call .new)
    (unscrolled : h.viewOffset = 0) (fits : h.rows ≤ historyLines)
    (returned : Returned false units) :
    (∃ pieces, Wraps units pieces ∧ writeContentWithWrap units h.width output h.column state =
      (outputs output state pieces, .ok (h.write units).column)) ∧
    ∃ row, h.viewportCursor = some (h.column, row) ∧
      nativeScrollsForOutput units h.column row h.width h.rows =
        some (row + ((units.foldl Terminal.writeUnit t).past.length - t.past.length)
          - (h.rows - 1)) ∧
      (h.write units).viewportCursor = some ((h.write units).column,
        (NativeCursor.output h.width h.rows ⟨h.column, row, 0⟩ units).row) := by
  have shows : Shows h t := by
    rw [reached, reference]
    exact Shows.run calls
  have rows := shows.rows
  have within := shows.within
  obtain ⟨-, kept, view⟩ := write_kept (h := h) units
  have start : Follows h t (min t.past.length (h.rows - 1)) t.past.length
      ⟨h.column, min t.past.length (h.rows - 1), 0⟩ :=
    ⟨shows, Nat.le_refl _, rfl, by dsimp only; omega, by dsimp only; omega⟩
  have stop := start.run (absurd · Bool.false_ne_true) returned
  refine ⟨writeContentWithWrap_column succeeds state shows.within returned, _,
    shows.cursor_row unscrolled fits, ?_, ?_⟩
  · rw [nativeScrollsForOutput, if_neg (by omega), stop.scrolls, kept]
  · rw [stop.shows.cursor_row (view.trans unscrolled) (kept ▸ fits), stop.row]
    have past_le := stop.past_le
    congr 2
    omega

/-- Four letters and a line end on a console of three columns and two rows. -/
theorem console_cursors_agree_wrapped :
    let calls := [HistoryCall.configure 3 2]
    let h := calls.foldl ConsoleHistory.call .new
    let t := calls.foldl Terminal.call .new
    let units := withReturns false [0x61, 0x62, 0x63, 0x64, 0x0a]
    let output := fun (sent piece : List UInt16) => (sent ++ piece, 0)
    (∃ pieces, Wraps units pieces ∧ writeContentWithWrap units h.width output h.column [] =
      (outputs output [] pieces, .ok (h.write units).column)) ∧
    ∃ row, h.viewportCursor = some (h.column, row) ∧
      nativeScrollsForOutput units h.column row h.width h.rows =
        some (row + ((units.foldl Terminal.writeUnit t).past.length - t.past.length)
          - (h.rows - 1)) ∧
      (h.write units).viewportCursor = some ((h.write units).column,
        (NativeCursor.output h.width h.rows ⟨h.column, row, 0⟩ units).row) :=
  console_cursors_agree (fun sent piece => (sent ++ piece, 0)) [] (fun _ _ => rfl)
    [.configure 3 2] _ _ _ rfl rfl rfl (by decide) (withReturns_returned false _)

end Promptboot
