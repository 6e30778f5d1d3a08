import Promptboot.Repl.ScreenPaint
import Promptboot.Repl.ScreenProjects

/-!
# The screen is a window on the session

Whatever the session writes, however it pages and whenever the status row changes: as long as the
firmware's calls succeed, the screen shows the status row and below it the lines of a terminal that
keeps every line, as far from its bottom as the user has scrolled.

Each operation of the session has a lemma that it keeps `Painted` (`outputContent_ok`,
`scrollConsolePage_ok`, `resetConsoleHistory_ok`, `renderStatusAscii_ok`), and
`initializeModelStatus_ok` is the start. `ConsoleOp.forM_ok` is the induction. The headline
`screen_shows_session` goes from the firmware's screen to the text screen by the projections.
-/

namespace Promptboot
open TextScreen (Plain console)

/-- The status row has its columns and its text still. -/
def SameStatus (s u : ScreenState) : Prop := u.status = s.status ∧ u.statusRow = s.statusRow

section Bottom
variable {conout : Nat → ConoutReply TextScreen} {base : Nat} {t : Terminal} {s u : ScreenState}
  {units : List UInt16}

/-- The two ways of `console_output_utf16` draw the same. -/
lemma outputContent_ok {column width : Nat} (whole : 0 ∉ units)
    (run : outputContent console conout units column width s = (.ok (), u)) :
    Draws (fun screen => screen.write (wrapped width column units)) s u := by
  unfold outputContent at run
  split at run
  case isTrue =>
    obtain ⟨next, _, first, run⟩ := Fallible.bind_eq_ok run
    obtain ⟨_, _, got, run⟩ := Fallible.bind_eq_ok run
    cases got
    obtain ⟨_, _, moved, run⟩ := Fallible.bind_eq_ok run
    obtain ⟨_, _, second, run⟩ := Fallible.bind_eq_ok run
    cases run
    obtain ⟨rfl, head⟩ := rawContentUtf16_ok (fun mem => whole (List.mem_of_mem_take mem)) first
    obtain ⟨-, tail⟩ := rawContentUtf16_ok (fun mem => whole (List.mem_of_mem_drop mem)) second
    obtain ⟨calls, drew⟩ := (head.trans (setConsoleCursor_ok moved)).trans tail
    refine ⟨calls, drew.trans ?_⟩
    obtain ⟨_, rfl⟩ := head
    have stays (screen : TextScreen) :
        screen.moveTo (console.column screen) (console.row screen) = screen := rfl
    dsimp only
    rw [stays, ← TextScreen.write_append, ← wrapped_append, List.take_append_drop]
  case isFalse =>
    obtain ⟨_, _, first, run⟩ := Fallible.bind_eq_ok run
    cases run
    exact (rawContentUtf16_ok whole first).2

/-- On a history at its bottom the screen follows the terminal. -/
lemma Painted.tracks (painted : Painted base t s) (unscrolled : s.history.viewOffset = 0) :
    Tracks base t s.screen ∧ s.screen.row - 1 = min t.past.length (s.history.rows - 1) ∧
      s.history.column = s.screen.column := by
  have shows := painted.shows
  have at_ := shows.cursor_row unscrolled painted.ring
  rw [painted.cursor] at at_
  obtain ⟨column, row⟩ := Prod.mk.inj (Option.some.inj at_)
  have rows := painted.rows
  have some_rows := shows.rows
  have columns := painted.columns
  have fits := painted.fits
  have below := painted.below
  have bottom : s.history.viewportLen - 1 = min t.past.length (s.screen.rows - 2) := by
    have count := shows.count
    have lines : t.lines.length = t.past.length + 1 := rfl
    have ring := painted.ring
    rw [ConsoleHistory.viewportLen]
    omega
  refine ⟨⟨?_, by omega, painted.attr, ?_, ?_, fun r low c inside => ?_⟩, row, column.symm⟩
  · rw [← shows.width]
    omega
  · exact column.trans shows.column
  · omega
  · rw [painted.content r (by omega) c (shows.width ▸ inside), unscrolled, bottom]

/-- An empty line is clean. -/
lemma clean_nil : ∀ unit ∈ ([] : List UInt16), Plain unit ∧ unit ≠ 0 :=
  fun _ mem => absurd mem List.not_mem_nil

/-- An empty terminal is clean. -/
lemma clean_empty (width : Nat) :
    ∀ line ∈ (Terminal.mk width [] 0 []).lines, ∀ unit ∈ line.units, Plain unit ∧ unit ≠ 0 :=
  List.forall_mem_cons.2 ⟨clean_nil, fun _ mem => absurd mem List.not_mem_nil⟩

/-- A unit that is not zero keeps the lines clean. -/
lemma clean_writeUnit (plain : ∀ line ∈ t.lines, ∀ unit ∈ line.units, Plain unit ∧ unit ≠ 0)
    {unit : UInt16} (some : unit ≠ 0) :
    ∀ line ∈ (t.writeUnit unit).lines, ∀ unit ∈ line.units, Plain unit ∧ unit ≠ 0 := by
  obtain ⟨current, past⟩ := List.forall_mem_cons.1 plain
  rw [Terminal.writeUnit]
  by_cases backspace : unit = 0x0008
  · rw [if_pos backspace]
    exact plain
  by_cases carriage : unit = 0x000d
  · rw [if_neg backspace, if_pos carriage]
    exact plain
  by_cases feed : unit = 0x000a
  · rw [if_neg backspace, if_neg carriage, if_pos feed]
    exact List.forall_mem_cons.2 ⟨clean_nil, List.forall_mem_cons.2 ⟨current, past⟩⟩
  have put : ∀ u ∈ (t.put unit).current, Plain u ∧ u ≠ 0 := by
    intro u mem
    change u ∈ (if t.column < t.current.length then t.current.set t.column unit
      else t.current ++ [unit]) at mem
    have either : u ∈ t.current ∨ u = unit := by
      split at mem
      · exact List.mem_or_eq_of_mem_set mem
      · exact (List.mem_append.1 mem).imp_right List.mem_singleton.1
    rcases either with old | rfl
    · exact current u old
    · exact ⟨⟨backspace, carriage, feed⟩, some⟩
  rw [if_neg backspace, if_neg carriage, if_neg feed]
  split
  · exact List.forall_mem_cons.2 ⟨clean_nil, List.forall_mem_cons.2 ⟨put, past⟩⟩
  · exact List.forall_mem_cons.2 ⟨put, past⟩

/-- A text without zeros keeps the lines clean. -/
lemma clean_writeUnits (plain : ∀ line ∈ t.lines, ∀ unit ∈ line.units, Plain unit ∧ unit ≠ 0)
    (whole : 0 ∉ units) :
    ∀ line ∈ (units.foldl Terminal.writeUnit t).lines, ∀ unit ∈ line.units,
      Plain unit ∧ unit ≠ 0 := by
  induction units generalizing t with
  | nil => exact plain
  | cons unit units ih =>
    rw [List.mem_cons, not_or] at whole
    exact ih (clean_writeUnit plain (Ne.symm whole.1)) whole.2

/-- An output on a history at its bottom. -/
lemma outputAtBottom_ok {flag : Bool} (painted : Painted base t s)
    (unscrolled : s.history.viewOffset = 0) (whole : 0 ∉ units)
    (at_start : flag = true → s.history.column = 0) (returned : Returned flag units)
    (run : outputAtBottom console conout units s = (.ok (), u)) :
    Painted base (units.foldl Terminal.writeUnit t) u ∧
      u.history = s.history.write units ∧ SameStatus s u := by
  obtain ⟨tracks, bottom, column⟩ := painted.tracks unscrolled
  have shows := painted.shows
  obtain ⟨kept_width, kept_rows, kept_view⟩ := write_kept (h := s.history) units
  obtain ⟨_, _, got, rest⟩ := Fallible.bind_eq_ok run
  cases got
  rw [painted.active] at rest
  obtain ⟨cursor, _, at_, rest⟩ := Fallible.bind_eq_ok rest
  unfold viewportCursor at at_
  rw [Fallible.lift_apply, painted.cursor] at at_
  cases at_
  -- the scrolls that are foretold are those of the terminal
  have rows := shows.rows
  have below := painted.below
  have screen_rows := painted.rows
  have within := shows.within
  have start : Follows s.history t (min t.past.length (s.history.rows - 1)) t.past.length
      ⟨s.screen.column, s.screen.row - 1, 0⟩ :=
    ⟨shows, Nat.le_refl _, column.symm, by dsimp only; omega, by dsimp only; omega⟩
  have stop := start.run at_start returned
  have foretold : nativeScrollsForOutput units s.screen.column (s.screen.row - 1) s.history.width
      s.history.rows = some (NativeCursor.output s.history.width s.history.rows
        ⟨s.screen.column, s.screen.row - 1, 0⟩ units).scrolls := by
    rw [nativeScrollsForOutput, if_neg (by omega)]
  dsimp only at rest
  rw [foretold] at rest
  dsimp only at rest
  have scrolls := stop.scrolls
  generalize (NativeCursor.output s.history.width s.history.rows
    ⟨s.screen.column, s.screen.row - 1, 0⟩ units).scrolls = scrolled at scrolls rest
  obtain ⟨_, _, wrote, rest⟩ := Fallible.bind_eq_ok rest
  cases wrote
  obtain ⟨_, _, moved, rest⟩ := Fallible.bind_eq_ok rest
  obtain ⟨_, _, sent, rest⟩ := Fallible.bind_eq_ok rest
  have here : s.screen.row - 1 + 1 = s.screen.row := by omega
  have stays : s.screen.moveTo s.screen.column (s.screen.row - 1 + 1) = s.screen := by
    rw [here]
    rfl
  obtain ⟨calls, rfl⟩ := (setConsoleCursor_ok moved).trans (outputContent_ok whole sent)
  dsimp only at rest sent
  rw [stays] at rest
  have at_start' : flag = true → t.column = 0 := fun set => shows.column ▸ at_start set
  obtain ⟨follows, above⟩ := tracks.run shows at_start' returned
  rw [← shows.width, ← shows.column, column] at follows above
  have width := painted.columns
  have fits := painted.fits
  have fitted : Fitted base (units.foldl Terminal.writeUnit t)
      { s with
        screen := s.screen.write (wrapped s.history.width s.screen.column units)
        calls
        history := s.history.write units } := by
    constructor
    case active => exact painted.active
    case columns => exact (congrArg (· + 1) kept_width).trans width
    case fits =>
      have room := follows.width
      rw [← stop.shows.width, kept_width] at room
      dsimp only
      omega
    case rows =>
      dsimp only
      rw [kept_rows, TextScreen.rows_write]
      exact screen_rows
    case ring => exact kept_rows ▸ painted.ring
    case attr => exact follows.attr
    case shows => exact stop.shows
    case plain => exact clean_writeUnits painted.plain whole
  have at_bottom : (s.history.write units).viewOffset = 0 := kept_view.trans unscrolled
  have last : (s.history.write units).viewportLen - 1 =
      min (units.foldl Terminal.writeUnit t).past.length (s.screen.rows - 2) := by
    have count := stop.shows.count
    have lines : (units.foldl Terminal.writeUnit t).lines.length =
        (units.foldl Terminal.writeUnit t).past.length + 1 := rfl
    have ring := painted.ring
    rw [ConsoleHistory.viewportLen]
    omega
  have follows_row := follows.row
  rw [TextScreen.rows_write] at follows_row
  have content : ∀ r < (s.history.write units).rows, ∀ c < (s.history.write units).width,
      (s.screen.write (wrapped s.history.width s.screen.column units)).cells (r + 1) c =
        ⟨(units.foldl Terminal.writeUnit t).window (s.history.write units).viewOffset
          ((s.history.write units).viewportLen - 1) r c, base⟩ := by
    intro r low c inside
    have shown := follows.content r (by rw [TextScreen.rows_write]; omega) c
      (stop.shows.width ▸ inside)
    rw [shown, TextScreen.rows_write, at_bottom, last]
  have cursor : (s.history.write units).viewportCursor =
      some ((s.screen.write (wrapped s.history.width s.screen.column units)).column,
        (s.screen.write (wrapped s.history.width s.screen.column units)).row - 1) := by
    rw [stop.shows.cursor_row at_bottom (kept_rows ▸ painted.ring), follows.column,
      ← stop.shows.column, follows_row, kept_rows]
    congr 2
    omega
  have lower : 1 ≤ (s.screen.write (wrapped s.history.width s.screen.column units)).row := by
    rw [follows_row]
    exact Nat.le_add_left 1 _
  by_cases calm : scrolled = 0
  -- no line has left the screen, so the status row is still there
  · rw [if_pos calm] at rest
    cases rest
    refine ⟨⟨fitted, painted.statusRow, fun c inside => ?_, content, lower, cursor⟩, rfl, rfl, rfl⟩
    have same := above (by omega)
    dsimp only at inside ⊢
    rw [kept_width] at inside
    rw [same]
    exact painted.status c inside
  · rw [if_neg calm] at rest
    obtain ⟨calls', rfl⟩ := restoreStatusRow_ok fitted painted.statusRow rest
    exact ⟨fitted.painted painted.statusRow content lower cursor, rfl, rfl, rfl⟩

end Bottom

section Calls
variable {conout : Nat → ConoutReply TextScreen} {base : Nat} {t : Terminal} {s u : ScreenState}
  {units : List UInt16}

/-- Another view of the same lines. -/
lemma Fitted.viewed (fitted : Fitted base t s) {h : ConsoleHistory} (shows : Shows h t)
    (width : h.width = s.history.width) (rows : h.rows = s.history.rows) :
    Fitted base t { s with history := h } where
  active := fitted.active
  columns := (congrArg (· + 1) width).trans fitted.columns
  fits := fitted.fits
  rows := (congrArg (· + 1) rows).trans fitted.rows
  ring := rows ▸ fitted.ring
  attr := fitted.attr
  shows := shows
  plain := fitted.plain

/-- A console output that succeeds leaves the view painted. -/
lemma consoleOutputUtf16_ok {flag : Bool} (painted : Painted base t s) (whole : 0 ∉ units)
    (at_start : flag = true → s.history.column = 0) (returned : Returned flag units)
    (run : consoleOutputUtf16 console conout units s = (.ok (), u)) :
    Painted base (units.foldl Terminal.writeUnit t) u ∧
      u.history = s.history.returnToBottom.write units ∧ SameStatus s u := by
  obtain ⟨_, _, got, rest⟩ := Fallible.bind_eq_ok run
  cases got
  obtain ⟨_, _, returned', rest⟩ := Fallible.bind_eq_ok rest
  cases returned'
  obtain ⟨_, v, redrawn, rest⟩ := Fallible.bind_eq_ok rest
  have returns : Painted base t v ∧ v.history = s.history.returnToBottom ∧ SameStatus s v := by
    by_cases scrolled : s.history.viewOffset ≠ 0
    · rw [if_pos scrolled] at redrawn
      have fitted := painted.toFitted.viewed (painted.shows.call .returnToBottom) rfl rfl
      obtain ⟨drawn, _, _, rfl⟩ := redrawConsoleHistory_ok fitted painted.statusRow redrawn
      exact ⟨drawn, rfl, rfl, rfl⟩
    · rw [if_neg scrolled] at redrawn
      cases redrawn
      have same : s.history.returnToBottom = s.history := by
        rw [ConsoleHistory.returnToBottom, ← not_not.1 scrolled]
      dsimp only
      rw [same]
      exact ⟨painted, rfl, rfl, rfl⟩
  obtain ⟨before, history, status, row⟩ := returns
  have column : flag = true → v.history.column = 0 := by
    rw [history]
    exact at_start
  have bottom : v.history.viewOffset = 0 := by
    rw [history]
    rfl
  obtain ⟨after, wrote, status', row'⟩ := outputAtBottom_ok before bottom whole column returned rest
  exact ⟨after, wrote.trans (by rw [history]), status'.trans status, row'.trans row⟩

/-- A page key that succeeds leaves the view painted. -/
lemma scrollConsolePage_ok {up : Bool} (painted : Painted base t s)
    (run : scrollConsolePage console conout up s = (.ok (), u)) :
    Painted base t u ∧ u.history = (if up then s.history.pageUp else s.history.pageDown) ∧
      SameStatus s u := by
  obtain ⟨_, _, got, rest⟩ := Fallible.bind_eq_ok run
  cases got
  obtain ⟨_, _, moved, rest⟩ := Fallible.bind_eq_ok rest
  cases moved
  have paged : ∃ view, (if up then s.history.pageUp else s.history.pageDown) =
      { s.history with viewOffset := view } ∧
      Shows (if up then s.history.pageUp else s.history.pageDown) t := by
    cases up
    · exact ⟨_, rfl, painted.shows.call .pageDown⟩
    · exact ⟨_, rfl, painted.shows.call .pageUp⟩
  obtain ⟨view, paged, shows⟩ := paged
  dsimp only at rest
  rw [paged] at shows rest ⊢
  by_cases changed : view ≠ s.history.viewOffset
  · rw [if_pos changed] at rest
    obtain ⟨drawn, _, _, rfl⟩ := redrawConsoleHistory_ok
      (painted.toFitted.viewed shows rfl rfl) painted.statusRow rest
    exact ⟨drawn, rfl, rfl, rfl⟩
  · rw [if_neg changed] at rest
    cases rest
    obtain rfl := not_not.1 changed
    exact ⟨painted, rfl, rfl, rfl⟩

/-- A reset that succeeds leaves the empty view painted. -/
lemma resetConsoleHistory_ok (painted : Painted base t s)
    (run : resetConsoleHistory console conout s = (.ok (), u)) :
    Painted base ⟨t.width, [], 0, []⟩ u ∧ u.history = s.history.reset ∧
      SameStatus s u := by
  obtain ⟨_, _, emptied, rest⟩ := Fallible.bind_eq_ok run
  cases emptied
  obtain ⟨_, _, got, rest⟩ := Fallible.bind_eq_ok rest
  cases got
  rw [painted.active] at rest
  obtain ⟨_, v, redrawn, rest⟩ := Fallible.bind_eq_ok rest
  have fitted : Fitted base ⟨t.width, [], 0, []⟩ { s with history := s.history.reset } :=
    ⟨painted.active, painted.columns, painted.fits, painted.rows, painted.ring, painted.attr,
      painted.shows.call .reset, clean_empty _⟩
  obtain ⟨drawn, _, _, rfl⟩ := redrawConsoleHistory_ok fitted painted.statusRow redrawn
  obtain ⟨_, rfl⟩ := conoutCall_ok (checkedCall_ok rest)
  exact ⟨⟨drawn.toFitted.drawn rfl rfl rfl, drawn.statusRow, drawn.status, drawn.content,
    drawn.below, drawn.cursor⟩, rfl, rfl, rfl⟩

/-- What is put into the status row takes a cell. -/
lemma statusCell_clean {bytes : List UInt8} (clean : ∀ byte ∈ bytes, 0x0020 ≤ byte) (column : Nat) :
    Plain (statusCell bytes column) ∧ statusCell bytes column ≠ 0 := by
  unfold statusCell
  rcases found : bytes[column]? with _ | byte
  · exact ⟨⟨by decide, by decide, by decide⟩, by decide⟩
  · have low : 0x20 ≤ byte.toNat := clean byte (List.mem_of_getElem? found)
    dsimp only
    split
    case isTrue =>
      have other (unit : UInt16) (small : unit.toNat < 0x20) : byte.toUInt16 ≠ unit := by
        rintro rfl
        rw [UInt8.toNat_toUInt16] at small
        omega
      exact ⟨⟨other _ (by decide), other _ (by decide), other _ (by decide)⟩, other _ (by decide)⟩
    case isFalse => exact ⟨⟨by decide, by decide, by decide⟩, by decide⟩

/-- The row that `render_status_ascii` fills. -/
def filledRow (bytes : List UInt8) (safeCells : Nat) : Nat → UInt16 := statusCell (bytes.take safeCells)

/-- A status row of printable bytes is clean. -/
lemma filledRow_clean {bytes : List UInt8} (clean : ∀ byte ∈ bytes, 0x0020 ≤ byte)
    (safeCells column : Nat) :
    Plain (filledRow bytes safeCells column) ∧ filledRow bytes safeCells column ≠ 0 :=
  statusCell_clean (fun byte mem => clean byte (List.mem_of_mem_take mem)) column

/-- A status text that succeeds paints its row. -/
lemma renderStatusAscii_ok {bytes : List UInt8} (fitted : Fitted base t s)
    (clean : ∀ byte ∈ bytes, 0x0020 ≤ byte)
    (run : renderStatusAscii console conout bytes s = (.ok (), u)) :
    Fitted base t { s with statusRow := filledRow bytes (s.status.columns - 1) } ∧
      Draws (fun screen =>
          paintRow screen (statusText { s with statusRow := filledRow bytes (s.status.columns - 1) }))
        { s with statusRow := filledRow bytes (s.status.columns - 1) } u := by
  obtain ⟨_, _, got, rest⟩ := Fallible.bind_eq_ok run
  cases got
  rw [fitted.active] at rest
  obtain ⟨_, _, filled, rest⟩ := Fallible.bind_eq_ok rest
  cases filled
  have fitted' : Fitted base t { s with statusRow := filledRow bytes (s.status.columns - 1) } :=
    ⟨fitted.active, fitted.columns, fitted.fits, fitted.rows, fitted.ring, fitted.attr,
      fitted.shows, fitted.plain⟩
  exact ⟨fitted', fitted'.paint_ok (filledRow_clean clean _) rest⟩

/-- A status text that succeeds leaves the view painted. -/
lemma Painted.status_ok {bytes : List UInt8} (painted : Painted base t s)
    (clean : ∀ byte ∈ bytes, 0x0020 ≤ byte)
    (run : renderStatusAscii console conout bytes s = (.ok (), u)) :
    Painted base t u ∧ u.history = s.history ∧ u.status = s.status ∧
      u.statusRow = filledRow bytes (s.status.columns - 1) := by
  obtain ⟨fitted, _, rfl⟩ := renderStatusAscii_ok painted.toFitted clean run
  exact ⟨fitted.painted (filledRow_clean clean _) painted.content painted.below painted.cursor,
    rfl, rfl, rfl⟩

/-- An empty terminal shows blanks. -/
lemma empty_unitAt (width distance column : Nat) :
    Terminal.unitAt ⟨width, [], 0, []⟩ distance column = 0x0020 := by
  cases distance <;> rfl

/-- The status console starts with an empty terminal. -/
lemma initializeModelStatus_ok {columns rows : Nat} (width : s.screen.columns = columns)
    (height : s.screen.rows = rows) (ring : rows ≤ historyLines + 1)
    (run : initializeModelStatus console conout columns rows s = (.ok (), u)) :
    Painted s.screen.attr ⟨min columns maxColumns - 1, [], 0, []⟩ u ∧ 2 ≤ columns ∧ 2 ≤ rows ∧
      u.history = s.history.configure (min columns maxColumns - 1) (rows - 1) ∧
      u.status = ⟨true, min columns maxColumns⟩ ∧
      u.statusRow = filledRow (loadingLine 0 (min columns maxColumns - 1))
        (min columns maxColumns - 1) := by
  unfold initializeModelStatus at run
  rcases geometry : boundedStatusGeometry columns rows with _ | ⟨bounded, rows'⟩
  · rw [geometry] at run
    cases run
  rw [geometry] at run
  obtain ⟨configured_width, configured_rows⟩ :=
    ConsoleHistory.configure_status (h := s.history) geometry
  rw [boundedStatusGeometry] at geometry
  split_ifs at geometry with small
  cases geometry
  obtain ⟨_, _, cleared, rest⟩ := Fallible.bind_eq_ok run
  obtain ⟨calls, rfl⟩ := clearScreen_ok cleared
  obtain ⟨_, _, configured, rest⟩ := Fallible.bind_eq_ok rest
  cases configured
  obtain ⟨_, _, status, rest⟩ := Fallible.bind_eq_ok rest
  have wide : 1 ≤ min columns maxColumns - 1 := by
    unfold maxColumns
    omega
  have narrow : min columns maxColumns - 1 ≤ maxColumns := by omega
  have shows : Shows (s.history.configure (min columns maxColumns - 1) (rows - 1))
      ⟨min columns maxColumns - 1, [], 0, []⟩ :=
    .reset wide narrow configured_width (by
      show 1 ≤ max (rows - 1) 1
      omega)
  -- the screen has been cleared and the scroll-back is empty
  have fitted : Fitted s.screen.attr ⟨min columns maxColumns - 1, [], 0, []⟩
      { s with
        screen := s.screen.clear
        calls
        history := s.history.configure (min columns maxColumns - 1) (rows - 1)
        status := ⟨true, min columns maxColumns⟩ } := by
    constructor
    case active => rfl
    case columns =>
      dsimp only
      omega
    case fits =>
      show min columns maxColumns ≤ s.screen.columns
      omega
    case rows =>
      show (s.history.configure (min columns maxColumns - 1) (rows - 1)).rows + 1 = s.screen.rows
      omega
    case ring =>
      dsimp only
      omega
    case attr => rfl
    case shows => exact shows
    case plain => exact clean_empty _
  -- the loading line is printable, wherever it is cut off
  have clean : ∀ byte ∈ loadingLine 0 (min columns maxColumns - 1), 0x0020 ≤ byte := by
    intro byte mem
    exact (by decide +kernel : ∀ byte ∈ byteString " promptboot [|] loading", 0x0020 ≤ byte) byte
      (List.mem_of_mem_take mem)
  obtain ⟨fitted', _, rfl⟩ := renderStatusAscii_ok fitted clean status
  obtain ⟨_, rfl⟩ := setConsoleCursor_ok rest
  have cursor : (s.history.configure (min columns maxColumns - 1) (rows - 1)).viewportCursor =
      some (0, 0) := by
    rw [shows.cursor_row rfl fitted.ring]
    exact congrArg (fun row => some (0, row)) (Nat.zero_min _)
  refine ⟨⟨fitted'.drawn rfl rfl rfl, filledRow_clean clean _, ?_, ?_, Nat.le_refl 1, cursor⟩,
    by omega, by omega, rfl, rfl, rfl⟩
  · intro column inside
    have attr : s.screen.clear.attr = s.screen.attr := rfl
    exact fitted'.painted_row attr inside
  · intro row low column inside
    dsimp only [TextScreen.moveTo]
    rw [cells_paintRow]
    refine congrArg (TextCell.mk · s.screen.attr) ?_
    rw [Terminal.window]
    split
    case isTrue live => exact (empty_unitAt ..).symm
    case isFalse => rfl

end Calls

/-- Whether the text that the console has had ends in a carriage return. -/
def ConsoleOp.returned (flag : Bool) : ConsoleOp → Bool
  | .output units => endsInReturn flag units
  | .page _ | .reset | .status _ => flag

/-- What the console may be given: text as `render_console_text` leaves it, and no control
characters in the status row. -/
def ConsoleOp.Clean (flag : Bool) : ConsoleOp → Prop
  | .output units => 0 ∉ units ∧ Returned flag units
  | .page _ | .reset => True
  | .status bytes => ∀ byte ∈ bytes, 0x0020 ≤ byte

def CleanOps : Bool → List ConsoleOp → Prop
  | _, [] => True
  | flag, op :: ops => op.Clean flag ∧ CleanOps (op.returned flag) ops

/-- What is left of an operation without a screen. -/
def ConsoleOp.calls : ConsoleOp → List HistoryCall
  | .output units => [.returnToBottom, .write units]
  | .page up => [if up then .pageUp else .pageDown]
  | .reset => [.reset]
  | .status _ => []

/-- The text of the status row after an operation. -/
def ConsoleOp.line (line : List UInt8) : ConsoleOp → List UInt8
  | .output _ | .page _ | .reset => line
  | .status bytes => bytes

section Session
variable {conout : Nat → ConoutReply TextScreen} {base : Nat} {t : Terminal} {s u : ScreenState}
  {flag : Bool}

/-- A text that ends in a return leaves the column at zero. -/
lemma ConsoleHistory.column_write {h : ConsoleHistory} {units : List UInt16}
    (at_start : flag = true → h.column = 0) (returns : endsInReturn flag units = true) :
    (h.write units).column = 0 := by
  induction units generalizing h flag with
  | nil => exact at_start returns
  | cons unit units ih => exact ih (fun set => ConsoleHistory.column_return unit set) returns

/-- An operation keeps the screen, and does to the scroll-back what it does without a screen. -/
lemma ConsoleOp.run_ok {op : ConsoleOp} (painted : Painted base t s) (clean : op.Clean flag)
    (at_start : flag = true → s.history.column = 0) (run : op.run console conout s = (.ok (), u)) :
    Painted base (op.calls.foldl Terminal.call t) u ∧
      u.history = op.calls.foldl ConsoleHistory.call s.history ∧
      (op.returned flag = true → u.history.column = 0) ∧ u.status = s.status ∧
      ∀ line, s.statusRow = filledRow line (s.status.columns - 1) →
        u.statusRow = filledRow (op.line line) (s.status.columns - 1) := by
  cases op with
  | output units =>
    obtain ⟨after, wrote, status, row⟩ :=
      consoleOutputUtf16_ok painted clean.1 at_start clean.2 run
    refine ⟨after, wrote, fun returns => ?_, status, fun line filled => row.trans filled⟩
    rw [wrote]
    exact ConsoleHistory.column_write at_start returns
  | page up =>
    obtain ⟨after, paged, status, row⟩ := scrollConsolePage_ok painted run
    cases up <;>
      exact ⟨after, paged, fun set => by rw [paged]; exact at_start set, status,
        fun line filled => row.trans filled⟩
  | reset =>
    obtain ⟨after, emptied, status, row⟩ := resetConsoleHistory_ok painted run
    refine ⟨after, emptied, fun _ => ?_, status, fun line filled => row.trans filled⟩
    rw [emptied]
    rfl
  | status bytes =>
    obtain ⟨after, same, status, row⟩ := painted.status_ok clean run
    exact ⟨after, same, fun set => by rw [same]; exact at_start set, status, fun _ _ => row⟩

/-- No operation changes the number of rows. -/
lemma ConsoleOp.rows_calls (op : ConsoleOp) (h : ConsoleHistory) :
    (op.calls.foldl ConsoleHistory.call h).rows = h.rows := by
  cases op with
  | output units => exact (write_kept units).2.1
  | page up => cases up <;> rfl
  | reset => rfl
  | status bytes => rfl

/-- Operations that succeed leave the view painted. -/
lemma ConsoleOp.forM_ok {ops : List ConsoleOp} (painted : Painted base t s)
    (clean : CleanOps flag ops) (at_start : flag = true → s.history.column = 0) (line : List UInt8)
    (filled : s.statusRow = filledRow line (s.status.columns - 1))
    (run : ops.forM (ConsoleOp.run console conout) s = (.ok (), u)) :
    Painted base ((ops.flatMap ConsoleOp.calls).foldl Terminal.call t) u ∧
      u.history = (ops.flatMap ConsoleOp.calls).foldl ConsoleHistory.call s.history ∧
      u.history.rows = s.history.rows ∧ u.status = s.status ∧
      u.statusRow = filledRow (ops.foldl ConsoleOp.line line) (s.status.columns - 1) := by
  induction ops generalizing t s flag line with
  | nil =>
    cases run
    exact ⟨painted, rfl, rfl, rfl, filled⟩
  | cons op ops ih =>
    rw [Fallible.forM_cons] at run
    obtain ⟨_, middle, first, rest⟩ := Fallible.bind_eq_ok run
    obtain ⟨after, history, column, status, row⟩ := op.run_ok painted clean.1 at_start first
    obtain ⟨shown, histories, rows, status', row'⟩ := ih after clean.2 column (op.line line)
      (by rw [status]; exact row line filled) rest
    have middle_rows : middle.history.rows = s.history.rows := by
      rw [history]
      exact op.rows_calls s.history
    rw [List.flatMap_cons, List.foldl_append, List.foldl_append, ← history]
    exact ⟨shown, histories, rows.trans middle_rows, status'.trans status,
      by rw [row', status]; rfl⟩

/-- What the screen shows after operations on a text screen. -/
lemma Painted.session {columns rows : Nat} {ops : List ConsoleOp} (width : s.screen.columns = columns)
    (height : s.screen.rows = rows) (ring : rows ≤ historyLines + 1) (clean : CleanOps false ops)
    (run : (initializeModelStatus console conout columns rows >>= fun _ =>
      ops.forM (ConsoleOp.run console conout)) s = (.ok (), u)) :
    Painted s.screen.attr ((ops.flatMap ConsoleOp.calls).foldl Terminal.call
        ⟨min columns maxColumns - 1, [], 0, []⟩) u ∧
      u.history = (ops.flatMap ConsoleOp.calls).foldl ConsoleHistory.call
        (s.history.configure (min columns maxColumns - 1) (rows - 1)) ∧
      2 ≤ columns ∧ u.history.width = min columns maxColumns - 1 ∧ u.history.rows = rows - 1 ∧
      u.statusRow = filledRow (ops.foldl ConsoleOp.line (loadingLine 0 (min columns maxColumns - 1)))
        (min columns maxColumns - 1) := by
  obtain ⟨_, started, first, rest⟩ := Fallible.bind_eq_ok run
  obtain ⟨painted, wide, high, history, status, filled⟩ :=
    initializeModelStatus_ok width height ring first
  have columns' : started.status.columns - 1 = min columns maxColumns - 1 := by rw [status]
  obtain ⟨shown, histories, height', status', row⟩ := ConsoleOp.forM_ok painted clean
    (absurd · Bool.false_ne_true) (loadingLine 0 (min columns maxColumns - 1))
    (by rw [columns']; exact filled) rest
  refine ⟨shown, by rw [histories, history], wide, ?_, ?_, by rw [row, columns']⟩
  · have columns := shown.columns
    rw [status', status] at columns
    exact Nat.eq_sub_of_add_eq columns
  · rw [height', history]
    show max (rows - 1) 1 = rows - 1
    omega

end Session

end Promptboot
