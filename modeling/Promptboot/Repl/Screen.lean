import Promptboot.Lib.Fallible
import Promptboot.Lib.TextScreen
import Promptboot.Repl.Controller
import Promptboot.Repl.Cursor
import Promptboot.Target.Session

/-!
# The status console

The console of the session (`main.rs`, `status_bar.rs`): a status row above the viewport of the
scroll-back, on a screen that the firmware keeps. The firmware's console is any `TextOutput`: its
state and what its calls do are parameters. It answers each call with a status, and a call that
fails may leave any state.

`checkedCall` is a call whose failure is the session's, `conoutCall` one whose failure is kept for
later, as `firstError` does with several. `ConsoleOp` is what the session asks of the console, one
constructor for each entry.
-/

namespace Promptboot

/-- `inverted_attribute` -/
def invertedAttribute (attr : Nat) : Nat :=
  let foreground := attr &&& 0x0f
  let background := (attr >>> 4) &&& 0x07
  background ||| ((foreground &&& 0x07) <<< 4)

def unitsOf (text : String) : List UInt16 := (byteString text).map UInt8.toUInt16

/-- `is_event_boundary_line` -/
def isEventBoundaryLine (units : List UInt16) : Bool :=
  ["events: on", "events: off"].any fun front => (unitsOf front).isPrefixOf units

/-- `is_serial_evidence_line` -/
def isSerialEvidenceLine (units : List UInt16) : Bool :=
  ["PROMPTBOOT_EVENT", "events: on", "events: off"].any fun front =>
    (unitsOf front).isPrefixOf units

/-- `activity` -/
def activity (frame : UInt8) : String :=
  match frame &&& 3 with
  | 0 => "|"
  | 1 => "/"
  | 2 => "-"
  | _ => "\\"

/-- `loading_line` into so many bytes. -/
def loadingLine (frame : UInt8) (outputLength : Nat) : List UInt8 :=
  (byteString (" promptboot [" ++ activity frame ++ "] loading")).take outputLength

/-- `StatusConsole` -/
structure StatusConsole where
  active : Bool
  columns : Nat

/-- The firmware's console, with the calls that it has had, and the statics of the session's. -/
structure ConsoleState (σ : Type) where
  screen : σ
  calls : Nat
  history : ConsoleHistory
  status : StatusConsole
  statusRow : Nat → UInt16

/-- The state on a text screen. -/
abbrev ScreenState := ConsoleState TextScreen

inductive ConsoleError where
  | efi (status : Nat)
  /-- a bound that a slice or an index would miss -/
  | panic
  deriving DecidableEq

abbrev ConsoleM (σ : Type) := Fallible (ConsoleState σ) ConsoleError

/-- What the firmware answers to a call, and what it does to the screen if it fails. -/
structure ConoutReply (σ : Type) where
  status : Nat
  left : σ → σ

section Console
variable {σ : Type} (firmware : TextOutput σ) (conout : Nat → ConoutReply σ)

/-- A call that does `f` to the screen, and its status. -/
def conoutCall (f : σ → σ) (s : ConsoleState σ) : Nat × ConsoleState σ :=
  let reply := conout s.calls
  let screen := if reply.status = efiSuccess then f s.screen else reply.left s.screen
  (reply.status, { s with screen, calls := s.calls + 1 })

/-- Stops with a status that is no success. -/
def checkedCall (call : ConsoleState σ → Nat × ConsoleState σ) : ConsoleM σ Unit := fun s =>
  let (status, s) := call s
  if status = efiSuccess then (.ok (), s) else (.error (.efi status), s)

def clearScreen : ConsoleState σ → Nat × ConsoleState σ := conoutCall conout firmware.clear

def setCursorPosition (column row : Nat) : ConsoleState σ → Nat × ConsoleState σ :=
  conoutCall conout (firmware.moveTo column row)

def setAttribute (attr : Nat) : ConsoleState σ → Nat × ConsoleState σ :=
  conoutCall conout (firmware.setAttribute attr)

/-- A string ends at its first zero. -/
def outputString (units : List UInt16) : ConsoleState σ → Nat × ConsoleState σ :=
  conoutCall conout (firmware.write (units.takeWhile (· ≠ 0)))

/-- The chunks of `raw_conout_utf16`, up to the first that fails. -/
def outputChunks : List (List UInt16) → ConsoleState σ → Nat × ConsoleState σ
  | [], s => (efiSuccess, s)
  | chunk :: chunks, s =>
    let (status, s) := outputString firmware conout chunk s
    if status = efiSuccess then outputChunks chunks s else (status, s)

/-- `raw_conout_utf16`, as a status. -/
def rawConoutUtf16 (units : List UInt16) : ConsoleState σ → Nat × ConsoleState σ :=
  outputChunks firmware conout (units.toChunks 256)

def rawContentUtf16 (units : List UInt16) (column width : Nat) : ConsoleM σ Nat := fun s =>
  let output := fun s rendered =>
    let (status, s) := rawConoutUtf16 firmware conout rendered s
    (s, status)
  match writeContentWithWrap units width output column s with
  | (s, .ok column) => (.ok column, s)
  | (s, .error status) => (.error (.efi status), s)

def setConsoleCursor (column row : Nat) : ConsoleM σ Unit :=
  checkedCall (setCursorPosition firmware conout column row)

/-- `enable_console_cursor` -/
def enableConsoleCursor : ConsoleM σ Unit := checkedCall (conoutCall conout firmware.enableCursor)

def firstError (first : Option Nat) (status : Nat) : Option Nat :=
  match first with
  | some first => some first
  | none => if status = 0 then none else some status

/-- `render_status_row`: the attribute and the cursor are put back in any case. -/
def renderStatusRow (oldAttribute oldColumn oldRow statusRow : Nat) (units : List UInt16) :
    ConsoleM σ Unit := fun s =>
  let (status, s) := setCursorPosition firmware conout 0 statusRow s
  let first := firstError none status
  let (first, s) := if first.isNone then
      let (status, s) := setAttribute firmware conout (invertedAttribute oldAttribute) s
      (firstError first status, s)
    else (first, s)
  let (first, s) := if first.isNone then
      let (status, s) := rawConoutUtf16 firmware conout units s
      (firstError first status, s)
    else (first, s)
  let (status, s) := setAttribute firmware conout oldAttribute s
  let first := firstError first status
  let (status, s) := setCursorPosition firmware conout oldColumn oldRow s
  match firstError first status with
  | some status => (.error (.efi status), s)
  | none => (.ok (), s)

def paintStatusRow (units : List UInt16) : ConsoleM σ Unit := do
  let s ← .get
  renderStatusRow firmware conout (firmware.attr s.screen) (firmware.column s.screen)
    (firmware.row s.screen) 0 units

def restoreStatusRow : ConsoleM σ Unit := do
  let s ← .get
  if !s.status.active then .fail (.efi Repl.efiDeviceError)
  else paintStatusRow firmware conout ((List.range (s.status.columns - 1)).map s.statusRow)

/-- A cell of the status row. -/
def statusCell (bytes : List UInt8) (at_ : Nat) : UInt16 :=
  match bytes[at_]? with
  | some byte => if byte < 0x80 then byte.toUInt16 else 0x003f
  | none => 0x0020

def renderStatusAscii (bytes : List UInt8) : ConsoleM σ Unit := do
  let s ← .get
  if !s.status.active then .fail (.efi Repl.efiDeviceError)
  else
    let safeCells := s.status.columns - 1
    let rendered := statusCell (bytes.take safeCells)
    .modify fun s => { s with statusRow := rendered }
    paintStatusRow firmware conout ((List.range safeCells).map rendered)

/-- `viewport_line`, which panics out of range. -/
def viewportLine (row : Nat) : ConsoleM σ HistoryLine :=
  .lift fun s => match s.history.viewportLine row with
    | some line => .ok line
    | none => .error .panic

def viewportCursor : ConsoleM σ (Nat × Nat) :=
  .lift fun s => match s.history.viewportCursor with
    | some cursor => .ok cursor
    | none => .error .panic

/-- A line of the redraw without a status row. -/
def redrawPlainLine (lines row : Nat) : ConsoleM σ Unit := do
  let line ← viewportLine row
  checkedCall (rawConoutUtf16 firmware conout line.units)
  if line.hardBreak ∧ row + 1 < lines then
    checkedCall (rawConoutUtf16 firmware conout [0x000d, 0x000a])

/-- A line of the redraw: a record is drawn in two parts, that the serial mirror does not show it
again. -/
def redrawLine (row : Nat) : ConsoleM σ Unit := do
  let line ← viewportLine row
  if line.units = [] then pure ()
  else
    setConsoleCursor firmware conout 0 (row + 1)
    if isSerialEvidenceLine line.units then
      checkedCall (rawConoutUtf16 firmware conout (line.units.take 1))
      setConsoleCursor firmware conout 1 (row + 1)
      checkedCall (rawConoutUtf16 firmware conout (line.units.drop 1))
    else
      checkedCall (rawConoutUtf16 firmware conout line.units)

def redrawConsoleHistory : ConsoleM σ Unit := do
  let s ← .get
  checkedCall (clearScreen firmware conout)
  if !s.status.active then
    (List.range s.history.viewportLen).forM (redrawPlainLine firmware conout s.history.viewportLen)
  else
    (List.range s.history.viewportLen).forM (redrawLine firmware conout)
    let cursor ← viewportCursor
    setConsoleCursor firmware conout cursor.1 (cursor.2 + 1)
    restoreStatusRow firmware conout

/-- The output of `console_output_utf16` under the status row, from the column of the cursor. -/
def outputContent (units : List UInt16) (column width : Nat) : ConsoleM σ Unit := do
  if isEventBoundaryLine units ∨ isSerialEvidenceLine units then
    let nextColumn ← rawContentUtf16 firmware conout (units.take 1) column width
    let s ← .get
    setConsoleCursor firmware conout (firmware.column s.screen) (firmware.row s.screen)
    let _ ← rawContentUtf16 firmware conout (units.drop 1) nextColumn width
  else
    let _ ← rawContentUtf16 firmware conout units column width

/-- `console_output_utf16` on a history at its bottom. -/
def outputAtBottom (units : List UInt16) : ConsoleM σ Unit := do
  let s ← .get
  if !s.status.active then
    .modify fun s => { s with history := s.history.write units }
    checkedCall (rawConoutUtf16 firmware conout units)
  else
    let (column, row) ← viewportCursor
    match nativeScrollsForOutput units column row s.history.width s.history.rows with
    | none => .fail (.efi Repl.efiDeviceError)
    | some scrolls =>
      .modify fun s => { s with history := s.history.write units }
      setConsoleCursor firmware conout column (row + 1)
      outputContent firmware conout units column s.history.width
      if scrolls = 0 then pure () else restoreStatusRow firmware conout

def consoleOutputUtf16 (units : List UInt16) : ConsoleM σ Unit := do
  let s ← .get
  .modify fun s => { s with history := s.history.returnToBottom }
  (if s.history.viewOffset ≠ 0 then redrawConsoleHistory firmware conout
  else pure () : ConsoleM σ Unit)
  outputAtBottom firmware conout units

def scrollConsolePage (up : Bool) : ConsoleM σ Unit := do
  let s ← .get
  let history := if up then s.history.pageUp else s.history.pageDown
  .modify fun s => { s with history }
  if history.viewOffset ≠ s.history.viewOffset then redrawConsoleHistory firmware conout

def resetConsoleHistory : ConsoleM σ Unit := do
  .modify fun s => { s with history := s.history.reset }
  let s ← .get
  (if s.status.active then redrawConsoleHistory firmware conout
  else checkedCall (clearScreen firmware conout) : ConsoleM σ Unit)
  enableConsoleCursor firmware conout

/-- `initialize_model_status`, on a screen of that size; `EFI_DEVICE_ERROR` stands for its codes. -/
def initializeModelStatus (physicalColumns physicalRows : Nat) : ConsoleM σ Unit :=
  match boundedStatusGeometry physicalColumns physicalRows with
  | none => .fail (.efi Repl.efiDeviceError)
  | some (columns, rows) => do
    checkedCall (clearScreen firmware conout)
    .modify fun s => { s with
      history := s.history.configure (columns - 1) (rows - 1)
      status := ⟨true, columns⟩ }
    renderStatusAscii firmware conout (loadingLine 0 (columns - 1))
    setConsoleCursor firmware conout 0 1

/-- What the session does to its console. -/
inductive ConsoleOp where
  /-- `console_output_utf16` -/
  | output (units : List UInt16)
  /-- `scroll_console_page` -/
  | page (up : Bool)
  /-- `reset_console_history` -/
  | reset
  /-- `render_status_ascii` -/
  | status (bytes : List UInt8)

def ConsoleOp.run : ConsoleOp → ConsoleM σ Unit
  | .output units => consoleOutputUtf16 firmware conout units
  | .page up => scrollConsolePage firmware conout up
  | .reset => resetConsoleHistory firmware conout
  | .status bytes => renderStatusAscii firmware conout bytes

end Console

end Promptboot
