import Promptboot.Lib.Fallible
import Promptboot.Repl.Controller
import Promptboot.Target.Session

/-!
# The sink of the event records

Records go out on the serial line, twice while the events are shown on the console (`main.rs`). The
console has the line as well: the firmware mirrors on it what is displayed. A line is what the
firmware answers, call by call, and what arrives behind a failed write.

`writeSerialChecked` is the loop over the partial writes and `sendRecord` what it is called for;
`SinkOp.run` is an operation, failed or not, and `session` goes on after a failed one.
-/

namespace Promptboot.Events

def crlf : List UInt8 := [0x0d, 0x0a]

def displayOnFrame : List UInt8 := byteString "\x00PROMPTBOOT_EVENTS_ON\x00"
def displayOffFrame : List UInt8 := byteString "\x00PROMPTBOOT_EVENTS_OFF\x00"

/-- `MODEL_RECORD_FATAL` -/
def recordFatal : List UInt8 := byteString
  ("PROMPTBOOT_EVENT v=1 event=FATAL code=MODEL_RECORD phase=record efi_status=none " ++
    "model_error=none inference_error=none region=none cleanup_attempted=00000000 " ++
    "cleanup_ok=00000000\r\n")

/-- The answer to a write: its status, the length that it reports, and how much of it arrives if it
fails. -/
structure SerialReply where
  status : Nat
  length : Nat
  passed : Nat

/-- The firmware, by the number of calls before. -/
structure Line where
  hasConout : Bool
  hasSerial : Bool
  /-- the status of a console output, and what the mirror shows of it -/
  console : Nat → Nat × List UInt8
  serial : Nat → SerialReply

/-- What has arrived: the writes, each behind what the mirror has shown before it. -/
structure Wire where
  sent : List (List UInt8 × List UInt8)
  quiet : List UInt8

namespace Wire

def bytes (wire : Wire) : List UInt8 :=
  (wire.sent.flatMap fun chunk => chunk.1 ++ chunk.2) ++ wire.quiet

def mirror (wire : Wire) (shown : List UInt8) : Wire := { wire with quiet := wire.quiet ++ shown }

def send (wire : Wire) (bytes : List UInt8) : Wire := ⟨wire.sent ++ [(wire.quiet, bytes)], []⟩

end Wire

/-- The statics `RECORD_FAILED` and `EVENT_DISPLAY_ENABLED`, and the line. -/
structure EventSink where
  recordFailed : Bool
  displayEnabled : Bool
  calls : Nat
  wire : Wire

abbrev SinkM := Fallible EventSink Nat

def EventSink.new : EventSink := ⟨false, false, 0, ⟨[], []⟩⟩

section Sink
variable (line : Line)

/-- `console_output_utf16`, as far as the line is concerned. -/
def consoleOutput : SinkM Unit := fun s =>
  let (status, shown) := line.console s.calls
  let s := { s with calls := s.calls + 1, wire := s.wire.mirror shown }
  if status = efiSuccess then (.ok (), s) else (.error status, s)

/-- A write to the serial line, and the checks behind it. -/
def serialWrite (bytes : List UInt8) : SinkM Unit := fun s =>
  let reply := line.serial s.calls
  if reply.status = efiSuccess ∧ reply.length = bytes.length then
    (.ok (), { s with calls := s.calls + 1, wire := s.wire.send bytes })
  else
    (.error (if reply.status = efiSuccess then Repl.efiDeviceError else reply.status),
      { s with calls := s.calls + 1, wire := s.wire.send (bytes.take reply.passed) })

def writeSerialChecked (bytes : List UInt8) : SinkM Unit :=
  if line.hasSerial then serialWrite line bytes else pure ()

def failRecord (s : EventSink) : EventSink := { s with recordFailed := true }

/-- The part that `emit_record` and `emit_record_checked` share: the pair stays together on the
line, behind what the console shows. -/
def sendRecord (bytes : List UInt8) (displayEnabled : Bool) : SinkM Unit := do
  (if displayEnabled then consoleOutput line else pure () : SinkM Unit)
  if line.hasSerial then
    serialWrite line bytes
    (if displayEnabled then serialWrite line bytes else pure () : SinkM Unit)
  else pure ()

/-- `emit_record` -/
def emitRecord (bytes : List UInt8) (s : EventSink) : Bool × EventSink :=
  if s.recordFailed then (false, s)
  else if bytes.length > 1023 ∨ ¬crlf <:+ bytes ∨ ∃ byte ∈ bytes, 0x80 ≤ byte then
    (false, failRecord s)
  else if s.displayEnabled ∧ ¬line.hasConout then (false, failRecord s)
  else
    match sendRecord line bytes s.displayEnabled s with
    | (.error _, s) => (false, failRecord s)
    | (.ok (), s) => if bytes = recordFatal then (false, failRecord s) else (true, s)

/-- Callers of `emit_record` stop where it returns `false`. -/
def emitted (outcome : Bool × EventSink) : Except Nat Unit × EventSink :=
  (if outcome.1 then .ok () else .error Repl.efiDeviceError, outcome.2)

/-- `emit_record_checked` -/
def emitRecordChecked (bytes : List UInt8) : SinkM Unit := do
  let s ← .get
  if s.recordFailed then .fail Repl.efiDeviceError
  else if bytes.length > 1023 ∨ ¬crlf <:+ bytes then
    .onError (.fail Repl.efiDeviceError) fun _ => failRecord
  else if s.displayEnabled ∧ ¬line.hasConout then
    .onError (.fail Repl.efiDeviceError) fun _ => failRecord
  else if ∃ byte ∈ bytes, 0x80 ≤ byte then
    .onError (.fail Repl.efiDeviceError) fun _ => failRecord
  else
    .onError (sendRecord line bytes s.displayEnabled) fun _ => failRecord

/-- `write_ascii_checked` -/
def writeAsciiChecked (bytes : List UInt8) : SinkM Unit :=
  if conoutUnits < bytes.length ∨ ∃ byte ∈ bytes, 0x80 ≤ byte ∨ byte = 0 then
    .fail Repl.efiDeviceError
  else
    consoleOutput line

/-- The command that `is_event_toggle_command` knows. -/
def toggleEvents : SinkM Unit := do
  writeAsciiChecked line crlf
  .modify fun s => { s with displayEnabled := !s.displayEnabled }
  let s ← .get
  writeAsciiChecked line (byteString (if s.displayEnabled then "events: on\r\n" else "events: off\r\n"))
  writeSerialChecked line (if s.displayEnabled then displayOnFrame else displayOffFrame)

/-- What the program does that the line has something of. -/
inductive SinkOp where
  /-- text on the console, whether that succeeds or not -/
  | text
  /-- the command `/events` -/
  | toggle
  /-- `emit_record_checked` -/
  | checked (bytes : List UInt8)
  /-- `emit_record` -/
  | plain (bytes : List UInt8)
  deriving DecidableEq

def SinkOp.run : SinkOp → SinkM Unit
  | .text => fun s => (.ok (), (consoleOutput line s).2)
  | .toggle => toggleEvents line
  | .checked bytes => emitRecordChecked line bytes
  | .plain bytes => fun s => emitted (emitRecord line bytes s)

/-- The operations of a session. One that fails does not end it: a failed `/events` sets the
controller's `terminal` and leaves `RECORD_FAILED` alone, and the program goes on to report the
failure, on the console and with a record. -/
def session (ops : List SinkOp) (s : EventSink) : EventSink :=
  ops.foldl (fun s op => (op.run line s).2) s

end Sink

end Promptboot.Events
