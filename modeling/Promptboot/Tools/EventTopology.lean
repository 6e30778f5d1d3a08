import Promptboot.Lib.Marker
import Promptboot.Repl.EventSink
import Mathlib.Data.List.Sort

/-!
# Reading a capture

`scripts/event_topology.py`: the records and the frames of a capture of the serial line, put in
order, and the logical records behind them.

`items` merges what `recordItems` and `frameItems` find, by the place where each begins, and
`parseItems` is the loop over them with the state of the display and the record it waits to see
again.
-/

namespace Promptboot.Events

/-- `PREFIX` -/
def eventPrefix : List UInt8 := byteString "PROMPTBOOT_EVENT v=1 "

inductive ItemKind where
  | record
  | on
  | off
  deriving DecidableEq

structure Item where
  kind : ItemKind
  value : List UInt8
  start : Nat
  stop : Nat
  deriving DecidableEq

/-- `splitlines`, with the ends kept. -/
def splitLines : List UInt8 → List (List UInt8)
  | [] => []
  | [byte] => [[byte]]
  | byte :: next :: rest =>
    if byte = 0x0d ∧ next = 0x0a then
      [byte, next] :: splitLines rest
    else if byte = 0x0d ∨ byte = 0x0a then
      [byte] :: splitLines (next :: rest)
    else
      match splitLines (next :: rest) with
      | [] => [[byte]]
      | line :: lines => (byte :: line) :: lines

/-- The first loop of `_items`, in a capture of that length. -/
def recordItems (length : Nat) (allowIncompleteTail : Bool) :
    Nat → List (List UInt8) → Except String (List Item)
  | _, [] => .ok []
  | start, line :: lines =>
    let stop := start + line.length
    match Marker.find eventPrefix line with
    | none => recordItems length allowIncompleteTail stop lines
    | some at_ =>
      let record := line.drop at_
      if crlf <:+ record then
        (recordItems length allowIncompleteTail stop lines).map
          (⟨.record, record, start + at_, stop⟩ :: ·)
      else if allowIncompleteTail ∧ stop = length then
        recordItems length allowIncompleteTail stop lines
      else
        .error "incomplete physical event record"

/-- The search for a frame from `start` on, where `payload` begins; it takes fewer turns than the
capture has bytes. -/
def frameItems (kind : ItemKind) (frame : List UInt8) : Nat → Nat → List UInt8 → List Item
  | 0, _, _ => []
  | turns + 1, start, payload =>
    match Marker.find frame payload with
    | none => []
    | some at_ =>
      let stop := start + at_ + frame.length
      ⟨kind, frame, start + at_, stop⟩ ::
        frameItems kind frame turns stop (payload.drop (at_ + frame.length))

/-- `_items` -/
def items (payload : List UInt8) (allowIncompleteTail : Bool) : Except String (List Item) := do
  let records ← recordItems payload.length allowIncompleteTail 0 (splitLines payload)
  let on := frameItems .on displayOnFrame (payload.length + 1) 0 payload
  let off := frameItems .off displayOffFrame (payload.length + 1) 0 payload
  pure ((records ++ on ++ off).mergeSort fun a b => a.start ≤ b.start)

inductive ParseMode where
  | strictFinal
  | pollingPrefix
  deriving DecidableEq

/-- `TopologyResult` -/
structure TopologyResult where
  logicalRecords : List (List UInt8)
  physicalRecords : List (List UInt8)
  pendingRecord : Option (List UInt8)

/-- The loop of `parse_records`: the logical records and what is pending. -/
def parseItems (mode : ParseMode) (logical : List (List UInt8)) :
    Bool → List Item → Except String (List (List UInt8) × Option (List UInt8))
  | _, [] => .ok (logical, none)
  | displayEnabled, [item] =>
    match item.kind with
    | .on => if displayEnabled then .error "duplicate events: on boundary" else .ok (logical, none)
    | .off =>
      if displayEnabled then .ok (logical, none)
      else .error "events: off boundary while already off"
    | .record =>
      if displayEnabled then
        if mode = .pollingPrefix then .ok (logical, some item.value)
        else .error "enabled event has one unauthorized dangling physical copy"
      else .ok (logical ++ [item.value], none)
  | displayEnabled, item :: next :: rest =>
    match item.kind with
    | .on =>
      if displayEnabled then .error "duplicate events: on boundary"
      else parseItems mode logical true (next :: rest)
    | .off =>
      if displayEnabled then parseItems mode logical false (next :: rest)
      else .error "events: off boundary while already off"
    | .record =>
      if displayEnabled then
        if next.kind ≠ .record then .error "enabled event copies are not adjacent"
        else if item.stop ≠ next.start then .error "enabled event copies have intervening bytes"
        else if next.value ≠ item.value then .error "enabled event copies differ"
        else parseItems mode (logical ++ [item.value]) true rest
      else if next.kind = .record ∧ next.value = item.value then
        .error "disabled event has a physical pair"
      else parseItems mode (logical ++ [item.value]) false (next :: rest)

/-- `parse_records`, of the topology `toggle-v1`. -/
def parseRecords (payload : List UInt8) (mode : ParseMode) : Except String TopologyResult := do
  let items ← items payload (mode = .pollingPrefix)
  let physical := (items.filter (·.kind = .record)).map Item.value
  let (logical, pending) ← parseItems mode [] false items
  pure ⟨logical, physical, pending⟩

end Promptboot.Events
