import Promptboot.Tools.TopologyItems

/-!
# The reader and the sink

Whatever the session emits, shows and toggles, and whatever the firmware answers, as long as no
record is lost and no `/events` fails behind its switch: a reader who polls the capture, cut off
anywhere, has the first of the records, and the whole capture is read as the records that have been
emitted.

`Emits` relates the operations of a session to the writes on the line, and `Apart` is the rule that
makes them readable. `Emits.poll` and `Emits.final` read the writes of a session; `run_arrives`
says that what arrives are such writes, up to the first that fails. `settle` takes the `/events`
that have switched nothing for texts, so that `run_reads` applies to a session that goes on behind
them. `topology_reads_session` is the result.
-/

namespace Promptboot.Events

/-- The record of an operation. -/
def SinkOp.record : SinkOp → Option (List UInt8)
  | .text | .toggle => none
  | .checked bytes | .plain bytes => some bytes

/-- A record is one line behind the prefix. -/
def RecordText (bytes : List UInt8) : Prop :=
  ∃ body, bytes = eventPrefix ++ body ++ crlf ∧ 0x00 ∉ body ∧ 0x0a ∉ body ∧ 0x0d ∉ body

/-- The record that is emitted next, unless the display is toggled before it. -/
def nextRecord : List SinkOp → Option (List UInt8)
  | [] => none
  | .text :: ops => nextRecord ops
  | .toggle :: _ => none
  | .checked bytes :: _ | .plain bytes :: _ => some bytes

/-- No record that is not displayed is emitted twice in a row. -/
def Apart : Bool → List SinkOp → Prop
  | _, [] => True
  | displayEnabled, .text :: ops => Apart displayEnabled ops
  | displayEnabled, .toggle :: ops => Apart (!displayEnabled) ops
  | displayEnabled, .checked bytes :: ops | displayEnabled, .plain bytes :: ops =>
    (displayEnabled = false → nextRecord ops ≠ some bytes) ∧ Apart displayEnabled ops

/-- The writes of a session. -/
inductive Emits : Bool → List SinkOp → List (List UInt8 × Part) → Prop where
  | nil (displayEnabled : Bool) : Emits displayEnabled [] []
  | text {displayEnabled : Bool} {ops : List SinkOp} {chunks : List (List UInt8 × Part)} :
    Emits displayEnabled ops chunks → Emits displayEnabled (.text :: ops) chunks
  | toggle {displayEnabled : Bool} {ops : List SinkOp} {chunks : List (List UInt8 × Part)}
    (shown : List UInt8) : Emits (!displayEnabled) ops chunks →
    Emits displayEnabled (.toggle :: ops) ((shown, .frame (!displayEnabled)) :: chunks)
  | single {op : SinkOp} {ops : List SinkOp} {chunks : List (List UInt8 × Part)} {body : List UInt8}
    (shown : List UInt8) (record : op.record = some (Part.record body).bytes) :
    Emits false ops chunks → Emits false (op :: ops) ((shown, .record body) :: chunks)
  | pair {op : SinkOp} {ops : List SinkOp} {chunks : List (List UInt8 × Part)} {body : List UInt8}
    (shown : List UInt8) (record : op.record = some (Part.record body).bytes) :
    Emits true ops chunks →
    Emits true (op :: ops) ((shown, .record body) :: ([], .record body) :: chunks)

section Parse
variable {mode : ParseMode} {logical : List (List UInt8)} {item next : Item} {rest : List Item}

/-- A frame that switches on is passed. -/
lemma parseItems_on (kind : item.kind = .on) :
    parseItems mode logical false (item :: rest) = parseItems mode logical true rest := by
  obtain ⟨_, value, start, stop⟩ := item
  cases kind
  cases rest with
  | nil => rfl
  | cons next rest => rfl

/-- A frame that switches off is passed. -/
lemma parseItems_off (kind : item.kind = .off) :
    parseItems mode logical true (item :: rest) = parseItems mode logical false rest := by
  obtain ⟨_, value, start, stop⟩ := item
  cases kind
  cases rest with
  | nil => rfl
  | cons next rest => rfl

/-- A record by itself, while the events are not displayed. -/
lemma parseItems_single (kind : item.kind = .record)
    (other : ∀ next ∈ rest.head?, next.kind = .record → next.value ≠ item.value) :
    parseItems mode logical false (item :: rest) =
      parseItems mode (logical ++ [item.value]) false rest := by
  obtain ⟨_, value, start, stop⟩ := item
  cases kind
  cases rest with
  | nil => rfl
  | cons next rest =>
    have apart : ¬(next.kind = .record ∧ next.value = value) :=
      fun both => other next rfl both.1 both.2
    exact if_neg apart

/-- Without display two equal records are an error. -/
lemma parseItems_twin (kind : item.kind = .record) (again : next.kind = .record)
    (same : next.value = item.value) :
    parseItems mode logical false (item :: next :: rest) =
      .error "disabled event has a physical pair" := by
  obtain ⟨_, value, start, stop⟩ := item
  cases kind
  exact if_pos ⟨again, same⟩

/-- The two copies of a record that is displayed. -/
lemma parseItems_pair (kind : item.kind = .record) (again : next.kind = .record)
    (adjacent : item.stop = next.start) (same : next.value = item.value) :
    parseItems mode logical true (item :: next :: rest) =
      parseItems mode (logical ++ [item.value]) true rest := by
  obtain ⟨_, value, start, stop⟩ := item
  cases kind
  have kinds : ¬next.kind ≠ .record := not_not.2 again
  have ends : ¬stop ≠ next.start := not_not.2 adjacent
  have values : ¬next.value ≠ value := not_not.2 same
  exact (if_neg kinds).trans ((if_neg ends).trans (if_neg values))

end Parse

/-- The records of a session. -/
def records (ops : List SinkOp) : List (List UInt8) := ops.filterMap SinkOp.record

/-- The records as they are on the line: twice while they are displayed. -/
def copies : Bool → List SinkOp → List (List UInt8)
  | _, [] => []
  | displayEnabled, .text :: ops => copies displayEnabled ops
  | displayEnabled, .toggle :: ops => copies (!displayEnabled) ops
  | displayEnabled, .checked bytes :: ops | displayEnabled, .plain bytes :: ops =>
    (if displayEnabled then [bytes, bytes] else [bytes]) ++ copies displayEnabled ops

section Emits
variable {displayEnabled : Bool} {ops : List SinkOp} {chunks cut : List (List UInt8 × Part)}

/-- The first write is the next record. -/
lemma Emits.next (emits : Emits displayEnabled ops chunks) {shown body : List UInt8}
    (first : chunks.head? = some (shown, .record body)) :
    nextRecord ops = some (Part.record body).bytes := by
  induction emits with
  | nil => cases first
  | text emits ih => exact ih first
  | toggle => cases first
  | @single op ops chunks _ _ record =>
    cases first
    cases op <;> first | exact record | cases record
  | @pair op ops chunks _ _ record =>
    cases first
    cases op <;> first | exact record | cases record

/-- The next record is in the first chunk. -/
lemma Emits.head (emits : Emits displayEnabled ops chunks) {bytes : List UInt8}
    (next : nextRecord ops = some bytes) :
    ∃ shown part, chunks.head? = some (shown, part) ∧ part.kind = .record ∧ part.bytes = bytes := by
  induction emits with
  | nil => cases next
  | text emits ih => exact ih next
  | toggle => cases next
  | @single op ops chunks body shown record =>
    refine ⟨_, _, rfl, rfl, Option.some.inj (record.symm.trans ?_)⟩
    cases op <;> first | exact next | cases record
  | @pair op ops chunks body shown record =>
    refine ⟨_, _, rfl, rfl, Option.some.inj (record.symm.trans ?_)⟩
    cases op <;> first | exact next | cases record

/-- A record is in front of the others. -/
lemma records_cons {op : SinkOp} {bytes : List UInt8} (record : op.record = some bytes) :
    records (op :: ops) = bytes :: records ops := List.filterMap_cons_some record

/-- What the rule of `Apart` says of an operation with a record. -/
lemma apart_cons {op : SinkOp} {bytes : List UInt8} (record : op.record = some bytes) :
    Apart displayEnabled (op :: ops) ↔
      (displayEnabled = false → nextRecord ops ≠ some bytes) ∧ Apart displayEnabled ops := by
  cases op <;> cases record <;> exact Iff.rfl

/-- From no chunk nothing more is polled. -/
lemma nothing_polled (displayEnabled : Bool) (logical all : List (List UInt8)) (start : Nat) :
    ∃ more pending, parseItems .pollingPrefix logical displayEnabled (itemsOf start []) =
      .ok (logical ++ more, pending) ∧ more <+: all :=
  ⟨[], none, by rw [List.append_nil]; rfl, List.nil_prefix⟩

/-- Of the first writes a polling reader makes the first records. -/
lemma Emits.polled (emits : Emits displayEnabled ops chunks) (apart : Apart displayEnabled ops)
    (front : cut <+: chunks) (start : Nat) (logical : List (List UInt8)) :
    ∃ more pending, parseItems .pollingPrefix logical displayEnabled (itemsOf start cut) =
      .ok (logical ++ more, pending) ∧ more <+: records ops := by
  -- on the writes, with the capture cut off before any of them
  induction emits generalizing cut start logical with
  | nil displayEnabled =>
    rw [List.prefix_nil.1 front]
    exact nothing_polled ..
  | text emits ih => exact ih apart front start logical
  | @toggle displayEnabled ops chunks shown emits ih =>
    rcases List.prefix_cons_iff.1 front with rfl | ⟨cut, rfl, front'⟩
    · exact nothing_polled ..
    obtain ⟨more, pending, parsed, records⟩ := ih apart front'
      (start + shown.length + (Part.frame !displayEnabled).bytes.length) logical
    refine ⟨more, pending, Eq.trans ?_ parsed, records⟩
    cases displayEnabled
    · exact parseItems_on rfl
    · exact parseItems_off rfl
  | @single op ops chunks body shown record emits ih =>
    rw [apart_cons record] at apart
    rw [records_cons record]
    rcases List.prefix_cons_iff.1 front with rfl | ⟨cut, rfl, front'⟩
    · exact nothing_polled ..
    obtain ⟨more, pending, parsed, records⟩ := ih apart.2 front'
      (start + shown.length + (Part.record body).bytes.length)
      (logical ++ [(Part.record body).bytes])
    refine ⟨(Part.record body).bytes :: more, pending, Eq.trans ?_ parsed |>.trans ?_,
      List.cons_prefix_cons.2 ⟨rfl, records⟩⟩
    -- the rule keeps what follows from being taken for the record's copy
    · refine parseItems_single rfl fun next first kind same => ?_
      cases cut with
      | nil => cases first
      | cons chunk cut =>
        obtain ⟨shown', part⟩ := chunk
        cases first
        cases part with
        | frame on => cases on <;> cases kind
        | record again =>
          obtain ⟨others, rfl⟩ := front'
          refine apart.1 rfl ?_
          rw [emits.next rfl]
          exact congrArg some same
    · rw [List.append_assoc]
      rfl
  | @pair op ops chunks body shown record emits ih =>
    rw [apart_cons record] at apart
    rw [records_cons record]
    rcases List.prefix_cons_iff.1 front with rfl | ⟨cut, rfl, front'⟩
    · exact nothing_polled ..
    rcases List.prefix_cons_iff.1 front' with rfl | ⟨cut, rfl, front''⟩
    -- the second copy has not arrived
    · exact ⟨[], some (Part.record body).bytes, by rw [List.append_nil]; rfl, List.nil_prefix⟩
    obtain ⟨more, pending, parsed, records⟩ := ih apart.2 front''
      (start + shown.length + (Part.record body).bytes.length + 0 + (Part.record body).bytes.length)
      (logical ++ [(Part.record body).bytes])
    refine ⟨(Part.record body).bytes :: more, pending, Eq.trans ?_ parsed |>.trans ?_,
      List.cons_prefix_cons.2 ⟨rfl, records⟩⟩
    · exact parseItems_pair rfl rfl rfl rfl
    · rw [List.append_assoc]
      rfl

/-- All writes make all records, unless a record is there twice. -/
lemma Emits.parsed (emits : Emits displayEnabled ops chunks) (mode : ParseMode) (start : Nat)
    (logical : List (List UInt8)) :
    (Apart displayEnabled ops →
      parseItems mode logical displayEnabled (itemsOf start chunks) =
        .ok (logical ++ records ops, none)) ∧
    (¬Apart displayEnabled ops →
      parseItems mode logical displayEnabled (itemsOf start chunks) =
        .error "disabled event has a physical pair") := by
  induction emits generalizing start logical with
  | nil displayEnabled =>
    refine ⟨fun _ => ?_, absurd trivial⟩
    rw [records, List.filterMap_nil, List.append_nil]
    rfl
  | text emits ih => exact ih start logical
  | @toggle displayEnabled ops chunks shown emits ih =>
    have step : parseItems mode logical displayEnabled
        (itemsOf start ((shown, .frame !displayEnabled) :: chunks)) =
          parseItems mode logical (!displayEnabled)
            (itemsOf (start + shown.length + (Part.frame !displayEnabled).bytes.length) chunks) := by
      cases displayEnabled
      · exact parseItems_on rfl
      · exact parseItems_off rfl
    rw [step]
    exact ih _ logical
  | @single op ops chunks body shown record emits ih =>
    have behind := ih (start + shown.length + (Part.record body).bytes.length)
      (logical ++ [(Part.record body).bytes])
    rw [List.append_assoc, List.singleton_append, ← records_cons record] at behind
    rw [apart_cons record]
    -- while nothing is displayed, the same record twice in a row looks like a pair
    by_cases twin : nextRecord ops = some (Part.record body).bytes
    · refine ⟨fun apart => absurd twin (apart.1 rfl), fun _ => ?_⟩
      obtain ⟨shown', part, first, kind, same⟩ := emits.head twin
      obtain ⟨_, others, rfl⟩ : ∃ chunk others, chunks = chunk :: others :=
        List.exists_cons_of_ne_nil (by rintro rfl; cases first)
      cases first
      exact parseItems_twin rfl kind same
    · have step : parseItems mode logical false (itemsOf start ((shown, .record body) :: chunks)) =
          parseItems mode (logical ++ [(Part.record body).bytes]) false
            (itemsOf (start + shown.length + (Part.record body).bytes.length) chunks) := by
        refine parseItems_single rfl fun next first kind same => twin ?_
        cases chunks with
        | nil => cases first
        | cons chunk others =>
          obtain ⟨shown', part⟩ := chunk
          cases first
          cases part with
          | frame on => cases on <;> cases kind
          | record again =>
            rw [emits.next rfl]
            exact congrArg some same
      rw [step]
      exact ⟨fun apart => behind.1 apart.2, fun no => behind.2 fun apart => no ⟨fun _ => twin, apart⟩⟩
  | @pair op ops chunks body shown record emits ih =>
    have behind := ih (start + shown.length + (Part.record body).bytes.length + 0 +
      (Part.record body).bytes.length) (logical ++ [(Part.record body).bytes])
    rw [List.append_assoc, List.singleton_append, ← records_cons record] at behind
    rw [apart_cons record]
    have step : parseItems mode logical true
        (itemsOf start ((shown, .record body) :: ([], .record body) :: chunks)) =
          parseItems mode (logical ++ [(Part.record body).bytes]) true
            (itemsOf (start + shown.length + (Part.record body).bytes.length + 0 +
              (Part.record body).bytes.length) chunks) :=
      parseItems_pair rfl rfl rfl rfl
    rw [step]
    exact ⟨fun apart => behind.1 apart.2,
      fun no => behind.2 fun apart => no ⟨(absurd · Bool.true_eq_false.mp), apart⟩⟩

/-- The copies of a record are in front of the others. -/
lemma copies_cons {op : SinkOp} {bytes : List UInt8} (record : op.record = some bytes) :
    copies displayEnabled (op :: ops) =
      (if displayEnabled then [bytes, bytes] else [bytes]) ++ copies displayEnabled ops := by
  cases op <;> cases record <;> rfl

/-- The records captured are the copies. -/
lemma Emits.physical (emits : Emits displayEnabled ops chunks) (start : Nat) :
    ((itemsOf start chunks).filter (·.kind = .record)).map Item.value = copies displayEnabled ops := by
  induction emits generalizing start with
  | nil => rfl
  | text emits ih => exact ih start
  | @toggle displayEnabled ops chunks shown emits ih =>
    rw [copies, ← ih (start + shown.length + (Part.frame !displayEnabled).bytes.length)]
    cases displayEnabled <;> rfl
  | @single op ops chunks body shown record emits ih =>
    rw [copies_cons record, ← ih _]
    rfl
  | @pair op ops chunks body shown record emits ih =>
    rw [copies_cons record, ← ih _]
    rfl

end Emits

section Cut
variable {chunks : List (List UInt8 × Part)} {tail payload : List UInt8}

/-- A part of a clean text is clean. -/
lemma Clean.part {shown part : List UInt8} (clean : Clean shown) (inside : part <:+: shown) :
    Clean part :=
  ⟨fun mem => clean.1 (inside.subset mem), fun marked => clean.2 (marked.trans inside)⟩

/-- Nothing is a torn part. -/
lemma torn_nil : Torn [] := ⟨.frame true, trivial, List.nil_prefix, by decide +kernel⟩

/-- A capture that has been cut off is one of the first writes, and perhaps of a part of the next. -/
lemma capture_cut (sound : Sound chunks) (clean : Clean tail)
    (front : payload <+: capture chunks tail) :
    ∃ cut tail, cut <+: chunks ∧ Sound cut ∧ Ends true tail ∧ payload = capture cut tail := by
  induction chunks generalizing payload with
  | nil =>
    refine ⟨[], payload, List.prefix_rfl, sound, ⟨payload, [], (List.append_nil _).symm, ?_, torn_nil,
      .inl rfl⟩, rfl⟩
    exact clean.part (List.IsPrefix.isInfix front)
  | cons chunk chunks ih =>
    obtain ⟨shown, part⟩ := chunk
    obtain ⟨calm, whole⟩ := sound _ List.mem_cons_self
    have none : Sound [] := fun _ mem => absurd mem List.not_mem_nil
    rw [capture_cons] at front
    rcases Marker.prefix_append_cases front with inside | ⟨rest, rfl, front'⟩
    · refine ⟨[], payload, List.nil_prefix, none, ⟨payload, [], (List.append_nil _).symm, ?_, torn_nil,
        .inl rfl⟩, rfl⟩
      exact calm.part inside.isInfix
    by_cases all : part.bytes <+: rest
    · obtain ⟨rest, rfl⟩ := all
      obtain ⟨cut, tail, first, sound', ends, rfl⟩ :=
        ih sound.rest ((List.prefix_append_right_inj part.bytes).1 front')
      refine ⟨(shown, part) :: cut, tail, List.cons_prefix_cons.2 ⟨rfl, first⟩, ?_, ends,
        (capture_cons ..).symm⟩
      exact List.forall_mem_cons.2 ⟨⟨calm, whole⟩, sound'⟩
    · refine ⟨[], shown ++ rest, List.nil_prefix, none, ⟨shown, rest, rfl, calm, ⟨part, whole, ?_, ?_⟩,
        .inl rfl⟩, rfl⟩
      · rcases Marker.prefix_append_cases front' with less | ⟨more, rfl, -⟩
        · exact less
        · exact absurd (List.prefix_append _ _) all
      · rintro rfl
        exact all List.prefix_rfl

/-- The parse of the items found. -/
lemma parseRecords_of {mode : ParseMode} {all : List Item}
    (found : items payload (decide (mode = .pollingPrefix)) = .ok all) :
    parseRecords payload mode = (parseItems mode [] false all).map fun parsed =>
      ⟨parsed.1, (all.filter (·.kind = .record)).map Item.value, parsed.2⟩ := by
  rw [parseRecords, found]
  rfl

/-- A poll. -/
lemma Emits.poll {ops : List SinkOp} (emits : Emits false ops chunks) (apart : Apart false ops)
    (sound : Sound chunks) (clean : Clean tail) (front : payload <+: capture chunks tail) :
    ∃ result, parseRecords payload .pollingPrefix = .ok result ∧
      result.logicalRecords <+: records ops := by
  obtain ⟨cut, tail', first, sound', ends, rfl⟩ := capture_cut sound clean front
  obtain ⟨more, pending, parsed, some⟩ := emits.polled apart first 0 []
  have found : items (capture cut tail') (decide (ParseMode.pollingPrefix = .pollingPrefix)) =
      .ok (itemsOf 0 cut) := items_capture sound' ends
  rw [parseRecords_of found, parsed]
  exact ⟨_, rfl, some⟩

/-- The reading of a whole capture. -/
lemma Emits.final {ops : List SinkOp} (emits : Emits false ops chunks) (sound : Sound chunks)
    (clean : Clean tail) :
    (Apart false ops → parseRecords (capture chunks tail) .strictFinal =
      .ok ⟨records ops, copies false ops, none⟩) ∧
    (¬Apart false ops → parseRecords (capture chunks tail) .strictFinal =
      .error "disabled event has a physical pair") := by
  have ends : Ends false tail := ⟨tail, [], (List.append_nil _).symm, clean, torn_nil, .inr rfl⟩
  obtain ⟨good, bad⟩ := emits.parsed .strictFinal 0 []
  have found : items (capture chunks tail) (decide (ParseMode.strictFinal = .pollingPrefix)) =
      .ok (itemsOf 0 chunks) := items_capture sound ends
  rw [parseRecords_of found, emits.physical 0]
  refine ⟨fun apart => ?_, fun no => ?_⟩
  · rw [good apart]
    rfl
  · rw [bad no]
    rfl

end Cut

/-- What an operation writes when all goes well. -/
def SinkOp.writes (displayEnabled : Bool) : SinkOp → List (List UInt8)
  | .text => []
  | .toggle => [(Part.frame !displayEnabled).bytes]
  | .checked bytes | .plain bytes => if displayEnabled then [bytes, bytes] else [bytes]

/-- Whether events are displayed after an operation. -/
def SinkOp.display (displayEnabled : Bool) : SinkOp → Bool
  | .toggle => !displayEnabled
  | .text | .checked _ | .plain _ => displayEnabled

/-- The mirror shows something, then writes arrive, at most those and all of them if the operation
succeeds. -/
def Writes (writes : List (List UInt8)) (s : EventSink) (result : Except Nat Unit) (u : EventSink) :
    Prop :=
  ∃ shown pieces, u.wire = pieces.foldl Wire.send (s.wire.mirror shown) ∧
    pieces.flatten <+: writes.flatten ∧ (result = .ok () → pieces = writes)

section Steps
variable {line : Line} {s u : EventSink} {result : Except Nat Unit} {bytes : List UInt8}

/-- Mirroring nothing leaves the wire. -/
lemma Wire.mirror_nil (wire : Wire) : wire.mirror [] = wire :=
  congrArg (Wire.mk wire.sent) (List.append_nil _)

/-- Mirroring in two parts. -/
lemma Wire.mirror_mirror (wire : Wire) (shown more : List UInt8) :
    (wire.mirror shown).mirror more = wire.mirror (shown ++ more) :=
  congrArg (Wire.mk wire.sent) (List.append_assoc ..)

/-- A console output mirrors a text. -/
lemma consoleOutput_wire (run : consoleOutput line s = (result, u)) :
    ∃ shown, u.wire = s.wire.mirror shown ∧ u.displayEnabled = s.displayEnabled := by
  unfold consoleOutput at run
  dsimp only at run
  split at run <;> cases run <;> exact ⟨_, rfl, rfl⟩

/-- A serial write sends a part of its bytes, all if it succeeds. -/
lemma serialWrite_wire (run : serialWrite line bytes s = (result, u)) :
    ∃ piece, u.wire = s.wire.send piece ∧ u.displayEnabled = s.displayEnabled ∧ piece <+: bytes ∧
      (result = .ok () → piece = bytes) := by
  unfold serialWrite at run
  dsimp only at run
  split at run
  · cases run
    exact ⟨bytes, rfl, rfl, List.prefix_rfl, fun _ => rfl⟩
  · cases run
    exact ⟨_, rfl, rfl, List.take_prefix _ _, fun ok => by cases ok⟩

/-- Nothing is written. -/
lemma Writes.none {writes : List (List UInt8)} {error : Nat} {shown : List UInt8}
    (wire : u.wire = s.wire.mirror shown) : Writes writes s (.error error) u :=
  ⟨shown, [], wire, List.nil_prefix, fun ok => by cases ok⟩

/-- A record is sent once, or twice with display. -/
lemma sendRecord_writes {displayEnabled : Bool} (serial : line.hasSerial = true)
    (run : sendRecord line bytes displayEnabled s = (result, u)) :
    Writes (if displayEnabled then [bytes, bytes] else [bytes]) s result u ∧
      u.displayEnabled = s.displayEnabled := by
  -- a record goes out once, or once before and once behind its display
  cases displayEnabled
  · rw [sendRecord, serial] at run
    simp only [Bool.false_eq_true, if_false, if_true] at run
    rw [Fallible.pure_bind] at run
    rcases first : serialWrite line bytes s with ⟨_ | _, t⟩
    · rw [Fallible.bind_error first] at run
      cases run
      obtain ⟨piece, wire, display, part, -⟩ := serialWrite_wire first
      exact ⟨⟨[], [piece], by rw [Wire.mirror_nil]; exact wire, by simpa using part,
        fun ok => by cases ok⟩, display⟩
    · rw [Fallible.bind_ok first] at run
      cases run
      obtain ⟨piece, wire, display, part, all⟩ := serialWrite_wire first
      obtain rfl := all rfl
      exact ⟨⟨[], [piece], by rw [Wire.mirror_nil]; exact wire, List.prefix_rfl, fun _ => rfl⟩,
        display⟩
  · rw [sendRecord, serial] at run
    simp only [if_true] at run
    rcases output : consoleOutput line s with ⟨_ | _, t⟩
    · rw [Fallible.bind_error output] at run
      cases run
      obtain ⟨shown, wire, display⟩ := consoleOutput_wire output
      exact ⟨.none wire, display⟩
    rw [Fallible.bind_ok output] at run
    obtain ⟨shown, wire, display⟩ := consoleOutput_wire output
    rcases first : serialWrite line bytes t with ⟨_ | _, v⟩
    · rw [Fallible.bind_error first] at run
      cases run
      obtain ⟨piece, wire', display', part, -⟩ := serialWrite_wire first
      refine ⟨⟨shown, [piece], wire'.trans (by rw [wire]; rfl), ?_, fun ok => by cases ok⟩,
        display'.trans display⟩
      simp only [List.flatten_cons, List.flatten_nil, List.append_nil]
      exact List.prefix_append_of_prefix part
    rw [Fallible.bind_ok first] at run
    obtain ⟨piece, wire', display', -, all⟩ := serialWrite_wire first
    obtain rfl := all rfl
    obtain ⟨again, wire'', display'', part, all'⟩ := serialWrite_wire run
    refine ⟨⟨shown, [piece, again], ?_, ?_, fun ok => by rw [all' ok]; rfl⟩,
      (display''.trans display').trans display⟩
    · rw [wire'', wire', wire]
      rfl
    · show piece ++ (again ++ []) <+: piece ++ (piece ++ [])
      rw [List.append_nil, List.append_nil]
      exact (List.prefix_append_right_inj piece).2 part

/-- A write that fails marks the failure. -/
lemma Writes.failed {writes : List (List UInt8)} {error : Nat}
    (wrote : Writes writes s result u) : Writes writes s (.error error) (failRecord u) := by
  obtain ⟨shown, pieces, wire, part, -⟩ := wrote
  exact ⟨shown, pieces, wire, part, fun ok => by cases ok⟩

/-- A computation with a handler succeeds, or was handled. -/
lemma onError_ok {f : Nat → EventSink → EventSink} {c : SinkM Unit}
    (run : c.onError f s = (result, u)) :
    ∃ t, c s = (result, t) ∧ (result = .ok () ∧ u = t ∨ ∃ error, result = .error error ∧ u = f error t) := by
  rcases inner : c s with ⟨_ | _, t⟩
  · rw [Fallible.onError, inner] at run
    cases run
    exact ⟨t, rfl, .inr ⟨_, rfl, rfl⟩⟩
  · rw [Fallible.onError, inner] at run
    cases run
    exact ⟨u, rfl, .inl ⟨rfl, rfl⟩⟩

/-- A failure writes nothing. -/
lemma fail_writes {writes : List (List UInt8)} {f : Nat → EventSink → EventSink} {error : Nat}
    (same : (f error s).wire = s.wire)
    (run : Fallible.onError (.fail error : SinkM Unit) f s = (result, u)) :
    Writes writes s result u ∧ ∀ display, result = .ok () → u.displayEnabled = display := by
  cases run
  exact ⟨.none (same.trans (Wire.mirror_nil _).symm), fun _ ok => by cases ok⟩

/-- A checked record is sent once, or twice with display. -/
lemma emitRecordChecked_writes (serial : line.hasSerial = true)
    (run : emitRecordChecked line bytes s = (result, u)) :
    Writes (if s.displayEnabled then [bytes, bytes] else [bytes]) s result u ∧
      (result = .ok () → u.displayEnabled = s.displayEnabled) := by
  rw [emitRecordChecked, Fallible.bind_ok (Fallible.get_apply s)] at run
  split at run
  · cases run
    exact ⟨.none (Wire.mirror_nil _).symm, fun ok => by cases ok⟩
  split at run
  · exact (fail_writes rfl run).imp_right fun all => all _
  split at run
  · exact (fail_writes rfl run).imp_right fun all => all _
  split at run
  · exact (fail_writes rfl run).imp_right fun all => all _
  obtain ⟨t, sent, ⟨rfl, rfl⟩ | ⟨error, rfl, rfl⟩⟩ := onError_ok run
  · obtain ⟨wrote, display⟩ := sendRecord_writes serial sent
    exact ⟨wrote, fun _ => display⟩
  · obtain ⟨wrote, -⟩ := sendRecord_writes serial sent
    exact ⟨wrote.failed, fun ok => by cases ok⟩

/-- A record is sent once, or twice with display. -/
lemma emitRecord_writes {good : Bool} (serial : line.hasSerial = true)
    (run : emitRecord line bytes s = (good, u)) :
    Writes (if s.displayEnabled then [bytes, bytes] else [bytes]) s
        (if good then .ok () else .error Repl.efiDeviceError) u ∧
      (good = true → u.displayEnabled = s.displayEnabled) := by
  have nothing : Writes (if s.displayEnabled then [bytes, bytes] else [bytes]) s
      (.error Repl.efiDeviceError) s := .none (Wire.mirror_nil _).symm
  unfold emitRecord at run
  split at run
  · cases run
    exact ⟨nothing, (absurd · Bool.false_ne_true)⟩
  split at run
  · cases run
    exact ⟨nothing.failed, (absurd · Bool.false_ne_true)⟩
  split at run
  · cases run
    exact ⟨nothing.failed, (absurd · Bool.false_ne_true)⟩
  rcases sent : sendRecord line bytes s.displayEnabled s with ⟨_ | _, t⟩
  · rw [sent] at run
    cases run
    exact ⟨(sendRecord_writes serial sent).1.failed, (absurd · Bool.false_ne_true)⟩
  · rw [sent] at run
    obtain ⟨wrote, display⟩ := sendRecord_writes serial sent
    dsimp only at run
    split at run
    · cases run
      exact ⟨wrote.failed, (absurd · Bool.false_ne_true)⟩
    · cases run
      exact ⟨wrote, fun _ => display⟩

/-- A console text mirrors a text. -/
lemma writeAsciiChecked_wire (run : writeAsciiChecked line bytes s = (result, u)) :
    ∃ shown, u.wire = s.wire.mirror shown ∧ u.displayEnabled = s.displayEnabled := by
  unfold writeAsciiChecked at run
  split at run
  · cases run
    exact ⟨[], (Wire.mirror_nil _).symm, rfl⟩
  · exact consoleOutput_wire run

/-- A switch sends its frame. -/
lemma toggleEvents_writes (serial : line.hasSerial = true)
    (run : toggleEvents line s = (result, u)) :
    Writes [(Part.frame !s.displayEnabled).bytes] s result u ∧
      (result = .ok () → u.displayEnabled = !s.displayEnabled) := by
  rw [toggleEvents] at run
  rcases newline : writeAsciiChecked line crlf s with ⟨_ | _, t⟩
  · rw [Fallible.bind_error newline] at run
    cases run
    obtain ⟨shown, wire, -⟩ := writeAsciiChecked_wire newline
    exact ⟨.none wire, fun ok => by cases ok⟩
  rw [Fallible.bind_ok newline] at run
  obtain ⟨shown, wire, display⟩ := writeAsciiChecked_wire newline
  rw [Fallible.bind_ok (Fallible.modify_apply _ _), Fallible.bind_ok (Fallible.get_apply _)] at run
  dsimp only at run
  generalize message : writeAsciiChecked line _ _ = messaged at run
  rcases messaged with ⟨_ | _, v⟩
  · rw [Fallible.bind_error message] at run
    cases run
    obtain ⟨more, wire', -⟩ := writeAsciiChecked_wire message
    exact ⟨.none (wire'.trans (by rw [wire]; exact Wire.mirror_mirror ..)), fun ok => by cases ok⟩
  rw [Fallible.bind_ok message] at run
  obtain ⟨more, wire', display'⟩ := writeAsciiChecked_wire message
  have frame : (if (!t.displayEnabled) = true then displayOnFrame else displayOffFrame) =
      (Part.frame !s.displayEnabled).bytes := by
    rw [display]
    cases s.displayEnabled <;> rfl
  rw [writeSerialChecked, if_pos serial, frame] at run
  obtain ⟨piece, wire'', display'', part, all⟩ := serialWrite_wire run
  refine ⟨⟨shown ++ more, [piece], ?_, ?_, fun ok => by rw [all ok]⟩, fun _ => ?_⟩
  · rw [wire'', wire', wire, ← Wire.mirror_mirror]
    rfl
  · show piece ++ [] <+: _ ++ []
    rw [List.append_nil, List.append_nil]
    exact part
  · exact (display''.trans display').trans (congrArg not display)

/-- Behind its first text the command has switched the display, whatever becomes of it. -/
lemma toggleEvents_switches {t : EventSink} (first : writeAsciiChecked line crlf s = (.ok (), t))
    (run : toggleEvents line s = (result, u)) : u.displayEnabled = !t.displayEnabled := by
  rw [toggleEvents, Fallible.bind_ok first, Fallible.bind_ok (Fallible.modify_apply _ _),
    Fallible.bind_ok (Fallible.get_apply _)] at run
  rcases second : writeAsciiChecked line (byteString (if !t.displayEnabled then "events: on\r\n"
      else "events: off\r\n")) { t with displayEnabled := !t.displayEnabled } with ⟨_ | _, t'⟩
  · rw [Fallible.bind_error second] at run
    cases run
    obtain ⟨_, _, display⟩ := writeAsciiChecked_wire second
    exact display
  · rw [Fallible.bind_ok second] at run
    obtain ⟨_, _, display⟩ := writeAsciiChecked_wire second
    refine Eq.trans ?_ display
    unfold writeSerialChecked at run
    split at run
    · obtain ⟨_, _, same, _⟩ := serialWrite_wire run
      exact same
    · cases run
      rfl

/-- What an operation writes. -/
lemma SinkOp.run_writes {op : SinkOp} (serial : line.hasSerial = true)
    (run : op.run line s = (result, u)) :
    Writes (op.writes s.displayEnabled) s result u ∧
      (result = .ok () → u.displayEnabled = op.display s.displayEnabled) := by
  cases op with
  | text =>
    rcases output : consoleOutput line s with ⟨answer, t⟩
    obtain ⟨shown, wire, display⟩ := consoleOutput_wire output
    have ran : ((.ok (), (consoleOutput line s).2) : Except Nat Unit × EventSink) = (result, u) := run
    rw [output] at ran
    cases ran
    exact ⟨⟨shown, [], wire, List.nil_prefix, fun _ => rfl⟩, fun _ => display⟩
  | toggle => exact toggleEvents_writes serial run
  | checked bytes => exact emitRecordChecked_writes serial run
  | plain bytes =>
    have ran : emitted (emitRecord line bytes s) = (result, u) := run
    rcases sent : emitRecord line bytes s with ⟨good, t⟩
    rw [sent] at ran
    cases ran
    obtain ⟨wrote, display⟩ := emitRecord_writes serial sent
    cases good
    · exact ⟨wrote, fun ok => by cases ok⟩
    · exact ⟨wrote, fun _ => display rfl⟩

end Steps

/-- What has arrived behind the writes before. -/
def arrived (sent : List (List UInt8 × List UInt8)) (quiet : List UInt8) : List UInt8 :=
  (sent.flatMap fun chunk => chunk.1 ++ chunk.2) ++ quiet

section Run
variable {line : Line} {op : SinkOp} {ops : List SinkOp} {displayEnabled : Bool}
  {chunks : List (List UInt8 × Part)} {shown tail : List UInt8}

/-- The chunks of an operation that writes, behind what is shown. -/
lemma exists_head (whole : ∀ bytes ∈ op.record, RecordText bytes) (some : op ≠ .text)
    (shown : List UInt8) :
    ∃ head, (∀ ops chunks, Emits (op.display displayEnabled) ops chunks →
        Emits displayEnabled (op :: ops) (head ++ chunks)) ∧
      (Clean shown → Sound head) ∧
      ∀ chunks tail, capture (head ++ chunks) tail =
        shown ++ (op.writes displayEnabled).flatten ++ capture chunks tail := by
  have record {bytes : List UInt8} (record : op.record = .some bytes)
      (display : op.display displayEnabled = displayEnabled)
      (writes : op.writes displayEnabled = if displayEnabled then [bytes, bytes] else [bytes]) :
      ∃ head, (∀ ops chunks, Emits (op.display displayEnabled) ops chunks →
          Emits displayEnabled (op :: ops) (head ++ chunks)) ∧
        (Clean shown → Sound head) ∧
        ∀ chunks tail, capture (head ++ chunks) tail =
          shown ++ (op.writes displayEnabled).flatten ++ capture chunks tail := by
    obtain ⟨body, rfl, plain⟩ := whole bytes record
    have nothing : Clean [] := ⟨List.not_mem_nil, by decide +kernel⟩
    rw [display, writes]
    cases displayEnabled
    · refine ⟨[(shown, .record body)], fun ops chunks emits => .single shown record emits,
        fun clean => List.forall_mem_singleton.2 ⟨clean, plain⟩, fun chunks tail => ?_⟩
      rw [List.singleton_append, capture_cons]
      show _ = shown ++ ((Part.record body).bytes ++ []) ++ _
      rw [List.append_nil, List.append_assoc]
    · refine ⟨[(shown, .record body), ([], .record body)],
        fun ops chunks emits => .pair shown record emits,
        fun clean => List.forall_mem_cons.2 ⟨⟨clean, plain⟩,
          List.forall_mem_singleton.2 ⟨nothing, plain⟩⟩, fun chunks tail => ?_⟩
      show capture ((shown, .record body) :: ([], .record body) :: chunks) tail =
        shown ++ ((Part.record body).bytes ++ ((Part.record body).bytes ++ [])) ++ _
      rw [capture_cons, capture_cons, List.append_nil, List.append_assoc, List.append_assoc]
      rfl
  cases op with
  | text => exact absurd rfl some
  | toggle =>
    refine ⟨[(shown, .frame !displayEnabled)], fun ops chunks emits => .toggle shown emits,
      fun clean => List.forall_mem_singleton.2 ⟨clean, trivial⟩, fun chunks tail => ?_⟩
    rw [List.singleton_append, capture_cons]
    show _ = shown ++ ((Part.frame !displayEnabled).bytes ++ []) ++ _
    rw [List.append_nil, List.append_assoc]
  | checked bytes => exact record rfl rfl rfl
  | plain bytes => exact record rfl rfl rfl

/-- A session could go on without a word from the mirror. -/
lemma exists_emits (whole : ∀ op ∈ ops, ∀ bytes ∈ op.record, RecordText bytes)
    (displayEnabled : Bool) (clean : Clean shown) :
    ∃ chunks tail, Emits displayEnabled ops chunks ∧ Sound chunks ∧ Clean tail ∧
      shown <+: capture chunks tail := by
  have nothing : Clean [] := ⟨List.not_mem_nil, by decide +kernel⟩
  induction ops generalizing displayEnabled shown with
  | nil =>
    exact ⟨[], shown, .nil displayEnabled, fun _ mem => absurd mem List.not_mem_nil, clean,
      List.prefix_rfl⟩
  | cons op ops ih =>
    obtain ⟨here, later⟩ := List.forall_mem_cons.1 whole
    by_cases text : op = .text
    · subst text
      obtain ⟨chunks, tail, emits, sound, quiet, front⟩ := ih later displayEnabled clean
      exact ⟨chunks, tail, .text emits, sound, quiet, front⟩
    · obtain ⟨chunks, tail, emits, sound, quiet, -⟩ := ih later (op.display displayEnabled) nothing
      obtain ⟨head, grows, sound', same⟩ := exists_head here text shown
      refine ⟨head ++ chunks, tail, grows _ _ emits, ?_, quiet, ?_⟩
      · exact List.forall_mem_append.2 ⟨sound' clean, sound⟩
      · rw [same, List.append_assoc]
        exact List.prefix_append _ _

/-- Pieces are sent one behind the other. -/
lemma foldl_send (wire : Wire) (piece : List UInt8) (pieces : List (List UInt8)) :
    (piece :: pieces).foldl Wire.send wire =
      ⟨wire.sent ++ (wire.quiet, piece) :: pieces.map ([], ·), []⟩ := by
  induction pieces generalizing wire piece with
  | nil => rfl
  | cons next pieces ih =>
    have step : (piece :: next :: pieces).foldl Wire.send wire =
        (next :: pieces).foldl Wire.send (wire.send piece) := rfl
    rw [step, ih]
    exact congrArg (Wire.mk · []) (List.append_assoc ..)

/-- Pieces arrive one behind the other. -/
lemma arrived_pieces (shown piece : List UInt8) (pieces : List (List UInt8)) :
    arrived ((shown, piece) :: pieces.map ([], ·)) [] = shown ++ (piece :: pieces).flatten := by
  have rest : (pieces.map (([], ·) : List UInt8 → List UInt8 × List UInt8)).flatMap
      (fun chunk => chunk.1 ++ chunk.2) = pieces.flatten := by
    rw [List.flatMap_map]
    exact List.flatMap_id
  rw [arrived, List.flatMap_cons, rest, List.append_nil, List.flatten_cons, List.append_assoc]

/-- What arrives in two parts. -/
lemma arrived_append (sent more : List (List UInt8 × List UInt8)) (quiet : List UInt8) :
    arrived (sent ++ more) quiet = arrived sent [] ++ arrived more quiet := by
  rw [arrived, arrived, arrived, List.flatMap_append, List.append_nil, List.append_assoc]

/-- Only a text writes nothing. -/
lemma writes_eq_nil (none : op.writes displayEnabled = []) : op = .text := by
  cases op with
  | text => rfl
  | toggle => cases none
  | checked bytes =>
    rw [SinkOp.writes] at none
    split at none <;> cases none
  | plain bytes =>
    rw [SinkOp.writes] at none
    split at none <;> cases none

/-- What arrives in a session is the beginning of a capture that the session could have, and all of
it when nothing fails. -/
lemma run_arrives {s u : EventSink} {result : Except Nat Unit} (serial : line.hasSerial = true)
    (whole : ∀ op ∈ ops, ∀ bytes ∈ op.record, RecordText bytes)
    (run : ops.forM (SinkOp.run line) s = (result, u)) :
    ∃ new, u.wire.sent = s.wire.sent ++ new ∧
      ((∀ chunk ∈ new, Clean chunk.1) → Clean u.wire.quiet →
        ∃ chunks tail, Emits s.displayEnabled ops chunks ∧ Sound chunks ∧ Clean tail ∧
          arrived new u.wire.quiet <+: capture chunks tail ∧
          (result = .ok () → arrived new u.wire.quiet = capture chunks tail)) := by
  -- on the operations: the first fails and ends the session, or the rest goes on behind it
  induction ops generalizing s with
  | nil =>
    cases run
    exact ⟨[], (List.append_nil _).symm, fun _ clean => ⟨[], _, .nil _,
      fun _ mem => absurd mem List.not_mem_nil, clean, List.prefix_rfl, fun _ => rfl⟩⟩
  | cons op ops ih =>
    have nothing : Clean [] := ⟨List.not_mem_nil, by decide +kernel⟩
    obtain ⟨here, later⟩ := List.forall_mem_cons.1 whole
    rw [Fallible.forM_cons] at run
    rcases first : op.run line s with ⟨_ | _, t⟩
    -- the session ends with what has arrived of this operation
    · rw [Fallible.bind_error first] at run
      cases run
      obtain ⟨⟨shown, pieces, wire, part, -⟩, -⟩ := SinkOp.run_writes serial first
      cases pieces with
      | nil =>
        rw [wire]
        refine ⟨[], (List.append_nil _).symm, fun _ clean => ?_⟩
        obtain ⟨chunks, tail, emits, sound, quiet, front⟩ :=
          exists_emits whole s.displayEnabled clean
        exact ⟨chunks, tail, emits, sound, quiet, front, fun ok => by cases ok⟩
      | cons piece pieces =>
        rw [wire, foldl_send]
        refine ⟨_, rfl, fun clean _ => ?_⟩
        have calm : Clean (s.wire.quiet ++ shown) := clean _ List.mem_cons_self
        have all := arrived_pieces (s.wire.mirror shown).quiet piece pieces
        rw [all]
        by_cases text : op = .text
        -- a failed text has sent nothing of its own
        · subst text
          rw [List.prefix_nil.1 part, List.append_nil]
          obtain ⟨chunks, tail, emits, sound, quiet, front⟩ :=
            exists_emits whole s.displayEnabled calm
          exact ⟨chunks, tail, emits, sound, quiet, front, fun ok => by cases ok⟩
        · obtain ⟨chunks, tail, emits, sound, quiet, -⟩ :=
            exists_emits later (op.display s.displayEnabled) nothing
          obtain ⟨head, grows, sound', same⟩ := exists_head here text (s.wire.quiet ++ shown)
          refine ⟨head ++ chunks, tail, grows _ _ emits,
            List.forall_mem_append.2 ⟨sound' calm, sound⟩, quiet, ?_, fun ok => by cases ok⟩
          rw [same, List.append_assoc]
          exact (List.prefix_append_right_inj _).2 (List.prefix_append_of_prefix part)
    -- the operation has gone out whole, and what follows is the induction's
    · rw [Fallible.bind_ok first] at run
      obtain ⟨⟨shown, pieces, wire, -, all⟩, display⟩ := SinkOp.run_writes serial first
      obtain rfl := all rfl
      obtain ⟨new, sent, reads⟩ := ih later run
      rw [display rfl] at reads
      by_cases text : op = .text
      · subst text
        rw [wire] at sent
        refine ⟨new, sent, fun clean quiet => ?_⟩
        obtain ⟨chunks, tail, emits, rest⟩ := reads clean quiet
        exact ⟨chunks, tail, .text emits, rest⟩
      · obtain ⟨piece, pieces, writes⟩ := List.exists_cons_of_ne_nil (mt writes_eq_nil text)
        rw [writes, foldl_send] at wire
        rw [wire] at sent
        refine ⟨((s.wire.mirror shown).quiet, piece) :: pieces.map ([], ·) ++ new,
          sent.trans (List.append_assoc ..), fun clean quiet => ?_⟩
        obtain ⟨calm, clean'⟩ := List.forall_mem_append.1 clean
        obtain ⟨chunks, tail, emits, sound, quiet', front, whole'⟩ := reads clean' quiet
        obtain ⟨head, grows, sound', same⟩ := exists_head here text (s.wire.quiet ++ shown)
        rw [arrived_append, arrived_pieces, ← writes]
        refine ⟨head ++ chunks, tail, grows _ _ emits,
          List.forall_mem_append.2 ⟨sound' (calm _ List.mem_cons_self), sound⟩, quiet', ?_,
          fun ok => ?_⟩
        · rw [same]
          exact (List.prefix_append_right_inj _).2 front
        · rw [same, whole' ok]
          rfl

end Run

/-- An `/events` that leaves the display as it was: it has failed before the switch. -/
def SinkOp.unswitched (line : Line) (s : EventSink) : SinkOp → Bool
  | .toggle => (toggleEvents line s).2.displayEnabled == s.displayEnabled
  | .text | .checked _ | .plain _ => false

/-- All operations go well, but for `/events` that fail before they switch the display. -/
def Steady (line : Line) : EventSink → List SinkOp → Prop
  | _, [] => True
  | s, op :: ops => ((op.run line s).1 = .ok () ∨ op.unswitched line s = true) ∧
      Steady line (op.run line s).2 ops

instance decidableSteady (line : Line) :
    (s : EventSink) → (ops : List SinkOp) → Decidable (Steady line s ops)
  | _, [] => isTrue trivial
  | s, op :: ops =>
    have := decidableSteady line (op.run line s).2 ops
    inferInstanceAs (Decidable (_ ∧ _))

/-- The operations of a session as the line has them: an `/events` that has switched nothing is a
text. -/
def settle (line : Line) : EventSink → List SinkOp → List SinkOp
  | _, [] => []
  | s, op :: ops =>
    (if op.unswitched line s then .text else op) :: settle line (op.run line s).2 ops

section Settle
variable {line : Line} {s : EventSink} {op : SinkOp} {ops more : List SinkOp}

/-- What has switched nothing is no more than a text on the console. -/
lemma unswitched_text (unswitched : op.unswitched line s = true) :
    op = .toggle ∧ SinkOp.text.run line s = (.ok (), (op.run line s).2) := by
  cases op with
  | toggle =>
    refine ⟨rfl, congrArg (Prod.mk _) ?_⟩
    show (consoleOutput line s).2 = (toggleEvents line s).2
    rcases first : writeAsciiChecked line crlf s with ⟨error | _, t⟩
    · have checked : writeAsciiChecked line crlf s = consoleOutput line s :=
        congrFun (if_neg (by decide)) s
      rw [toggleEvents, Fallible.bind_error first, ← checked, first]
    -- behind the first text the display is switched whatever happens
    · obtain ⟨_, _, same⟩ := writeAsciiChecked_wire first
      have display : (toggleEvents line s).2.displayEnabled = !t.displayEnabled :=
        toggleEvents_switches first rfl
      rw [SinkOp.unswitched, display, same] at unswitched
      exact absurd unswitched (by cases s.displayEnabled <;> decide)
  | text | checked bytes | plain bytes => cases unswitched

/-- The outcome of a session is that of the operations as the line has them. -/
lemma settle_run (steady : Steady line s ops) :
    (settle line s ops).forM (SinkOp.run line) s = (.ok (), session line ops s) := by
  induction ops generalizing s with
  | nil => rfl
  | cons op ops ih =>
    obtain ⟨here, later⟩ := steady
    have first : (if op.unswitched line s then SinkOp.text else op).run line s =
        (.ok (), (op.run line s).2) := by
      split
      case isTrue unswitched => exact (unswitched_text unswitched).2
      case isFalse switched => exact Prod.ext (here.resolve_right switched) rfl
    rw [settle, Fallible.forM_cons, Fallible.bind_ok first]
    exact ih later

/-- Operations settle in turn, the later ones behind the session so far. -/
lemma settle_append :
    settle line s (ops ++ more) = settle line s ops ++ settle line (session line ops s) more := by
  induction ops generalizing s with
  | nil => rfl
  | cons op ops ih => exact congrArg (_ :: ·) ih

/-- One more operation, whatever becomes of it. -/
lemma settle_last (steady : Steady line s ops) (last : SinkOp) :
    ((settle line s (ops ++ [last])).forM (SinkOp.run line) s).2 =
      session line (ops ++ [last]) s := by
  have ended : session line (ops ++ [last]) s = (last.run line (session line ops s)).2 := by
    rw [session, List.foldl_append]
    rfl
  rw [settle_append, Fallible.forM_append, Fallible.bind_ok (settle_run steady), ended, settle]
  split
  case isTrue unswitched =>
    rw [Fallible.forM_cons, Fallible.bind_ok (unswitched_text unswitched).2]
    rfl
  case isFalse =>
    rw [Fallible.forM_cons]
    rcases ran : last.run line (session line ops s) with ⟨_ | _, t⟩
    · rw [Fallible.bind_error ran]
    · rw [Fallible.bind_ok ran]
      rfl

/-- Settling keeps the records. -/
lemma records_settle : records (settle line s ops) = records ops := by
  induction ops generalizing s with
  | nil => rfl
  | cons op ops ih =>
    have same : (if op.unswitched line s then SinkOp.text else op).record = op.record := by
      split
      case isTrue unswitched => rw [(unswitched_text unswitched).1]; rfl
      case isFalse => rfl
    rw [settle, records, records, List.filterMap_cons, List.filterMap_cons, same, ← records,
      ← records, ih]

/-- Settling keeps the records whole. -/
lemma settle_whole (whole : ∀ op ∈ ops, ∀ bytes ∈ op.record, RecordText bytes) :
    ∀ op ∈ settle line s ops, ∀ bytes ∈ op.record, RecordText bytes := by
  induction ops generalizing s with
  | nil => exact fun _ mem => absurd mem List.not_mem_nil
  | cons op ops ih =>
    obtain ⟨here, later⟩ := List.forall_mem_cons.1 whole
    refine List.forall_mem_cons.2 ⟨?_, ih later⟩
    split
    · exact fun _ mem => absurd mem (Option.not_mem_none _)
    · exact here

end Settle

section Reads
variable {line : Line} {ops : List SinkOp} {result : Except Nat Unit} {u : EventSink}

/-- What a reader finds of operations up to the first that fails. -/
lemma run_reads (serial : line.hasSerial = true)
    (whole : ∀ op ∈ ops, ∀ bytes ∈ op.record, RecordText bytes)
    (run : ops.forM (SinkOp.run line) .new = (result, u))
    (clean : ∀ chunk ∈ u.wire.sent, Clean chunk.1) (quiet : Clean u.wire.quiet) :
    (Apart false ops → ∀ n, ∃ found,
      parseRecords (u.wire.bytes.take n) .pollingPrefix = .ok found ∧
        found.logicalRecords <+: records ops) ∧
    (result = .ok () →
      (Apart false ops → parseRecords u.wire.bytes .strictFinal =
        .ok ⟨records ops, copies false ops, none⟩) ∧
      (¬Apart false ops → parseRecords u.wire.bytes .strictFinal =
        .error "disabled event has a physical pair")) := by
  obtain ⟨new, sent, reads⟩ := run_arrives serial whole run
  have all : u.wire.sent = new := sent
  obtain ⟨chunks, tail, emits, sound, clean', front, same⟩ := reads (all ▸ clean) quiet
  have bytes : u.wire.bytes = arrived new u.wire.quiet := by
    rw [← all]
    rfl
  rw [← bytes] at front same
  refine ⟨fun apart n => ?_, fun ok => ?_⟩
  · exact emits.poll apart sound clean' ((List.take_prefix n _).trans front)
  · rw [same ok]
    exact emits.final sound clean'

end Reads

section Sessions

/-- A firmware that takes what it is given, but for the call of that number. -/
def lineBut (failing : Nat) (reported : Nat → Nat) : Line where
  hasConout := true
  hasSerial := true
  console call := (if call = failing then Repl.efiDeviceError else efiSuccess, [0x6f, 0x6b])
  serial call := ⟨efiSuccess, reported call, 0⟩

/-- A record of one event. -/
def recordOf (event : UInt8) : List UInt8 := eventPrefix ++ [event] ++ crlf

/-- The records of the example are whole. -/
lemma recordText_recordOf {event : UInt8}
    (plain : 0x00 ∉ [event] ∧ 0x0a ∉ [event] ∧ 0x0d ∉ [event]) : RecordText (recordOf event) :=
  ⟨[event], rfl, plain⟩

-- The firmware refuses the text behind the switch: no frame is sent, and the record of the failure
-- goes out twice to a reader who takes it for one that is not displayed.
example : parseRecords (session (lineBut 1 fun _ => 24) [.toggle, .plain (recordOf 0x61)]
    .new).wire.bytes .strictFinal = .error "disabled event has a physical pair" := by
  let twice : List SinkOp := [.text, .text, .text, .plain (recordOf 0x61), .plain (recordOf 0x61)]
  have whole : ∀ op ∈ twice, ∀ bytes ∈ op.record, RecordText bytes := by
    have text : RecordText (recordOf 0x61) := recordText_recordOf (by decide)
    have plain : ∀ bytes ∈ (SinkOp.plain (recordOf 0x61)).record, RecordText bytes := by
      rintro bytes mem
      exact Option.mem_some_iff.1 mem ▸ text
    have none : ∀ bytes ∈ SinkOp.text.record, RecordText bytes :=
      fun _ mem => absurd mem (Option.not_mem_none _)
    simp only [twice, List.forall_mem_cons]
    exact ⟨none, none, none, plain, plain, fun _ mem => absurd mem List.not_mem_nil⟩
  have same : (session (lineBut 1 fun _ => 24) [.toggle, .plain (recordOf 0x61)] .new).wire.bytes =
      (twice.forM (SinkOp.run (lineBut 9 fun _ => 24)) .new).2.wire.bytes := by decide +kernel
  have again : ¬Apart false twice := fun apart => apart.1 rfl rfl
  obtain ⟨result, u, run⟩ : ∃ result u,
      twice.forM (SinkOp.run (lineBut 9 fun _ => 24)) .new = (result, u) :=
    ⟨_, _, Prod.mk.eta.symm⟩
  have calm : ∀ chunk ∈ u.wire.sent, Clean chunk.1 := by
    rw [show u = _ from (congrArg Prod.snd run).symm]
    decide +kernel
  have quiet : Clean u.wire.quiet := by
    rw [show u = _ from (congrArg Prod.snd run).symm]
    decide +kernel
  have good : result = .ok () := by
    rw [show result = _ from (congrArg Prod.fst run).symm]
    decide +kernel
  rw [same, run]
  exact ((run_reads rfl whole run calm quiet).2 good).2 again

end Sessions

end Promptboot.Events
