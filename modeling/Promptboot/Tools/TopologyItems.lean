import Promptboot.Tools.EventTopology

/-!
# What a capture consists of

The writes of the sink in a capture, apart from what the mirror shows between them, are the items
that the reader finds there, also when the capture has been cut off anywhere.

`Clean` is a capture whose mirrored texts are harmless and `Torn` a last part that has been cut off.
`recordsOf_capture` and `frameItems_capture` are the inductions over the parts, one for each of the
two searches of the reader, and the headline `items_capture` merges them by their places.
-/

namespace Promptboot.Events
open Marker (Quiet Breaks)

/-- What a write puts on the line. -/
inductive Part where
  | record (body : List UInt8)
  | frame (on : Bool)

namespace Part

def bytes : Part → List UInt8
  | record body => eventPrefix ++ body ++ crlf
  | frame true => displayOnFrame
  | frame false => displayOffFrame

def kind : Part → ItemKind
  | record _ => .record
  | frame true => .on
  | frame false => .off

/-- One line. -/
def Whole : Part → Prop
  | record body => 0x00 ∉ body ∧ 0x0a ∉ body ∧ 0x0d ∉ body
  | frame _ => True

end Part

/-- What the prefix of a record and the frames have in common. -/
def eventMarker : List UInt8 := byteString "PROMPTBOOT_EVENT"

/-- What the mirror may show: not the marker in one piece. -/
def Clean (shown : List UInt8) : Prop := 0x00 ∉ shown ∧ ¬eventMarker <:+: shown

instance (shown : List UInt8) : Decidable (Clean shown) :=
  inferInstanceAs (Decidable (0x00 ∉ shown ∧ ¬eventMarker <:+: shown))

/-- The writes, each behind what is shown, and what is shown behind the last. -/
def capture (chunks : List (List UInt8 × Part)) (tail : List UInt8) : List UInt8 :=
  (chunks.flatMap fun chunk => chunk.1 ++ chunk.2.bytes) ++ tail

/-- What is left of a write that has been cut off. -/
def Torn (torn : List UInt8) : Prop :=
  ∃ part : Part, part.Whole ∧ torn <+: part.bytes ∧ torn ≠ part.bytes

def Sound (chunks : List (List UInt8 × Part)) : Prop :=
  ∀ chunk ∈ chunks, Clean chunk.1 ∧ chunk.2.Whole

/-- The items of a capture. -/
def itemsOf : Nat → List (List UInt8 × Part) → List Item
  | _, [] => []
  | start, (shown, part) :: chunks =>
    let at_ := start + shown.length
    ⟨part.kind, part.bytes, at_, at_ + part.bytes.length⟩ :: itemsOf (at_ + part.bytes.length) chunks

section Literals

/-- The bytes of the prefix. -/
lemma eventPrefix_eq : eventPrefix = [80, 82, 79, 77, 80, 84, 66, 79, 79, 84, 95, 69, 86, 69, 78, 84,
    32, 118, 61, 49, 32] := by
  decide +kernel

/-- The bytes of the marker. -/
lemma eventMarker_eq :
    eventMarker = [80, 82, 79, 77, 80, 84, 66, 79, 79, 84, 95, 69, 86, 69, 78, 84] := by
  decide +kernel

/-- The bytes of the frame that switches on. -/
lemma displayOnFrame_eq : displayOnFrame = [0, 80, 82, 79, 77, 80, 84, 66, 79, 79, 84, 95, 69, 86, 69,
    78, 84, 83, 95, 79, 78, 0] := by
  decide +kernel

/-- The bytes of the frame that switches off. -/
lemma displayOffFrame_eq : displayOffFrame = [0, 80, 82, 79, 77, 80, 84, 66, 79, 79, 84, 95, 69, 86,
    69, 78, 84, 83, 95, 79, 70, 70, 0] := by
  decide +kernel

/-- The prefix begins with the marker. -/
lemma marker_begins : eventMarker <+: eventPrefix := by
  rw [eventPrefix_eq, eventMarker_eq]
  decide

/-- The marker does not overlap itself. -/
lemma marker_unbordered : Marker.Unbordered eventMarker := by
  rw [eventMarker_eq]
  decide +kernel

/-- A frame begins with a zero byte. -/
lemma bytes_frame (on : Bool) : ∃ tail, (Part.frame on).bytes = 0 :: tail := by
  cases on
  · exact ⟨_, displayOffFrame_eq⟩
  · exact ⟨_, displayOnFrame_eq⟩

/-- No record begins within a frame. -/
lemma quiet_frame (on : Bool) (rest : List UInt8) :
    Quiet eventPrefix (Part.frame on).bytes rest := by
  cases on
  · show Quiet eventPrefix displayOffFrame rest
    rw [displayOffFrame_eq, eventPrefix_eq]
    simp [Quiet]
  · show Quiet eventPrefix displayOnFrame rest
    rw [displayOnFrame_eq, eventPrefix_eq]
    simp [Quiet]

end Literals

section Lines
variable {line text rest : List UInt8} {lines : List (List UInt8)} {length : Nat} {allow : Bool}

/-- A text that is not empty has a line. -/
lemma splitLines_ne_nil (byte : UInt8) (text : List UInt8) : splitLines (byte :: text) ≠ [] := by
  cases text with
  | nil => exact List.cons_ne_nil _ _
  | cons next rest =>
    rw [splitLines]
    split
    · exact List.cons_ne_nil _ _
    split
    · exact List.cons_ne_nil _ _
    split <;> exact List.cons_ne_nil _ _

/-- The first line is what the text begins with. -/
lemma splitLines_front (found : splitLines text = line :: lines) : line <+: text := by
  induction text using splitLines.induct generalizing line lines with
  | case1 => cases found
  | case2 byte =>
    cases found
    exact List.prefix_rfl
  | case3 byte next rest pair =>
    rw [splitLines, if_pos pair] at found
    cases found
    exact List.prefix_append [byte, next] rest
  | case4 byte next rest pair ends =>
    rw [splitLines, if_neg pair, if_pos ends] at found
    cases found
    exact List.prefix_append [byte] (next :: rest)
  | case5 byte next rest pair plain empty => exact absurd empty (splitLines_ne_nil next rest)
  | case6 byte next rest pair plain first others split ih =>
    rw [splitLines, if_neg pair, if_neg plain, split] at found
    cases found
    exact List.cons_prefix_cons.2 ⟨rfl, ih split⟩

/-- The first loop on a text. -/
def recordsOf (length : Nat) (allow : Bool) (start : Nat) (text : List UInt8) :
    Except String (List Item) :=
  recordItems length allow start (splitLines text)

/-- A line without the prefix is passed over. -/
lemma recordItems_skip {start : Nat} (none : Marker.find eventPrefix line = none) :
    recordItems length allow start (line :: lines) =
      recordItems length allow (start + line.length) lines := by
  rw [recordItems, none]

/-- A short line has no prefix in it. -/
lemma find_short (short : line.length < eventPrefix.length) :
    Marker.find eventPrefix line = none := by
  have quiet : Quiet eventPrefix line [] := .of_length short
  have found := quiet.find_append
  rw [List.append_nil] at found
  rw [found]
  rfl

/-- Where no record begins the loop goes on behind the next byte, whatever it is. -/
lemma recordsOf_cons {start : Nat} {byte : UInt8} (no : ¬eventPrefix <+: byte :: text) :
    recordsOf length allow start (byte :: text) = recordsOf length allow (start + 1) text := by
  have long : 2 < eventPrefix.length := by
    rw [eventPrefix_eq]
    decide
  have one (byte : UInt8) : Marker.find eventPrefix [byte] = none :=
    find_short (Nat.lt_of_succ_lt long)
  have two : Marker.find eventPrefix [0x0d, 0x0a] = none := find_short long
  cases text with
  | nil => exact recordItems_skip (one byte)
  | cons next rest =>
    rw [recordsOf, splitLines]
    by_cases pair : byte = 0x0d ∧ next = 0x0a
    · obtain ⟨rfl, rfl⟩ := pair
      rw [if_pos ⟨rfl, rfl⟩, recordItems_skip two, recordsOf]
      cases rest with
      | nil => exact (recordItems_skip (one _)).symm
      | cons third rest =>
        have other : ¬((0x0a : UInt8) = 0x0d ∧ third = 0x0a) := fun both => absurd both.1 (by decide)
        have feed : (0x0a : UInt8) = 0x0d ∨ (0x0a : UInt8) = 0x0a := .inr rfl
        rw [splitLines.eq_3, if_neg other, if_pos feed]
        exact (recordItems_skip (one _)).symm
    rw [if_neg pair]
    by_cases ends : byte = 0x0d ∨ byte = 0x0a
    · rw [if_pos ends, recordItems_skip (one byte)]
      rfl
    rw [if_neg ends, recordsOf]
    rcases split : splitLines (next :: rest) with _ | ⟨line, lines⟩
    · exact absurd split (splitLines_ne_nil next rest)
    have front := splitLines_front split
    have no' : ¬eventPrefix <+: byte :: line := fun begins =>
      no (begins.trans (List.cons_prefix_cons.2 ⟨rfl, front⟩))
    have stop : start + (line.length + 1) = start + 1 + line.length := by omega
    dsimp only
    rw [recordItems, recordItems, Marker.find_cons no', List.length_cons, stop]
    rcases Marker.find eventPrefix line with _ | at_
    · rfl
    · have place : start + (at_ + 1) = start + 1 + at_ := by omega
      dsimp only [Option.map_some]
      rw [place, List.drop_succ_cons]

/-- A quiet text has no records. -/
lemma recordsOf_quiet (length : Nat) (allow : Bool) (start : Nat)
    (quiet : Quiet eventPrefix line rest) :
    recordsOf length allow start (line ++ rest) =
      recordsOf length allow (start + line.length) rest := by
  induction line generalizing start with
  | nil => rfl
  | cons byte line ih =>
    rw [List.cons_append, recordsOf_cons quiet.1, ih (start + 1) quiet.2, List.length_cons, Nat.add_assoc,
      Nat.add_comm 1]

/-- A line with its end. -/
lemma splitLines_line (plain : 0x0a ∉ line ∧ 0x0d ∉ line) :
    splitLines (line ++ crlf ++ rest) = (line ++ crlf) :: splitLines rest := by
  obtain ⟨feed, carriage⟩ := plain
  induction line with
  | nil => rfl
  | cons byte line ih =>
    rw [List.mem_cons, not_or] at feed carriage
    obtain ⟨next, more, split⟩ : ∃ next more, line ++ crlf ++ rest = next :: more := by
      cases line
      · exact ⟨_, _, rfl⟩
      · exact ⟨_, _, rfl⟩
    have tail := ih feed.2 carriage.2
    rw [split] at tail
    show splitLines (byte :: (line ++ crlf ++ rest)) = (byte :: (line ++ crlf)) :: splitLines rest
    rw [split, splitLines, if_neg fun both => carriage.1 both.1.symm,
      if_neg fun either => either.elim (carriage.1 ·.symm) (feed.1 ·.symm), tail]

/-- A line without its end, or with a part of it. -/
lemma splitLines_torn (plain : 0x0a ∉ line ∧ 0x0d ∉ line) {byte : UInt8} :
    splitLines (line ++ [byte]) = [line ++ [byte]] := by
  obtain ⟨feed, carriage⟩ := plain
  induction line with
  | nil => rfl
  | cons first line ih =>
    rw [List.mem_cons, not_or] at feed carriage
    obtain ⟨next, more, split⟩ : ∃ next more, line ++ [byte] = next :: more := by
      cases line
      · exact ⟨_, _, rfl⟩
      · exact ⟨_, _, rfl⟩
    have tail := ih feed.2 carriage.2
    rw [split] at tail
    show splitLines (first :: (line ++ [byte])) = [first :: (line ++ [byte])]
    rw [split, splitLines, if_neg fun both => carriage.1 both.1.symm,
      if_neg fun either => either.elim (carriage.1 ·.symm) (feed.1 ·.symm), tail]

/-- A record has no line end inside. -/
lemma plain_text {body : List UInt8} (feed : 0x0a ∉ body) (carriage : 0x0d ∉ body) :
    0x0a ∉ eventPrefix ++ body ∧ 0x0d ∉ eventPrefix ++ body := by
  rw [List.mem_append, List.mem_append, eventPrefix_eq]
  exact ⟨by simp [feed], by simp [carriage]⟩

/-- A record is found where it stands. -/
lemma recordsOf_record {start : Nat} {body : List UInt8} (feed : 0x0a ∉ body)
    (carriage : 0x0d ∉ body) :
    recordsOf length allow start ((Part.record body).bytes ++ rest) =
      (recordsOf length allow (start + (Part.record body).bytes.length) rest).map
        (⟨.record, (Part.record body).bytes, start, start + (Part.record body).bytes.length⟩ :: ·) := by
  have some : eventPrefix ≠ [] := by
    rw [eventPrefix_eq]
    exact List.cons_ne_nil _ _
  have here : Marker.find eventPrefix (eventPrefix ++ body ++ crlf) = .some 0 := by
    rw [List.append_assoc]
    exact Marker.find_here some _
  show recordItems length allow start (splitLines (eventPrefix ++ body ++ crlf ++ rest)) = _
  rw [splitLines_line (plain_text feed carriage), recordItems, here]
  dsimp only
  rw [List.drop_zero, if_pos (List.suffix_append _ _)]
  rfl

/-- A record that is cut off at the end of the capture is left out. -/
lemma recordsOf_torn {start : Nat} {torn body : List UInt8} (feed : 0x0a ∉ body)
    (carriage : 0x0d ∉ body) (part : torn <+: (Part.record body).bytes)
    (cut : torn ≠ (Part.record body).bytes) (ends : start + torn.length = length) :
    recordsOf length true start torn = .ok [] := by
  have plain := plain_text feed carriage
  have split : (Part.record body).bytes = eventPrefix ++ body ++ [0x0d] ++ [0x0a] :=
    (List.append_assoc (eventPrefix ++ body) [0x0d] [0x0a]).symm
  rw [split] at part cut
  have part := (List.prefix_concat_iff.1 part).resolve_left cut
  by_cases begins : eventPrefix <+: torn
  case pos =>
    -- all of it is one line, which has no line feed
    obtain ⟨line, byte, rfl⟩ : ∃ line byte, torn = line ++ [byte] := by
      refine ⟨torn.dropLast, torn.getLast ?_, (List.dropLast_append_getLast _).symm⟩
      rintro rfl
      have some := begins.length_le
      rw [eventPrefix_eq] at some
      exact absurd some (by decide)
    have inside : line <+: eventPrefix ++ body := by
      refine List.prefix_of_prefix_length_le ((List.prefix_append line [byte]).trans part)
        (List.prefix_append _ _) ?_
      have fits := part.length_le
      rw [List.length_append, List.length_append] at fits
      exact Nat.le_of_add_le_add_right fits
    have lines : splitLines (line ++ [byte]) = [line ++ [byte]] :=
      splitLines_torn ⟨fun mem => plain.1 (inside.subset mem), fun mem => plain.2 (inside.subset mem)⟩
    have here : Marker.find eventPrefix (line ++ [byte]) = some 0 := by
      obtain ⟨rest, whole⟩ := begins
      rw [← whole]
      refine Marker.find_here ?_ rest
      rw [eventPrefix_eq]
      exact List.cons_ne_nil _ _
    have open_ : ¬crlf <:+ line ++ [byte] := by
      intro closed
      have mem : 0x0a ∈ line ++ [byte] := closed.subset (by decide)
      rcases List.mem_append.1 (part.subset mem) with mem | mem
      · exact plain.1 mem
      · exact absurd mem (by decide)
    rw [recordsOf, lines, recordItems, here]
    dsimp only
    rw [List.drop_zero, if_neg open_, if_pos ⟨rfl, ends⟩, recordItems]
  case neg =>
    have quiet : Quiet eventPrefix torn [] := by
      refine .of_length ?_
      by_contra fits
      have inside : eventPrefix <+: eventPrefix ++ body ++ [0x0d] :=
        (List.prefix_append eventPrefix body).trans (List.prefix_append _ _)
      exact begins (List.prefix_of_prefix_length_le inside part (by
        rw [List.length_nil] at fits
        omega))
    have skipped := recordsOf_quiet length true start quiet
    rw [List.append_nil] at skipped
    rw [skipped, recordsOf, splitLines, recordItems]

end Lines

section Frames
variable {kind : ItemKind} {frame before rest : List UInt8} {turns start : Nat}

/-- A quiet text has no frames. -/
lemma frameItems_quiet (kind : ItemKind) (turns start : Nat) (quiet : Quiet frame before rest) :
    frameItems kind frame turns start (before ++ rest) =
      frameItems kind frame turns (start + before.length) rest := by
  cases turns with
  | zero => rfl
  | succ turns =>
    rw [frameItems, frameItems, quiet.find_append]
    rcases Marker.find frame rest with _ | at_
    · rfl
    · have place : start + (at_ + before.length) = start + before.length + at_ := by omega
      have behind : at_ + before.length + frame.length = before.length + (at_ + frame.length) := by
        omega
      dsimp only [Option.map_some]
      rw [place, behind, List.drop_length_add_append]

/-- A text without the frame has no items. -/
lemma frameItems_none (quiet : Quiet frame before []) (some : frame ≠ []) :
    frameItems kind frame turns start before = [] := by
  have skipped := frameItems_quiet kind turns start quiet
  rw [List.append_nil] at skipped
  rw [skipped]
  cases turns with
  | zero => rfl
  | succ turns =>
    have none : Marker.find frame [] = none := if_neg some
    rw [frameItems, none]

/-- A frame is found where it stands. -/
lemma frameItems_here (some : frame ≠ []) :
    frameItems kind frame (turns + 1) start (frame ++ rest) =
      ⟨kind, frame, start, start + frame.length⟩ ::
        frameItems kind frame turns (start + frame.length) rest := by
  rw [frameItems, Marker.find_here some]
  dsimp only
  rw [Nat.zero_add, List.drop_left]
  rfl

end Frames

/-- What may stand behind what the mirror shows: a write, or a beginning of one. -/
def Follows (rest : List UInt8) : Prop :=
  ∃ part : Part, part.Whole ∧ (rest <+: part.bytes ∨ part.bytes <+: rest)

section Quiet
variable {shown rest : List UInt8}

/-- What follows a text breaks the marker off. -/
lemma breaks_of_follows (follows : Follows rest) : Breaks eventMarker rest := by
  obtain ⟨part, -, order⟩ := follows
  cases part with
  | record body =>
    have front : eventMarker <+: (Part.record body).bytes :=
      (marker_begins.trans (List.prefix_append eventPrefix body)).trans (List.prefix_append _ crlf)
    rcases order with part | whole
    · rcases List.prefix_or_prefix_of_prefix front part with less | more
      · exact .inl less
      · exact .inr (.inl more)
    · exact .inl (front.trans whole)
  | frame on =>
    obtain ⟨tail, zero⟩ := bytes_frame on
    refine .inr (.inr fun byte first => ?_)
    have same : byte = 0 := by
      cases rest with
      | nil => cases first
      | cons other rest =>
        cases first
        rw [zero] at order
        rcases order with part | whole
        · exact (List.cons_prefix_cons.1 part).1
        · exact (List.cons_prefix_cons.1 whole).1.symm
    rw [same, eventMarker_eq]
    decide

/-- The mirror shows no record and no frame. -/
lemma Clean.quiet (clean : Clean shown) (follows : Follows rest) : Quiet eventMarker shown rest :=
  .of_absent marker_unbordered clean.2 (breaks_of_follows follows)

/-- A clean text is quiet for the frames. -/
lemma Clean.quiet_frame (clean : Clean shown) (on : Bool) :
    Quiet (Part.frame on).bytes shown rest := by
  obtain ⟨tail, zero⟩ := bytes_frame on
  rw [zero]
  exact .of_head clean.1

/-- No frame goes on like this. -/
def Calm (rest : List UInt8) : Prop := ¬byteString "PROMPTBOOT_EVENTS" <+: rest

/-- The bytes of the frames' text. -/
lemma frameText_eq : byteString "PROMPTBOOT_EVENTS" =
    [80, 82, 79, 77, 80, 84, 66, 79, 79, 84, 95, 69, 86, 69, 78, 84, 83] := by
  decide +kernel

/-- What follows a text is calm. -/
lemma calm_of_follows (follows : Follows rest) : Calm rest := by
  intro begins
  obtain ⟨part, -, order⟩ := follows
  have both : byteString "PROMPTBOOT_EVENTS" <+: part.bytes ∨
      part.bytes <+: byteString "PROMPTBOOT_EVENTS" := by
    rcases order with less | whole
    · exact .inl (begins.trans less)
    · exact List.prefix_or_prefix_of_prefix begins whole
  rw [frameText_eq] at both
  cases part with
  | record body =>
    simp only [Part.bytes, eventPrefix_eq, List.cons_append, List.cons_prefix_cons] at both
    simp at both
  | frame on =>
    obtain ⟨tail, zero⟩ := bytes_frame on
    rw [zero] at both
    simp at both

/-- A clean text and what follows it are calm. -/
lemma Clean.calm (clean : Clean shown) (follows : Follows rest) : Calm (shown ++ rest) := by
  by_cases empty : shown = []
  · subst empty
    exact calm_of_follows follows
  · intro begins
    have front : eventMarker <+: byteString "PROMPTBOOT_EVENTS" := by
      rw [frameText_eq, eventMarker_eq]
      decide
    exact (clean.quiet follows).not_here empty (front.trans begins)

/-- A frame does not begin within another one. -/
lemma quiet_other {on other : Bool} (ne : on ≠ other) (calm : Calm rest) :
    Quiet (Part.frame on).bytes (Part.frame other).bytes rest := by
  rw [Calm, frameText_eq] at calm
  have longer (more : List UInt8) : ¬[80, 82, 79, 77, 80, 84, 66, 79, 79, 84, 95, 69, 86, 69, 78, 84,
      83] ++ more <+: rest := fun begins => calm ((List.prefix_append _ more).trans begins)
  cases on <;> cases other
  · exact absurd rfl ne
  · show Quiet displayOffFrame displayOnFrame rest
    rw [displayOnFrame_eq, displayOffFrame_eq]
    have end_ := longer [95, 79, 70, 70, 0]
    simp only [List.cons_append, List.nil_append] at end_
    simp [Quiet, end_]
  · show Quiet displayOnFrame displayOffFrame rest
    rw [displayOnFrame_eq, displayOffFrame_eq]
    have end_ := longer [95, 79, 78, 0]
    simp only [List.cons_append, List.nil_append] at end_
    simp [Quiet, end_]
  · exact absurd rfl ne

/-- A record has no frame in it. -/
lemma quiet_record {body : List UInt8} (whole : (Part.record body).Whole) (on : Bool) :
    Quiet (Part.frame on).bytes (Part.record body).bytes rest := by
  obtain ⟨tail, zero⟩ := bytes_frame on
  rw [zero]
  refine .of_head ?_
  rw [Part.bytes, List.mem_append, List.mem_append, eventPrefix_eq]
  rintro ((mem | mem) | mem)
  · exact absurd mem (by decide)
  · exact whole.1 mem
  · exact absurd mem (by decide)

/-- A torn end has no frame in it. -/
lemma quiet_torn {torn : List UInt8} (cut : Torn torn) (on : Bool) :
    Quiet (Part.frame on).bytes torn [] := by
  obtain ⟨part, whole, front, ne⟩ := cut
  have short : torn.length < part.bytes.length :=
    Nat.lt_of_le_of_ne front.length_le fun same => ne (front.eq_of_length same)
  have cut_off (quiet : Quiet (Part.frame on).bytes part.bytes []) :
      Quiet (Part.frame on).bytes torn [] := by
    rw [List.prefix_iff_eq_take.1 front]
    exact quiet.take _
  cases part with
  | record body => exact cut_off (quiet_record whole on)
  | frame other =>
    by_cases same : on = other
    · subst same
      exact .of_length short
    · exact cut_off (quiet_other same (calm_of_follows ⟨.frame on, trivial, .inl List.nil_prefix⟩))

end Quiet

/-- What is behind the last write: what the mirror shows, and a write that has been cut off if that
is allowed. -/
def Ends (allow : Bool) (tail : List UInt8) : Prop :=
  ∃ shown torn, tail = shown ++ torn ∧ Clean shown ∧ Torn torn ∧ (allow = true ∨ torn = [])

section Capture
variable {chunks : List (List UInt8 × Part)} {tail : List UInt8} {allow : Bool}

/-- A capture is its first chunk and the rest. -/
lemma capture_cons (shown : List UInt8) (part : Part) (chunks : List (List UInt8 × Part))
    (tail : List UInt8) :
    capture ((shown, part) :: chunks) tail = shown ++ (part.bytes ++ capture chunks tail) := by
  rw [capture, List.flatMap_cons, List.append_assoc, List.append_assoc]
  rfl

/-- A whole part follows. -/
lemma follows_part {part : Part} (whole : part.Whole) (rest : List UInt8) :
    Follows (part.bytes ++ rest) := ⟨part, whole, .inr (List.prefix_append _ _)⟩

/-- A sound capture is calm. -/
lemma calm_capture (sound : Sound chunks) (ends : Ends allow tail) : Calm (capture chunks tail) := by
  cases chunks with
  | nil =>
    obtain ⟨shown, torn, rfl, clean, ⟨part, whole, front, -⟩, -⟩ := ends
    exact clean.calm ⟨part, whole, .inl front⟩
  | cons chunk chunks =>
    obtain ⟨shown, part⟩ := chunk
    obtain ⟨clean, whole⟩ := sound _ List.mem_cons_self
    rw [capture_cons]
    exact clean.calm (follows_part whole _)

/-- The rest of sound chunks is sound. -/
lemma Sound.rest {chunk : List UInt8 × Part} (sound : Sound (chunk :: chunks)) : Sound chunks :=
  fun c mem => sound c (List.mem_cons_of_mem _ mem)

/-- The first loop finds the records. -/
lemma recordsOf_capture (start : Nat) {length : Nat} (sound : Sound chunks) (ends : Ends allow tail)
    (all : start + (capture chunks tail).length = length) :
    recordsOf length allow start (capture chunks tail) =
      .ok ((itemsOf start chunks).filter (·.kind = .record)) := by
  induction chunks generalizing start with
  | nil =>
    obtain ⟨shown, torn, rfl, clean, ⟨part, whole, front, ne⟩, allowed⟩ := ends
    have behind : start + shown.length + torn.length = length := by
      rw [Nat.add_assoc, ← List.length_append]
      exact all
    show recordsOf length allow start (shown ++ torn) = .ok []
    rw [recordsOf_quiet _ _ _ ((clean.quiet ⟨part, whole, .inl front⟩).longer marker_begins)]
    rcases allowed with rfl | rfl
    · cases part with
      | record body => exact recordsOf_torn whole.2.1 whole.2.2 front ne behind
      | frame on =>
        have skipped := recordsOf_quiet length true (start + shown.length)
          ((quiet_frame on []).take torn.length)
        rw [← List.prefix_iff_eq_take.1 front, List.append_nil] at skipped
        rw [skipped]
        rfl
    · rfl
  | cons chunk chunks ih =>
    obtain ⟨shown, part⟩ := chunk
    obtain ⟨clean, whole⟩ := sound _ List.mem_cons_self
    rw [capture_cons] at all ⊢
    rw [List.length_append, List.length_append] at all
    have rest := ih (start + shown.length + part.bytes.length) sound.rest (by omega)
    rw [recordsOf_quiet _ _ _ ((clean.quiet (follows_part whole _)).longer marker_begins)]
    cases part with
    | record body =>
      rw [recordsOf_record whole.2.1 whole.2.2, rest]
      rfl
    | frame on =>
      rw [recordsOf_quiet _ _ _ (quiet_frame on _), rest]
      cases on <;> rfl

/-- The searches find their frames. -/
lemma frameItems_capture (start : Nat) {turns : Nat} (on : Bool) (sound : Sound chunks)
    (ends : Ends allow tail) (enough : chunks.length < turns) :
    frameItems (Part.frame on).kind (Part.frame on).bytes turns start (capture chunks tail) =
      (itemsOf start chunks).filter (·.kind = (Part.frame on).kind) := by
  have some : (Part.frame on).bytes ≠ [] := by
    obtain ⟨tail, zero⟩ := bytes_frame on
    rw [zero]
    exact List.cons_ne_nil _ _
  induction chunks generalizing start turns with
  | nil =>
    obtain ⟨shown, torn, rfl, clean, cut, -⟩ := ends
    exact frameItems_none ((clean.quiet_frame on).append (quiet_torn cut on)) some
  | cons chunk chunks ih =>
    obtain ⟨shown, part⟩ := chunk
    obtain ⟨clean, whole⟩ := sound _ List.mem_cons_self
    rw [List.length_cons] at enough
    rw [capture_cons, frameItems_quiet _ _ _ (clean.quiet_frame on)]
    have skip (other : part.kind ≠ (Part.frame on).kind)
        (quiet : Quiet (Part.frame on).bytes part.bytes (capture chunks tail)) :
        frameItems (Part.frame on).kind (Part.frame on).bytes turns (start + shown.length)
            (part.bytes ++ capture chunks tail) =
          (itemsOf start ((shown, part) :: chunks)).filter (·.kind = (Part.frame on).kind) := by
      rw [frameItems_quiet _ _ _ quiet, ih _ sound.rest (by omega), itemsOf, List.filter_cons_of_neg]
      exact fun same => other (of_decide_eq_true same)
    cases part with
    | record body => exact skip (by cases on <;> exact ItemKind.noConfusion) (quiet_record whole on)
    | frame other =>
      by_cases same : on = other
      · subst same
        obtain ⟨turns, rfl⟩ := Nat.exists_eq_succ_of_ne_zero (Nat.ne_zero_of_lt enough)
        rw [frameItems_here some, ih _ sound.rest (by omega), itemsOf, List.filter_cons_of_pos]
        exact decide_eq_true rfl
      · refine skip ?_ (quiet_other same (calm_capture sound.rest ends))
        cases on <;> cases other
        · exact absurd rfl same
        · decide
        · decide
        · exact absurd rfl same

/-- A part is not empty. -/
lemma Part.length_pos (part : Part) : 0 < part.bytes.length := by
  cases part with
  | record body =>
    rw [Part.bytes, List.length_append, crlf]
    exact Nat.succ_pos _
  | frame on =>
    obtain ⟨tail, zero⟩ := bytes_frame on
    rw [zero]
    exact Nat.succ_pos _

/-- There are no more chunks than bytes. -/
lemma length_chunks (chunks : List (List UInt8 × Part)) (tail : List UInt8) :
    chunks.length ≤ (capture chunks tail).length := by
  induction chunks with
  | nil => exact Nat.zero_le _
  | cons chunk chunks ih =>
    have some := chunk.2.length_pos
    rw [capture_cons, List.length_append, List.length_append, List.length_cons]
    omega

/-- Every item starts behind the start. -/
lemma itemsOf_start {start : Nat} {item : Item} (mem : item ∈ itemsOf start chunks) :
    start ≤ item.start := by
  induction chunks generalizing start with
  | nil => cases mem
  | cons chunk chunks ih =>
    rcases List.mem_cons.1 mem with rfl | mem
    · exact Nat.le_add_right ..
    · have later := ih mem
      omega

/-- The items are in order. -/
lemma itemsOf_sorted (start : Nat) :
    (itemsOf start chunks).Pairwise fun a b => a.start < b.start := by
  induction chunks generalizing start with
  | nil => exact .nil
  | cons chunk chunks ih =>
    obtain ⟨shown, part⟩ := chunk
    have some := part.length_pos
    refine .cons (fun item mem => ?_) (ih _)
    have later := itemsOf_start mem
    dsimp only
    omega

/-- The kinds of item together are all items. -/
lemma kinds_perm (all : List Item) :
    (all.filter (·.kind = .record) ++ all.filter (·.kind = .on) ++ all.filter (·.kind = .off)).Perm
      all := by
  induction all with
  | nil => exact .nil
  | cons item all ih =>
    rcases kind : item.kind
    · simp only [List.filter_cons, kind, decide_true, if_true, reduceCtorEq, decide_false,
        Bool.false_eq_true, if_false, List.cons_append]
      exact ih.cons item
    · simp only [List.filter_cons, kind, decide_true, if_true, reduceCtorEq, decide_false,
        Bool.false_eq_true, if_false]
      rw [List.append_assoc, List.cons_append]
      refine List.perm_middle.trans ?_
      rw [← List.append_assoc]
      exact ih.cons item
    · simp only [List.filter_cons, kind, decide_true, if_true, reduceCtorEq, decide_false,
        Bool.false_eq_true, if_false]
      exact List.perm_middle.trans (ih.cons item)

/-- Sorting by a key gives the arrangement whose keys increase. -/
lemma mergeSort_eq {α : Type} (key : α → Nat) {all sorted : List α} (perm : all.Perm sorted)
    (increasing : sorted.Pairwise fun a b => key a < key b) :
    all.mergeSort (fun a b => decide (key a ≤ key b)) = sorted := by
  have distinct : (sorted.map key).Nodup := by
    rw [List.nodup_iff_pairwise_ne, List.pairwise_map]
    exact increasing.imp Nat.ne_of_lt
  have arranged := (List.mergeSort_perm all fun a b => decide (key a ≤ key b)).trans perm
  refine arranged.eq_of_pairwise (fun a b mem other le ge => ?_)
    (List.pairwise_mergeSort (fun a b c le le' => ?_) (fun a b => ?_) all)
    (increasing.imp fun less => decide_eq_true (Nat.le_of_lt less))
  · exact List.inj_on_of_nodup_map distinct (arranged.subset mem) other
      (Nat.le_antisymm (of_decide_eq_true le) (of_decide_eq_true ge))
  · exact decide_eq_true (Nat.le_trans (of_decide_eq_true le) (of_decide_eq_true le'))
  · rw [Bool.or_eq_true, decide_eq_true_iff, decide_eq_true_iff]
    exact Nat.le_total _ _

/-- The reader finds the writes, in their order. -/
lemma items_capture (sound : Sound chunks) (ends : Ends allow tail) :
    items (capture chunks tail) allow = .ok (itemsOf 0 chunks) := by
  have enough := Nat.lt_succ_of_le (length_chunks chunks tail)
  have records := recordsOf_capture 0 sound ends (Nat.zero_add _)
  have on := frameItems_capture 0 true sound ends enough
  have off := frameItems_capture 0 false sound ends enough
  rw [recordsOf] at records
  rw [items, records]
  refine congrArg Except.ok ?_
  refine (congrArg₂ (fun on off => List.mergeSort (_ ++ on ++ off) _) on off).trans ?_
  exact mergeSort_eq Item.start (kinds_perm _) (itemsOf_sorted 0)

end Capture

end Promptboot.Events
