import Promptboot.Tools.Pack
import Promptboot.Tools.ContainerTensors
import Mathlib.Data.List.Forall2

/-!
# What the packer writes

The file is written from its front to its end, each piece behind zeros up to its place; only the
section directory and the header are written later, over the room that was left for them. No two of
these writes meet, so the packed file holds every piece in full.

`Wrote` is the step of the writer, with `writeAll_facts` and `writePadding_facts` for one write and
`Wrote.piece` for a piece behind its padding; `writeBody_facts` is the induction over the pieces and
`writeDirectory_facts` the way back. The headline `pack_facts` gives the `PackedFile`.
-/

namespace Promptboot.Pack
open Buffer Gguf ContainerInspect

section Steps
variable {sha : List UInt8 → Vector UInt8 32} {p q r : Output}

/-- An aligned offset is the next multiple of 64. -/
lemma align_facts {value result : Nat} (h : align value p = (.ok result, q)) :
    q = p ∧ result = (value + 63) / 64 * 64 := by
  obtain ⟨sum, r, added, h1⟩ := Fallible.bind_eq_ok h
  obtain ⟨-, rfl, rfl⟩ := checkedAdd_eq_ok added
  cases h1
  exact ⟨rfl, rfl⟩

/-- A difference is the difference. -/
lemma subtract_facts {a b c : Nat} (h : subtract a b p = (.ok c, q)) : c = a - b ∧ q = p := by
  rw [subtract] at h
  split at h
  · cases h
    exact ⟨rfl, rfl⟩
  · cases h

/-- Hashing a region leaves the output. -/
lemma hashRegion_facts {file : Buffer} {offset length : Nat} {digest : Vector UInt8 32}
    (h : hashRegion sha file offset length p = (.ok digest, q)) : q = p := by
  rw [hashRegion] at h
  split at h
  · cases h
    rfl
  · cases h

/-- Hashing the output leaves the file. -/
lemma hashOutput_facts {offset length : Nat} {digest : Vector UInt8 32}
    (h : hashOutput sha offset length p = (.ok digest, q)) : q.file = p.file := by
  obtain ⟨output, r, got, h1⟩ := Fallible.bind_eq_ok h
  cases got
  obtain ⟨found, r, hashed, h2⟩ := Fallible.bind_eq_ok h1
  obtain rfl := hashRegion_facts hashed
  cases h2
  rfl

/-- A write puts its bytes at the position and moves on. -/
lemma writeAll_facts {bytes : List UInt8} {u : Unit} (h : writeAll bytes p = (.ok u, q)) :
    q.file = p.file.put p.position bytes ∧ q.position = p.position + bytes.length := by
  cases h
  exact ⟨rfl, rfl⟩

/-- A stretch of the run that wrote `ws`, one behind the other from the position on. -/
structure Wrote (p q : Output) (ws : List Write) : Prop where
  file : q.file = p.file.layDown ws
  tiled : Tiled p.position (ws.map place) q.position

/-- What was written in turn, one list behind the other. -/
lemma Wrote.trans {vs ws : List Write} (first : Wrote p q vs) (second : Wrote q r ws) :
    Wrote p r (vs ++ ws) := by
  refine ⟨?_, ?_⟩
  · rw [second.file, first.file, layDown_append]
  · rw [List.map_append]
    exact first.tiled.append second.tiled

/-- A write is one write. -/
lemma wrote_writeAll {bytes : List UInt8} {u : Unit} (h : writeAll bytes p = (.ok u, q)) :
    Wrote p q [(p.position, bytes)] := by
  cases h
  exact ⟨rfl, .cons (e := (p.position, bytes.length)) .nil⟩

/-- Zeros up to a place behind the position. -/
abbrev zerosTo (position target : Nat) : Write := (position, List.replicate (target - position) 0)

/-- Padding writes zeros up to its target. -/
lemma writePadding_facts {target : Nat} {zeros : List UInt8}
    (h : writePadding target p = (.ok zeros, q)) :
    p.position ≤ target ∧ q.position = target ∧ Wrote p q [zerosTo p.position target] := by
  obtain ⟨output, r, got, h1⟩ := Fallible.bind_eq_ok h
  cases got
  obtain ⟨order, h2⟩ := require_bind_eq_ok h1
  have order := of_decide_eq_true order
  obtain ⟨u, r, written, h3⟩ := Fallible.bind_eq_ok h2
  cases h3
  refine ⟨order, ?_, wrote_writeAll written⟩
  cases written
  simp only [List.length_replicate]
  omega

/-- A copied region is within the source. -/
lemma copyRegion_facts {source : Buffer} {offset length : Nat} {bytes : List UInt8}
    (h : copyRegion source offset length p = (.ok bytes, q)) :
    (length = 0 ∨ offset + length ≤ source.length) ∧
      Wrote p q [(p.position, source.slice offset length)] := by
  rw [copyRegion] at h
  split at h
  case isTrue inside =>
    obtain ⟨u, r, written, h1⟩ := Fallible.bind_eq_ok h
    cases h1
    exact ⟨inside, wrote_writeAll written⟩
  case isFalse _ => cases h

/-- Every piece at its place, behind zeros. -/
def padded : Nat → List Write → List Write
  | _, [] => []
  | position, w :: ws => zerosTo position w.1 :: w :: padded (w.1 + w.2.length) ws

/-- A write is among the padded ones. -/
lemma mem_padded {position : Nat} {w : Write} {ws : List Write} (mem : w ∈ ws) :
    w ∈ padded position ws := by
  induction ws generalizing position with
  | nil => cases mem
  | cons v ws ih =>
    refine List.mem_cons_of_mem _ ?_
    rcases List.mem_cons.1 mem with rfl | later
    · exact List.mem_cons_self
    · exact List.mem_cons_of_mem _ (ih later)

/-- Padding and a piece behind it. -/
lemma Wrote.piece {target : Nat} {bytes : List UInt8} (reached : q.position = target)
    (padding : Wrote p q [zerosTo p.position target]) (piece : Wrote q r [(q.position, bytes)]) :
    Wrote p r (padded p.position [(target, bytes)]) ∧ r.position = target + bytes.length := by
  subst reached
  refine ⟨padding.trans piece, ?_⟩
  exact (piece.tiled.head.2.empty).symm

/-- The first write, and the padded rest. -/
lemma Wrote.padded_cons {w : Write} {ws : List Write} (first : Wrote p q (padded p.position [w]))
    (reached : q.position = w.1 + w.2.length) (rest : Wrote q r (padded q.position ws)) :
    Wrote p r (padded p.position (w :: ws)) := by
  rw [reached] at rest
  exact first.trans rest

/-- The sections are written with padding. -/
lemma writeSections_facts {rows : List Write} {u : Unit} (h : writeSections rows p = (.ok u, q)) :
    Wrote p q (padded p.position rows) := by
  induction rows generalizing p with
  | nil =>
    cases h
    exact ⟨rfl, .nil⟩
  | cons row rows ih =>
    obtain ⟨zeros, r, padding, h1⟩ := Fallible.bind_eq_ok h
    obtain ⟨-, reached, padding⟩ := writePadding_facts padding
    obtain ⟨_, s, piece, h2⟩ := Fallible.bind_eq_ok h1
    obtain ⟨first, there⟩ := Wrote.piece reached padding (wrote_writeAll piece)
    exact first.padded_cons there (ih h2)

/-- Where the copies of the payloads go. -/
def copies (source : Source) (placements : List Placement) : List Write :=
  placements.map fun placement =>
    (placement.destination, source.file.slice placement.sourceOffset placement.length)

/-- The source holds the payloads. -/
def Supplied (source : Source) (placements : List Placement) : Prop :=
  ∀ placement ∈ placements, placement.length = 0 ∨
    placement.sourceOffset + placement.length ≤ source.bytes.length

/-- The tensors are copied with padding. -/
lemma copyTensors_facts {source : Source} {placements : List Placement} {hashed bytes : List UInt8}
    (h : copyTensors source placements hashed p = (.ok bytes, q)) :
    Supplied source placements ∧ Wrote p q (padded p.position (copies source placements)) := by
  induction placements generalizing p hashed with
  | nil =>
    cases h
    exact ⟨(fun _ mem => nomatch mem), rfl, .nil⟩
  | cons placement placements ih =>
    obtain ⟨zeros, r, padding, h1⟩ := Fallible.bind_eq_ok h
    obtain ⟨-, reached, padding⟩ := writePadding_facts padding
    obtain ⟨payload, s, piece, h2⟩ := Fallible.bind_eq_ok h1
    obtain ⟨inside, piece⟩ := copyRegion_facts piece
    obtain ⟨first, there⟩ := Wrote.piece reached padding piece
    obtain ⟨others, rest⟩ := ih h2
    exact ⟨List.forall_mem_cons.2 ⟨inside, others⟩, first.padded_cons there rest⟩

end Steps

section Layout
variable {sha : List UInt8 → Vector UInt8 32} {p q : Output}

/-- The starts of pieces of the given lengths, and the end of the last. -/
def starts : List Nat → Nat → List Nat × Nat
  | [], cursor => ([], cursor)
  | length :: rest, cursor =>
    let start := (cursor + 63) / 64 * 64
    (start :: (starts rest (start + length)).1, (starts rest (start + length)).2)

/-- The sections start one after another. -/
lemma layOut_facts {datas : List (List UInt8)} {cursor last : Nat} {offsets : List Nat}
    (h : layOut datas cursor p = (.ok (offsets, last), q)) :
    q = p ∧ (offsets, last) = starts (datas.map List.length) cursor := by
  induction datas generalizing cursor offsets with
  | nil =>
    cases h
    exact ⟨rfl, rfl⟩
  | cons data datas ih =>
    obtain ⟨start, r, aligned, h1⟩ := Fallible.bind_eq_ok h
    obtain ⟨rfl, rfl⟩ := align_facts aligned
    obtain ⟨stop, r, added, h2⟩ := Fallible.bind_eq_ok h1
    obtain ⟨-, rfl, rfl⟩ := checkedAdd_eq_ok added
    obtain ⟨⟨rest, last⟩, r, later, h3⟩ := Fallible.bind_eq_ok h2
    cases h3
    obtain ⟨rfl, same⟩ := ih later
    refine ⟨rfl, ?_⟩
    rw [List.map_cons, starts, ← same]

/-- The tensors of the rows, one behind the other, with their entries and placements. -/
inductive Placed (tensors : List (String × Tensor)) :
    List TensorRow → Nat → Nat → List (List UInt8) → List Placement → Nat → Prop where
  | nil {id cursor : Nat} : Placed tensors [] id cursor [] [] cursor
  | cons {row : TensorRow} {rows : List TensorRow} {id cursor dtype last : Nat} {tensor : Tensor}
      {hash : Vector UInt8 32} {entries : List (List UInt8)} {placements : List Placement}
      (known : lookup tensors row.name = some tensor)
      (mapped : mappedDtype row.dtype = some dtype)
      (rest : Placed tensors rows (id + 1) (cursor + tensor.length) entries placements last) :
    Placed tensors (row :: rows) id cursor
      (tensorEntry id row dtype cursor tensor.length hash :: entries)
      (⟨tensor.offset, cursor, tensor.length⟩ :: placements) last

/-- A packed type is the mapped one. -/
lemma packedDtype_facts {dtype mapped : Nat} (h : packedDtype dtype p = (.ok mapped, q)) :
    q = p ∧ mappedDtype dtype = some mapped := by
  unfold packedDtype at h
  split at h
  all_goals cases h
  all_goals exact ⟨rfl, rfl⟩

/-- Where all lengths are multiples of the alignment, no gap is left between two tensors. -/
lemma layTensors_facts {source : Source} {tensors : List (String × Tensor)} {rows : List TensorRow}
    {id cursor last : Nat} {bytes : List UInt8} {placements : List Placement}
    (lengths : ∀ row ∈ rows, ∀ tensor, lookup tensors row.name = some tensor →
      tensor.length % 64 = 0)
    (aligned : cursor % 64 = 0)
    (h : layTensors sha source tensors rows id cursor p = (.ok (bytes, placements, last), q)) :
    q = p ∧ ∃ entries, bytes = entries.flatten ∧
      Placed tensors rows id cursor entries placements last := by
  induction rows generalizing id cursor bytes placements with
  | nil =>
    cases h
    exact ⟨rfl, [], rfl, .nil⟩
  | cons row rows ih =>
    cases known : lookup tensors row.name with
    | none =>
      simp only [layTensors, known] at h
      cases h
    | some tensor =>
      simp only [layTensors, known] at h
      obtain ⟨destination, r, place, h1⟩ := Fallible.bind_eq_ok h
      obtain ⟨rfl, place⟩ := align_facts place
      have place : destination = cursor := by omega
      subst place
      obtain ⟨hash, r, hashed, h2⟩ := Fallible.bind_eq_ok h1
      obtain rfl := hashRegion_facts hashed
      obtain ⟨dtype, r, mapped, h3⟩ := Fallible.bind_eq_ok h2
      obtain ⟨rfl, number⟩ := packedDtype_facts mapped
      obtain ⟨-, h4⟩ := require_bind_eq_ok h3
      obtain ⟨stop, r, added, h5⟩ := Fallible.bind_eq_ok h4
      obtain ⟨-, rfl, rfl⟩ := checkedAdd_eq_ok added
      obtain ⟨⟨rest, others, final⟩, r, later, h6⟩ := Fallible.bind_eq_ok h5
      cases h6
      have length := lengths row List.mem_cons_self tensor known
      obtain ⟨rfl, entries, rfl, placed⟩ :=
        ih (fun row mem => lengths row (List.mem_cons_of_mem _ mem)) (by omega) later
      exact ⟨rfl, _, rfl, .cons known number placed⟩

/-- The entry of a section's definition, with some digest. -/
def IsEntry (row : Nat × Nat × Nat × Nat × Nat) (entry : List UInt8) : Prop :=
  ∃ digest, entry = sectionEntry row.1 row.2.1 row.2.2.1 row.2.2.2.1 row.2.2.2.2 digest

/-- The entries are those of the rows. -/
lemma sectionEntries_facts {rows : List (Nat × Nat × Nat × Nat × Nat)} {bytes : List UInt8}
    (h : sectionEntries sha rows p = (.ok bytes, q)) :
    q.file = p.file ∧ ∃ entries, bytes = entries.flatten ∧ List.Forall₂ IsEntry rows entries := by
  induction rows generalizing p bytes with
  | nil =>
    cases h
    exact ⟨rfl, [], rfl, .nil⟩
  | cons row rows ih =>
    obtain ⟨digest, r, hashed, h1⟩ := Fallible.bind_eq_ok h
    obtain ⟨rest, s, later, h2⟩ := Fallible.bind_eq_ok h1
    cases h2
    obtain ⟨same, entries, rfl, all⟩ := ih later
    refine ⟨same.trans (hashOutput_facts hashed), _ :: entries, rfl, .cons ⟨digest, rfl⟩ all⟩

/-- A tensor's entry has 96 bytes. -/
lemma length_tensorEntry {id dtype destination length : Nat} {row : TensorRow}
    {hash : Vector UInt8 32} : (tensorEntry id row dtype destination length hash).length = 96 :=
  length_slice _ _ _

/-- A section's entry has 64 bytes. -/
lemma length_sectionEntry {id element count offset length : Nat} {digest : Vector UInt8 32} :
    (sectionEntry id element count offset length digest).length = 64 :=
  length_slice _ _ _

/-- Pieces of one length fill as many times it. -/
lemma length_flatten {pieces : List (List UInt8)} {size : Nat}
    (same : ∀ piece ∈ pieces, piece.length = size) : pieces.flatten.length = pieces.length * size := by
  induction pieces with
  | nil => simp
  | cons piece pieces ih =>
    rw [List.flatten_cons, List.length_append, same piece List.mem_cons_self,
      ih fun piece mem => same piece (List.mem_cons_of_mem _ mem), List.length_cons, Nat.succ_mul,
      Nat.add_comm]

variable {tensors : List (String × Tensor)} {rows : List TensorRow} {id cursor last : Nat}
  {entries : List (List UInt8)} {placements : List Placement}

/-- There is an entry of 96 bytes for every row. -/
lemma Placed.length (h : Placed tensors rows id cursor entries placements last) :
    entries.length = rows.length ∧ ∀ entry ∈ entries, entry.length = 96 := by
  induction h with
  | nil => exact ⟨rfl, fun _ mem => nomatch mem⟩
  | cons _ _ _ ih =>
    refine ⟨by rw [List.length_cons, ih.1, List.length_cons], fun entry mem => ?_⟩
    rcases List.mem_cons.1 mem with rfl | later
    · exact length_tensorEntry
    · exact ih.2 entry later

/-- The placement ends behind all payloads. -/
lemma Placed.last_eq (h : Placed tensors rows id cursor entries placements last)
    (lengths : ∀ row ∈ rows, ∀ tensor, lookup tensors row.name = some tensor →
      tensor.length = rowLength row) :
    last = cursor + (rows.map rowLength).sum := by
  induction h with
  | nil => simp
  | cons known _ _ ih =>
    have length := lengths _ List.mem_cons_self _ known
    rw [ih fun row mem => lengths row (List.mem_cons_of_mem _ mem), length, List.map_cons,
      List.sum_cons, Nat.add_assoc]

end Layout

section File
variable {sha : List UInt8 → Vector UInt8 32} {source : Source} {model : GgufFile} {p q : Output}

/-- The lengths of the tokenizer's sections. -/
structure Sections.Sized (small : Sections) : Prop where
  offsets : small.offsets.length = 607748
  texts : small.texts.length = 1372758
  types : small.types.length = 151936
  merges : small.merges.length = 1816644
  template : small.template.length = 2509

/-- Where the frozen sections start. -/
lemma starts_frozen : starts [607748, 1372758, 151936, 1816644, 2509] 704 =
    ([704, 608512, 1981312, 2133248, 3949952], 3952461) := rfl

/-- Sections of the frozen sizes have the frozen offsets. -/
lemma layOut_frozen {small : Sections} {offsets : List Nat} {cursor : Nat} (sized : small.Sized)
    (h : layOut small.all 704 p = (.ok (offsets, cursor), q)) :
    q = p ∧ offsets = [704, 608512, 1981312, 2133248, 3949952] ∧ cursor = 3952461 := by
  obtain ⟨rfl, same⟩ := layOut_facts h
  have lengths : small.all.map List.length = [607748, 1372758, 151936, 1816644, 2509] := by
    simp only [Sections.all, List.map_cons, List.map_nil, sized.offsets, sized.texts, sized.types,
      sized.merges, sized.template]
  rw [lengths, starts_frozen] at same
  exact ⟨rfl, (Prod.mk.inj same).1, (Prod.mk.inj same).2⟩

/-- Lengths of the tensors of a source with the frozen rows. -/
def Measured (tensors : List (String × Tensor)) : Prop :=
  ∀ row ∈ packTensorRows, ∀ tensor, lookup tensors row.name = some tensor →
    tensor.length = rowLength row

/-- Every payload is a multiple of 64 bytes long. -/
lemma rows_aligned : packTensorRows.all (fun row => rowLength row % 64 = 0) = true := by
  decide +kernel

/-- The layout of every container. -/
abbrev frozenLayout (small : Sections) (entries : List (List UInt8)) (placements : List Placement) :
    Layout :=
  ⟨small, [704, 608512, 1981312, 2133248, 3949952], 3952512, 3980480, entries.flatten, placements,
    modelBytes⟩

/-- The layout of sections of the frozen sizes is the frozen one. -/
lemma layout_facts {small : Sections} {r : Output} {found : Layout} (measured : Measured model.tensors)
    (run : tokenizerSections model.metadata p = (.ok small, r)) (sized : small.Sized)
    (h : layout sha source model p = (.ok found, q)) :
    ∃ entries placements, found = frozenLayout small entries placements ∧
      Placed model.tensors packTensorRows 0 3980480 entries placements modelBytes := by
  rw [layout, Fallible.bind_ok run] at h
  obtain ⟨⟨offsets, cursor⟩, s1, run_layout, h1⟩ := Fallible.bind_eq_ok h
  obtain ⟨rfl, rfl, rfl⟩ := layOut_frozen sized run_layout
  obtain ⟨directoryOffset, s2, first, h2⟩ := Fallible.bind_eq_ok h1
  obtain ⟨rfl, rfl⟩ := align_facts first
  obtain ⟨cursor, s3, added, h3⟩ := Fallible.bind_eq_ok h2
  obtain ⟨-, rfl, rfl⟩ := checkedAdd_eq_ok added
  obtain ⟨dataOffset, s4, second, h4⟩ := Fallible.bind_eq_ok h3
  obtain ⟨rfl, rfl⟩ := align_facts second
  obtain ⟨⟨bytes, placements, fileSize⟩, s5, run_tensors, h5⟩ := Fallible.bind_eq_ok h4
  have lengths : ∀ row ∈ packTensorRows, ∀ tensor, lookup model.tensors row.name = some tensor →
      tensor.length % 64 = 0 := by
    intro row mem tensor known
    rw [measured row mem tensor known]
    exact of_decide_eq_true (List.all_eq_true.1 rows_aligned row mem)
  obtain ⟨rfl, entries, rfl, placed⟩ := layTensors_facts lengths (by decide) run_tensors
  obtain ⟨-, h6⟩ := require_bind_eq_ok h5
  cases h6
  have last := placed.last_eq measured
  have total : (packTensorRows.map rowLength).sum = 422782464 := rows_total
  rw [total] at last
  subst last
  exact ⟨entries, placements, rfl, placed⟩

/-- The sections of the tokenizer at their places. -/
def smallWrites (small : Sections) : List Write :=
  [(704, small.offsets), (608512, small.texts), (1981312, small.types), (2133248, small.merges),
    (3949952, small.template)]

/-- The pieces between the directory of the sections and the end of the file. -/
def bodyWrites (source : Source) (small : Sections) (entries : List (List UInt8))
    (placements : List Placement) : List Write :=
  padded 704 (smallWrites small) ++ padded 3952461 [(3952512, entries.flatten)] ++
    [zerosTo 3980448 3980480] ++ padded 3980480 (copies source placements)

/-- The room that is left for the header and the directory of the sections. -/
def reserved : Buffer := (Buffer.zeros 0).put 0 (List.replicate 704 0)

/-- The small sections end where they should. -/
lemma smallWrites_stop {small : Sections} (sized : small.Sized) {stop : Nat}
    (h : Tiled 704 ((padded 704 (smallWrites small)).map place) stop) : stop = 3952461 := by
  have last := h.head.2.head.2.head.2.head.2.head.2.head.2.head.2.head.2.head.2.head.2.empty
  simp only [place, List.length_replicate, sized.offsets, sized.texts, sized.types, sized.merges,
    sized.template] at last
  exact last.symm

/-- The body is written at its places. -/
lemma writeBody_facts {small : Sections} {entries : List (List UInt8)}
    {placements : List Placement} {hashed : List UInt8} (sized : small.Sized)
    (size : entries.flatten.length = 27936)
    (h : writeBody source (frozenLayout small entries placements) p = (.ok hashed, q)) :
    Supplied source placements ∧
      q.file = reserved.layDown (bodyWrites source small entries placements) ∧
      Tiled 704 ((bodyWrites source small entries placements).map place) modelBytes := by
  -- in the order of the source: room, sections, directory of the tensors, tensors
  obtain ⟨_, s1, created, h1⟩ := Fallible.bind_eq_ok h
  cases created
  obtain ⟨_, s2, room, h2⟩ := Fallible.bind_eq_ok h1
  obtain ⟨room_file, room_stop⟩ := writeAll_facts room
  have reserve : headerBytes + directoryBytes = 704 := by decide
  rw [reserve, List.length_replicate, Nat.zero_add] at room_stop
  rw [reserve] at room_file
  obtain ⟨_, s3, sections, h3⟩ := Fallible.bind_eq_ok h2
  have first := writeSections_facts sections
  rw [room_stop] at first
  have first : Wrote s2 s3 (padded 704 (smallWrites small)) := first
  have sections_tiled := first.tiled
  rw [room_stop] at sections_tiled
  have stop := smallWrites_stop sized sections_tiled
  obtain ⟨_, s4, padding, h4⟩ := Fallible.bind_eq_ok h3
  obtain ⟨-, reached, padding⟩ := writePadding_facts padding
  obtain ⟨_, s5, piece, h5⟩ := Fallible.bind_eq_ok h4
  obtain ⟨second, there⟩ := Wrote.piece reached padding (wrote_writeAll piece)
  have second : Wrote s3 s5 (padded 3952461 [(3952512, entries.flatten)]) := stop ▸ second
  have there : s5.position = 3952512 + entries.flatten.length := there
  rw [size] at there
  have there : s5.position = 3980448 := there
  obtain ⟨_, s6, padding, h6⟩ := Fallible.bind_eq_ok h5
  obtain ⟨-, start, third⟩ := writePadding_facts padding
  rw [there] at third
  have third : Wrote s5 s6 [zerosTo 3980448 3980480] := third
  have start : s6.position = 3980480 := start
  obtain ⟨_, s7, copied, h7⟩ := Fallible.bind_eq_ok h6
  obtain ⟨supplied, fourth⟩ := copyTensors_facts copied
  rw [start] at fourth
  have fourth : Wrote s6 s7 (padded 3980480 (copies source placements)) := fourth
  obtain ⟨output, s8, got, h8⟩ := Fallible.bind_eq_ok h7
  cases got
  obtain ⟨ends, h9⟩ := require_bind_eq_ok h8
  cases h9
  -- put together, the writes fill the file from the directory on
  have whole : Wrote s2 q (bodyWrites source small entries placements) :=
    ((first.trans second).trans third).trans fourth
  have tiled := whole.tiled
  rw [of_decide_eq_true ends, room_stop] at tiled
  refine ⟨supplied, ?_, tiled⟩
  rw [whole.file, room_file]
  rfl

/-- The directory is written in front of the sections. -/
lemma writeDirectory_facts {small : Sections} {entries : List (List UInt8)}
    {placements : List Placement} {hashed : List UInt8} {u : Unit}
    (size : entries.flatten.length = 27936)
    (h : writeDirectory sha (frozenLayout small entries placements) hashed p = (.ok u, q)) :
    ∃ rows digest, List.Forall₂ IsEntry
        (definitions small [704, 608512, 1981312, 2133248, 3949952] 3952512 27936 ++
          [(7, 2, 422782464, 3980480, 422782464)]) rows ∧
      q.file = (p.file.put 256 rows.flatten).put 0 (header modelBytes digest) := by
  obtain ⟨bytes, s1, run, h1⟩ := Fallible.bind_eq_ok h
  obtain ⟨same, rows, rfl, all⟩ := sectionEntries_facts run
  obtain ⟨dataLength, s2, taken, h2⟩ := Fallible.bind_eq_ok h1
  obtain ⟨dataLength_eq, rfl⟩ := subtract_facts taken
  have total : modelBytes - 3980480 = 422782464 := by decide
  rw [total] at dataLength_eq
  subst dataLength_eq
  obtain ⟨_, s3, sought, h3⟩ := Fallible.bind_eq_ok h2
  cases sought
  obtain ⟨_, s4, written, h4⟩ := Fallible.bind_eq_ok h3
  cases written
  obtain ⟨contentLength, s5, rest, h5⟩ := Fallible.bind_eq_ok h4
  obtain ⟨-, rfl⟩ := subtract_facts rest
  obtain ⟨digest, s6, hash, h6⟩ := Fallible.bind_eq_ok h5
  have kept := hashOutput_facts hash
  obtain ⟨_, s7, back, h7⟩ := Fallible.bind_eq_ok h6
  cases back
  cases h7
  have last : IsEntry (7, 2, 422782464, 3980480, 422782464)
      (sectionEntry 7 2 422782464 3980480 422782464 (sha hashed)) :=
    ⟨sha hashed, rfl⟩
  rw [size] at all
  refine ⟨_, digest, List.rel_append all (.cons last .nil), ?_⟩
  rw [List.flatten_append, List.flatten_singleton]
  simp only [kept, same, headerBytes]

/-- The definitions of the seven sections. -/
abbrev frozenDefinitions (small : Sections) : List (Nat × Nat × Nat × Nat × Nat) :=
  definitions small [704, 608512, 1981312, 2133248, 3949952] 3952512 27936 ++
    [(7, 2, 422782464, 3980480, 422782464)]

/-- What the packer leaves when it succeeds. -/
structure PackedFile (source : Source) (tensors : List (String × Tensor)) (small : Sections)
    (file : Buffer) : Prop where
  length : file.length = modelBytes
  header : ∃ digest, file.slice 0 256 = header modelBytes digest
  directory : ∃ rows, List.Forall₂ IsEntry (frozenDefinitions small) rows ∧
    file.slice 256 rows.flatten.length = rows.flatten
  body : ∃ entries placements,
    Placed tensors packTensorRows 0 3980480 entries placements modelBytes ∧
      Supplied source placements ∧
      (∀ w ∈ bodyWrites source small entries placements, w.1 + w.2.length ≤ modelBytes) ∧
      ∀ w ∈ bodyWrites source small entries placements, file.slice w.1 w.2.length = w.2

/-- The header has 256 bytes. -/
lemma length_header {fileSize : Nat} {digest : Vector UInt8 32} :
    (header fileSize digest).length = 256 :=
  length_slice _ _ _

/-- The directory has 448 bytes. -/
lemma length_directory {small : Sections} {rows : List (List UInt8)}
    (h : List.Forall₂ IsEntry (frozenDefinitions small) rows) : rows.flatten.length = 448 := by
  have count := h.length_eq
  have size : ∀ row ∈ rows, row.length = 64 := by
    intro row mem
    obtain ⟨i, lt, rfl⟩ := List.getElem_of_mem mem
    have lt' : i < (frozenDefinitions small).length := by omega
    obtain ⟨digest, same⟩ := (List.forall₂_iff_get.1 h).2 i lt' lt
    rw [List.get_eq_getElem, List.get_eq_getElem] at same
    rw [same]
    exact length_sectionEntry
  have seven : (frozenDefinitions small).length = 7 := rfl
  rw [length_flatten size, ← count, seven]

/-- The body, the directory of the sections and the header do not meet. -/
lemma apart_writes {ws : List Write} {directory top : List UInt8}
    (tiled : Tiled 704 (ws.map place) modelBytes) (directory_size : directory.length = 448)
    (top_size : top.length = 256) :
    (ws ++ [(256, directory), (0, top)]).Pairwise Apart := by
  have laid : Laid 0 (([(0, top), (256, directory)] ++ ws).map place) modelBytes := by
    refine ⟨Nat.le_refl _, ?_, ?_⟩
    · show 0 + top.length ≤ 256
      omega
    · show Laid (256 + directory.length) _ _
      rw [directory_size]
      exact tiled.laid
  have perm : ([(0, top), (256, directory)] ++ ws).Perm (ws ++ [(256, directory), (0, top)]) :=
    (List.perm_append_comm).trans ((List.Perm.swap _ _ _).append_left ws)
  exact (perm.pairwise_iff Apart.symm).1 laid.apart

/-- Header and directory have 704 bytes. -/
lemma reserved_length : reserved.length = 704 := by
  have size := length_put_end (Buffer.zeros 0) (List.replicate 704 0)
  rw [List.length_replicate] at size
  exact size

/-- A file that is packed has header, directory and body. -/
lemma pack_facts {small : Sections} {r : Output} {u : Unit} (measured : Measured model.tensors)
    (run : tokenizerSections model.metadata p = (.ok small, r)) (sized : small.Sized)
    (h : pack sha source model p = (.ok u, q)) : PackedFile source model.tensors small q.file := by
  obtain ⟨found, s1, laid, h1⟩ := Fallible.bind_eq_ok h
  obtain ⟨entries, placements, rfl, placed⟩ := layout_facts measured run sized laid
  obtain ⟨hashed, s2, body, h2⟩ := Fallible.bind_eq_ok h1
  have size : entries.flatten.length = 27936 := by
    rw [length_flatten placed.length.2, placed.length.1, packTensorRows_length]
  obtain ⟨supplied, body_file, tiled⟩ := writeBody_facts sized size body
  obtain ⟨rows, digest, all, file⟩ := writeDirectory_facts size h2
  have directory_size := length_directory all
  have file : q.file = reserved.layDown (bodyWrites source small entries placements ++
      [(256, rows.flatten), (0, header modelBytes digest)]) := by
    rw [layDown_append, ← body_file, file]
    rfl
  have header_size : (header modelBytes digest).length = 256 := length_header
  have apart := apart_writes tiled directory_size header_size
  have slices : ∀ w ∈ bodyWrites source small entries placements ++
      [(256, rows.flatten), (0, header modelBytes digest)], q.file.slice w.1 w.2.length = w.2 := by
    intro w mem
    rw [file]
    exact slice_layDown apart mem
  have length : s2.file.length = modelBytes := by
    rw [body_file]
    refine length_layDown_tiled ?_
    rw [reserved_length]
    exact tiled
  refine ⟨?_, ⟨digest, ?_⟩, ⟨rows, all, ?_⟩, entries, placements, placed, supplied,
    fun w mem => ?_, fun w mem => ?_⟩
  · rw [file, layDown_append, ← body_file, length_layDown, length]
    intro w mem
    rw [length]
    rcases List.mem_cons.1 mem with rfl | later
    · show 256 + rows.flatten.length ≤ modelBytes
      rw [directory_size]
      decide
    · obtain rfl := List.mem_singleton.1 later
      show 0 + (header modelBytes digest).length ≤ modelBytes
      rw [length_header]
      decide
  · have top := slices (0, header modelBytes digest) (by simp)
    rwa [length_header] at top
  · exact slices (256, rows.flatten) (by simp)
  · exact (tiled.laid.bounds (place w) (List.mem_map_of_mem mem)).2
  · exact slices w (List.mem_append_left _ mem)

/-- A buffer with the same bytes is the file too. -/
lemma PackedFile.agree {tensors : List (String × Tensor)} {small : Sections} {file model : Buffer}
    (h : PackedFile source tensors small file) (length : model.length = modelBytes)
    (same : ∀ i < modelBytes, model.byte i = file.byte i) :
    PackedFile source tensors small model := by
  obtain ⟨digest, header⟩ := h.header
  obtain ⟨rows, all, directory⟩ := h.directory
  obtain ⟨entries, placements, placed, supplied, inside, body⟩ := h.body
  have inside_header : 0 + 256 ≤ modelBytes := by decide
  have inside_directory : 256 + rows.flatten.length ≤ modelBytes := by
    rw [length_directory all]
    decide
  refine ⟨length, ⟨digest, ?_⟩, ⟨rows, all, ?_⟩, entries, placements, placed, supplied, inside,
    fun w mem => ?_⟩
  · rw [slice_congr inside_header same]
    exact header
  · rw [slice_congr inside_directory same]
    exact directory
  · rw [slice_congr (inside w mem) same]
    exact body w mem

end File

end Promptboot.Pack
