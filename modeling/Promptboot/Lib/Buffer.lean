import Promptboot.Lib.Fallible
import Mathlib.Data.List.GetD

/-!
# Buffers filled by writes

A buffer is a file or a vector of bytes with its length. What a program writes into it is a list of
writes; where the writes keep apart from each other the buffer holds each of them in full,
whatever their order, and what lies outside all of them is as it was.

`byte_layDown_of_mem` is the rule for what is written, `byte_layDown_of_outside` the frame; both
need that the writes are `Apart`. `Tiled` is the invariant of a writer that appends one extent after
another, and `Emits` its logic, with a rule for each construct. The headlines of the module are
`slice_layDown` and `length_layDown_tiled`.
-/

/-- A file or a vector of bytes. -/
structure Buffer where
  length : Nat
  byte : Nat → UInt8

namespace Buffer

/-- The bytes from `offset` on. -/
def slice (b : Buffer) (offset count : Nat) : List UInt8 :=
  (List.range count).map fun i => b.byte (offset + i)

/-- Bytes written over what is there; a write past the end makes the buffer longer. -/
def put (b : Buffer) (offset : Nat) (bytes : List UInt8) : Buffer where
  length := if bytes.isEmpty then b.length else max b.length (offset + bytes.length)
  byte i := if offset ≤ i ∧ i < offset + bytes.length then bytes.getD (i - offset) 0 else b.byte i

def zeros (length : Nat) : Buffer := ⟨length, fun _ => 0⟩

/-- A new buffer holds zeros, within and behind. -/
@[simp] lemma byte_zeros (length i : Nat) : (zeros length).byte i = 0 := rfl

/-- A slice has the bytes that were asked for, past the end too. -/
@[simp] lemma length_slice (b : Buffer) (offset count : Nat) :
    (b.slice offset count).length = count := by
  simp [slice]

/-- A slice begins with its first byte. -/
lemma slice_succ (b : Buffer) (offset count : Nat) :
    b.slice offset (count + 1) = b.byte offset :: b.slice (offset + 1) count := by
  rw [slice, List.range_succ_eq_map, List.map_cons, List.map_map]
  refine congrArg₂ _ rfl (List.map_congr_left fun i _ => ?_)
  rw [Function.comp_apply, Nat.succ_eq_add_one]
  congr 1
  omega

/-- A slice is the slices of its two parts. -/
lemma slice_add (b : Buffer) (offset m n : Nat) :
    b.slice offset (m + n) = b.slice offset m ++ b.slice (offset + m) n := by
  rw [slice, List.range_add, List.map_append, List.map_map]
  refine congrArg _ (List.map_congr_left fun i _ => ?_)
  rw [Function.comp_apply, Nat.add_assoc]

/-- The beginning of a slice is the shorter slice. -/
lemma take_slice (b : Buffer) {offset m n : Nat} (le : m ≤ n) :
    (b.slice offset n).take m = b.slice offset m := by
  obtain ⟨k, rfl⟩ := Nat.exists_eq_add_of_le le
  rw [slice_add]
  simp

/-- A slice is known by its bytes. -/
lemma slice_eq_iff {b : Buffer} {offset : Nat} {bytes : List UInt8} :
    b.slice offset bytes.length = bytes ↔
      ∀ i < bytes.length, b.byte (offset + i) = bytes.getD i 0 := by
  constructor
  · intro h i lt
    rw [List.getD_eq_getElem _ _ lt]
    have at_i : (b.slice offset bytes.length).getD i 0 = bytes.getD i 0 := by rw [h]
    rw [List.getD_eq_getElem _ _ lt, List.getD_eq_getElem _ _ (by simpa using lt)] at at_i
    simpa [slice] using at_i
  · intro h
    apply List.ext_getElem (by simp)
    intro i _ lt
    rw [← List.getD_eq_getElem _ 0 lt, ← h i lt]
    simp [slice]

/-- Buffers that agree up to a place agree on every slice in front of it. -/
lemma slice_congr {b c : Buffer} {offset count stop : Nat} (inside : offset + count ≤ stop)
    (same : ∀ i < stop, b.byte i = c.byte i) : b.slice offset count = c.slice offset count := by
  refine List.map_congr_left fun i mem => same _ ?_
  have lt := List.mem_range.1 mem
  omega

/-- A run of numbers: its first and how many. -/
abbrev Extent := Nat × Nat

def Within (e : Extent) (i : Nat) : Prop := e.1 ≤ i ∧ i < e.1 + e.2

instance {e : Extent} {i : Nat} : Decidable (Within e i) := inferInstanceAs (Decidable (_ ∧ _))

/-- Two extents that do not meet. -/
def Clear (d e : Extent) : Prop := d.1 + d.2 ≤ e.1 ∨ e.1 + e.2 ≤ d.1

/-- A byte of one of two clear extents is not in the other. -/
lemma Clear.not_within {d e : Extent} {i : Nat} (h : Clear d e) (inside : Within d i) :
    ¬Within e i := by
  unfold Clear at h
  unfold Within at *
  omega

/-- Being clear of each other is symmetric. -/
lemma Clear.symm {d e : Extent} (h : Clear d e) : Clear e d := Or.symm h

/-- The extents lie one behind another from `start` to `stop`. -/
def Laid : Nat → List Extent → Nat → Prop
  | start, [], stop => start ≤ stop
  | start, e :: es, stop => start ≤ e.1 ∧ Laid (e.1 + e.2) es stop

/-- Extents laid in an interval leave its ends in order. -/
lemma Laid.le {start stop : Nat} {es : List Extent} (h : Laid start es stop) : start ≤ stop := by
  induction es generalizing start with
  | nil => exact h
  | cons e es ih =>
    have rest := ih h.2
    have first := h.1
    omega

/-- Extents laid in an interval are inside. -/
lemma Laid.bounds {start stop : Nat} {es : List Extent} (h : Laid start es stop) :
    ∀ e ∈ es, start ≤ e.1 ∧ e.1 + e.2 ≤ stop := by
  induction es generalizing start with
  | nil => exact fun _ mem => nomatch mem
  | cons d es ih =>
    intro e mem
    rcases List.mem_cons.1 mem with rfl | mem
    · exact ⟨h.1, h.2.le⟩
    · have rest := ih h.2 e mem
      have first := h.1
      omega

/-- Extents laid one after another are clear of each other. -/
lemma Laid.clear {start stop : Nat} {es : List Extent} (h : Laid start es stop) :
    es.Pairwise Clear := by
  induction es generalizing start with
  | nil => exact .nil
  | cons d es ih => exact List.pairwise_cons.2 ⟨fun e mem => .inl (h.2.bounds e mem).1, ih h.2⟩

/-- Two layouts, the second from where the first may end. -/
lemma Laid.append {start middle stop : Nat} {ds es : List Extent} (h : Laid start ds middle)
    (h' : Laid middle es stop) : Laid start (ds ++ es) stop := by
  induction ds generalizing start with
  | nil =>
    cases es with
    | nil => exact Nat.le_trans h h'
    | cons e es => exact ⟨Nat.le_trans h h'.1, h'.2⟩
  | cons d ds ih => exact ⟨h.1, ih h.2⟩

/-- A layout fits a wider interval. -/
lemma Laid.mono {start stop start' stop' : Nat} {es : List Extent} (h : Laid start es stop)
    (below : start' ≤ start) (above : stop ≤ stop') : Laid start' es stop' := by
  have whole : Laid start' ([] ++ (es ++ [])) stop' := Laid.append below (h.append above)
  simpa using whole

/-- The extents fill the numbers from `start` up to `stop`, in order. -/
inductive Tiled : Nat → List Extent → Nat → Prop where
  | nil {start : Nat} : Tiled start [] start
  | cons {e : Extent} {es : List Extent} {stop : Nat} (rest : Tiled (e.1 + e.2) es stop) :
    Tiled e.1 (e :: es) stop

/-- Extents that tile an interval are laid in it. -/
lemma Tiled.laid {start stop : Nat} {es : List Extent} (h : Tiled start es stop) :
    Laid start es stop := by
  induction h with
  | nil => exact Nat.le_refl _
  | cons _ ih => exact ⟨Nat.le_refl _, ih⟩

/-- Nothing tiles the empty interval only. -/
lemma Tiled.empty {start stop : Nat} (h : Tiled start [] stop) : start = stop := by
  cases h
  rfl

/-- The first tile is at the start. -/
lemma Tiled.head {start stop : Nat} {e : Extent} {es : List Extent} (h : Tiled start (e :: es) stop) :
    e.1 = start ∧ Tiled (start + e.2) es stop := by
  cases h with
  | cons rest => exact ⟨rfl, rest⟩

/-- Two tilings, the second from where the first ends. -/
lemma Tiled.append {start middle stop : Nat} {ds es : List Extent} (h : Tiled start ds middle)
    (h' : Tiled middle es stop) : Tiled start (ds ++ es) stop := by
  induction h with
  | nil => exact h'
  | cons _ ih => exact .cons (ih h')

/-- A piece of what lies there is where the pieces before it end. -/
lemma slice_pieces {b : Buffer} {offset : Nat} {pieces : List (List UInt8)}
    (h : b.slice offset pieces.flatten.length = pieces.flatten) {i : Nat} {piece : List UInt8}
    (known : pieces[i]? = some piece) :
    b.slice (offset + (pieces.take i).flatten.length) piece.length = piece := by
  induction pieces generalizing offset i with
  | nil => cases known
  | cons first pieces ih =>
    rw [List.flatten_cons, List.length_append, slice_add] at h
    obtain ⟨head, tail⟩ := List.append_inj h (length_slice _ _ _)
    cases i with
    | zero =>
      obtain rfl := Option.some.inj known
      exact head
    | succ i =>
      rw [List.take_succ_cons, List.flatten_cons, List.length_append, ← Nat.add_assoc]
      exact ih tail known

/-- Where a write goes and what it writes. -/
abbrev Write := Nat × List UInt8

def place (w : Write) : Extent := (w.1, w.2.length)

/-- Two writes that do not meet. -/
def Apart (v w : Write) : Prop := Clear (place v) (place w)

/-- Being apart is symmetric. -/
lemma Apart.symm {v w : Write} (h : Apart v w) : Apart w v := Clear.symm h

/-- Writes to places laid one after another are apart. -/
lemma Laid.apart {start stop : Nat} {ws : List Write} (h : Laid start (ws.map place) stop) :
    ws.Pairwise Apart :=
  (List.pairwise_map (f := place)).1 h.clear

/-- All the writes, one after another. -/
def layDown (b : Buffer) (ws : List Write) : Buffer := ws.foldl (fun b w => b.put w.1 w.2) b

/-- No write changes nothing. -/
@[simp] lemma layDown_nil (b : Buffer) : b.layDown [] = b := rfl

/-- The writes are made from the first on. -/
@[simp] lemma layDown_cons (b : Buffer) (w : Write) (ws : List Write) :
    b.layDown (w :: ws) = (b.put w.1 w.2).layDown ws := rfl

/-- Laying down two lists is laying down one behind the other. -/
lemma layDown_append (b : Buffer) (vs ws : List Write) :
    b.layDown (vs ++ ws) = (b.layDown vs).layDown ws := by
  rw [layDown, List.foldl_append]
  rfl

/-- In the place of a write is what it wrote. -/
lemma byte_put_of_within {b : Buffer} {w : Write} {i : Nat} (h : Within (place w) i) :
    (b.put w.1 w.2).byte i = w.2.getD (i - w.1) 0 :=
  if_pos h

/-- A write leaves the bytes outside its place. -/
lemma byte_put_of_not_within {b : Buffer} {w : Write} {i : Nat} (h : ¬Within (place w) i) :
    (b.put w.1 w.2).byte i = b.byte i :=
  if_neg h

/-- Writes leave the bytes outside all their places. -/
lemma byte_layDown_of_outside {b : Buffer} {ws : List Write} {i : Nat}
    (h : ∀ w ∈ ws, ¬Within (place w) i) : (b.layDown ws).byte i = b.byte i := by
  induction ws generalizing b with
  | nil => rfl
  | cons w ws ih =>
    rw [layDown_cons, ih fun v mem => h v (List.mem_cons_of_mem _ mem),
      byte_put_of_not_within (h w List.mem_cons_self)]

/-- Writes that keep apart are all there in the end. -/
lemma byte_layDown_of_mem {b : Buffer} {ws : List Write} (apart : ws.Pairwise Apart) {w : Write}
    (mem : w ∈ ws) {i : Nat} (h : Within (place w) i) : (b.layDown ws).byte i = w.2.getD (i - w.1) 0 := by
  induction apart generalizing b with
  | nil => cases mem
  | @cons v ws first _ ih =>
    rw [layDown_cons]
    rcases List.mem_cons.1 mem with rfl | later
    · rw [byte_layDown_of_outside fun u there => Clear.not_within (first u there) h,
        byte_put_of_within h]
    · exact ih later

/-- Of writes that are apart, each is there in the end. -/
lemma slice_layDown {b : Buffer} {ws : List Write} (apart : ws.Pairwise Apart) {w : Write}
    (mem : w ∈ ws) : (b.layDown ws).slice w.1 w.2.length = w.2 := by
  refine slice_eq_iff.2 fun i lt => ?_
  rw [byte_layDown_of_mem apart mem ⟨by simp [place], by simpa [place] using lt⟩, Nat.add_sub_cancel_left]

/-- Writes within a buffer do not make it longer. -/
lemma length_layDown {b : Buffer} {ws : List Write}
    (within : ∀ w ∈ ws, w.1 + w.2.length ≤ b.length) : (b.layDown ws).length = b.length := by
  induction ws generalizing b with
  | nil => rfl
  | cons w ws ih =>
    have same : (b.put w.1 w.2).length = b.length := by
      have fits := within w List.mem_cons_self
      simp only [put]
      split_ifs <;> omega
    rw [layDown_cons, ih fun v mem => same.symm ▸ within v (List.mem_cons_of_mem _ mem), same]

/-- A write at the end makes the buffer longer by its bytes. -/
lemma length_put_end (b : Buffer) (bytes : List UInt8) :
    (b.put b.length bytes).length = b.length + bytes.length := by
  rw [put]
  rcases bytes with _ | ⟨byte, bytes⟩ <;> simp

/-- Writes that follow each other from the end of a buffer move its end. -/
lemma length_layDown_tiled {b : Buffer} {ws : List Write} {stop : Nat}
    (h : Tiled b.length (ws.map place) stop) : (b.layDown ws).length = stop := by
  induction ws generalizing b with
  | nil => exact h.empty
  | cons w ws ih =>
    obtain ⟨start, rest⟩ := h.head
    have start : w.1 = b.length := start
    rw [layDown_cons, start]
    refine ih ?_
    rw [length_put_end]
    exact rest

/-- A field of a record that was laid down where the record lies. -/
lemma slice_field {b record : Buffer} {base size : Nat} {ws : List Write} {w : Write}
    (there : b.slice base size = (record.layDown ws).slice 0 size) (apart : ws.Pairwise Apart)
    (mem : w ∈ ws) (within : w.1 + w.2.length ≤ size) :
    b.slice (base + w.1) w.2.length = w.2 := by
  have field := slice_layDown (b := record) apart mem
  refine slice_eq_iff.2 fun i lt => ?_
  rw [← slice_eq_iff.1 field i lt]
  have same := congrArg (fun bytes => bytes.getD (w.1 + i) 0) there
  have inside : w.1 + i < size := by omega
  simpa [slice, List.getD_eq_getElem?_getD, List.getElem?_map, List.getElem?_range inside,
    Nat.add_assoc] using same

/-- What no write of a record reached is as it was. -/
lemma slice_unused {b : Buffer} {base size : Nat} (offset count : Nat) {ws : List Write}
    (there : b.slice base size = ((zeros size).layDown ws).slice 0 size)
    (outside : ∀ w ∈ ws, Clear (place w) (offset, count)) (within : offset + count ≤ size) :
    b.slice (base + offset) count = List.replicate count 0 := by
  have bytes : ∀ i < count, b.byte (base + offset + i) = 0 := by
    intro i lt
    have same := congrArg (fun bytes => bytes.getD (offset + i) 0) there
    have inside : offset + i < size := by omega
    have unused : ((zeros size).layDown ws).byte (offset + i) = 0 := by
      refine byte_layDown_of_outside fun w mem => ?_
      exact Clear.not_within (outside w mem).symm ⟨Nat.le_add_right _ _, by simp only; omega⟩
    simpa [slice, List.getD_eq_getElem?_getD, List.getElem?_map, List.getElem?_range inside,
      Nat.add_assoc, unused] using same
  refine List.eq_replicate_iff.2 ⟨length_slice _ _ _, fun byte mem => ?_⟩
  obtain ⟨i, small, rfl⟩ := List.mem_map.1 mem
  exact bytes i (List.mem_range.1 small)

section Emits
variable {ε α β : Type}

/-- A computation that, when it succeeds, has written `ws` and nothing else. -/
def Emits (c : Fallible Buffer ε α) (ws : List Write) : Prop :=
  ∀ b a t, c b = (.ok a, t) → t = b.layDown ws

/-- A value alone writes nothing. -/
lemma Emits.pure {a : α} : Emits (Pure.pure a : Fallible Buffer ε α) [] := by
  rintro b a t ⟨⟩
  rfl

/-- A put is one write. -/
lemma Emits.write {offset : Nat} {bytes : List UInt8} :
    Emits (.modify (·.put offset bytes) : Fallible Buffer ε Unit) [(offset, bytes)] := by
  rintro b a t ⟨⟩
  rfl

/-- The writes of two parts, one behind the other. -/
lemma Emits.bind {c : Fallible Buffer ε α} {f : α → Fallible Buffer ε β} {vs ws : List Write}
    (first : Emits c vs) (second : ∀ a, Emits (f a) ws) : Emits (c >>= f) (vs ++ ws) := by
  intro b a t h
  obtain ⟨x, s, there, h⟩ := Fallible.bind_eq_ok h
  rw [layDown_append, ← first b x s there]
  exact second x s a t h

/-- A part that makes one write puts it in front. -/
lemma Emits.cons {c : Fallible Buffer ε α} {f : α → Fallible Buffer ε β} {w : Write}
    {ws : List Write} (first : Emits c [w]) (second : ∀ a, Emits (f a) ws) :
    Emits (c >>= f) (w :: ws) :=
  first.bind second

end Emits

end Buffer
