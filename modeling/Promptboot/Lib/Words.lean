import Promptboot.Lib.Memory

/-!
# Words in flat memories

`putU32` stores a little-endian word in a memory of bytes; `words` are those from an address on.
`SameOutside` is the frame of whatever writes inside one area. The loops over words (`putWords`,
`copyWords`, `moveDown`) come with what they leave in the area and with that frame.

Each writer has one lemma for what it leaves (`u32At_putU32`, `words_putWords`, `words_copyWords`,
`words_moveDown`, `bytes_putBytes`) and one for its frame, named after `SameOutside`. The frames
compose by `SameOutside.trans` and widen by `SameOutside.mono`.
-/

namespace Memory

variable {α : Type}

/-- Stores `v` at `a`, lowest byte first. -/
def putU32 (m : Nat → UInt8) (a : Nat) (v : UInt32) : Nat → UInt8 := fun b =>
  if b < a ∨ a + 4 ≤ b then m b else UInt8.ofNat (v.toNat / 2 ^ (8 * (b - a)))

/-- A store of a word leaves the bytes outside. -/
lemma putU32_of_outside {m : Nat → UInt8} {a b : Nat} {v : UInt32} (h : b < a ∨ a + 4 ≤ b) :
    putU32 m a v b = m b :=
  if_pos h

/-- A stored word reads back. -/
@[simp] lemma u32At_putU32 (m : Nat → UInt8) (a : Nat) (v : UInt32) :
    u32At (putU32 m a v) a = v := by
  have bound := v.toNat_lt
  apply UInt32.toNat_inj.mp
  simp only [u32At, putU32, UInt32.toNat_ofNat', UInt8.toNat_ofNat',
    show ¬(a < a ∨ a + 4 ≤ a) by omega, show ¬(a + 1 < a ∨ a + 4 ≤ a + 1) by omega,
    show ¬(a + 2 < a ∨ a + 4 ≤ a + 2) by omega, show ¬(a + 3 < a ∨ a + 4 ≤ a + 3) by omega,
    if_false, Nat.sub_self, Nat.add_sub_cancel_left]
  omega

/-- A word is untouched by a store at least a word away. -/
lemma u32At_putU32_of_disjoint {m : Nat → UInt8} {a b : Nat} {v : UInt32}
    (h : a + 4 ≤ b ∨ b + 4 ≤ a) : u32At (putU32 m a v) b = u32At m b := by
  unfold u32At
  rw [putU32_of_outside (by omega), putU32_of_outside (by omega), putU32_of_outside (by omega),
    putU32_of_outside (by omega)]

/-- `m'` differs from `m` at most from `low` up to `high`. -/
def SameOutside (low high : Nat) (m m' : Nat → α) : Prop :=
  ∀ a, a < low ∨ high ≤ a → m' a = m a

/-- A memory agrees with itself outside every area. -/
lemma SameOutside.refl {low high : Nat} {m : Nat → α} : SameOutside low high m m :=
  fun _ _ => rfl

/-- Memories that agree in turn agree. -/
lemma SameOutside.trans {low high : Nat} {m m' m'' : Nat → α} (h : SameOutside low high m m')
    (h' : SameOutside low high m' m'') : SameOutside low high m m'' :=
  fun a ha => (h' a ha).trans (h a ha)

/-- Agreement outside an area is agreement outside a larger one. -/
lemma SameOutside.mono {low high low' high' : Nat} {m m' : Nat → α}
    (h : SameOutside low high m m') (below : low' ≤ low) (above : high ≤ high') :
    SameOutside low' high' m m' :=
  fun a ha => h a (by omega)

/-- A store of a word within an area changes nothing outside. -/
lemma SameOutside.putU32 {low high a : Nat} {m : Nat → UInt8} {v : UInt32} (below : low ≤ a)
    (above : a + 4 ≤ high) : SameOutside low high m (putU32 m a v) :=
  fun _ hb => putU32_of_outside (by omega)

/-- A loop of writes inside an area stays inside it. -/
lemma SameOutside.foldl {β : Type} {low high : Nat} {f : (Nat → α) → β → Nat → α} {l : List β}
    (h : ∀ m, ∀ i ∈ l, SameOutside low high m (f m i)) (m : Nat → α) :
    SameOutside low high m (l.foldl f m) := by
  induction l generalizing m with
  | nil => exact .refl
  | cons i l ih =>
    refine SameOutside.trans (h m i (List.mem_cons_self ..)) ?_
    exact ih (fun m j hj => h m j (List.mem_cons_of_mem _ hj)) (f m i)

/-- The `n` words from `base` on. -/
def words (m : Nat → UInt8) (base n : Nat) : List UInt32 :=
  (List.range n).map fun i => u32At m (base + i * 4)

/-- As many words are read as asked for. -/
@[simp] lemma length_words (m : Nat → UInt8) (base n : Nat) : (words m base n).length = n := by
  simp [words]

/-- One more word is read at the end. -/
lemma words_succ (m : Nat → UInt8) (base n : Nat) :
    words m base (n + 1) = words m base n ++ [u32At m (base + n * 4)] := by
  rw [words, List.range_succ, List.map_append]
  rfl

/-- Words in two parts are read one part behind the other. -/
lemma words_add (m : Nat → UInt8) (base n k : Nat) :
    words m base (n + k) = words m base n ++ words m (base + n * 4) k := by
  induction k with
  | zero => simp [words]
  | succ k ih =>
    rw [← Nat.add_assoc, words_succ, ih, words_succ, List.append_assoc]
    congr 4
    omega

/-- Words are known one by one. -/
lemma words_ext {m m' : Nat → UInt8} {base base' n : Nat}
    (h : ∀ i < n, u32At m' (base' + i * 4) = u32At m (base + i * 4)) :
    words m' base' n = words m base n :=
  List.map_congr_left fun i hi => h i (List.mem_range.mp hi)

/-- A word whose bytes are the same is the same. -/
lemma u32At_congr {m m' : Nat → UInt8} {a : Nat} (h : ∀ b, a ≤ b → b < a + 4 → m' b = m b) :
    u32At m' a = u32At m a := by
  unfold u32At
  rw [h a (by omega) (by omega), h (a + 1) (by omega) (by omega), h (a + 2) (by omega) (by omega),
    h (a + 3) (by omega) (by omega)]

/-- An area apart from what changed keeps its words. -/
lemma SameOutside.words {low high base n : Nat} {m m' : Nat → UInt8}
    (h : SameOutside low high m m') (apart : base + n * 4 ≤ low ∨ high ≤ base) :
    words m' base n = words m base n :=
  words_ext fun i hi => u32At_congr fun b lower upper => h b (by omega)

/-- A store at a word of an area replaces that word. -/
lemma words_putU32 {m : Nat → UInt8} {base n i : Nat} {v : UInt32} :
    words (putU32 m (base + i * 4) v) base n = (words m base n).set i v := by
  apply List.ext_getElem
  · simp
  · intro j hj _
    rw [List.getElem_set]
    simp only [words, List.getElem_map, List.getElem_range]
    split_ifs with here
    · rw [← here, u32At_putU32]
    · exact u32At_putU32_of_disjoint (by omega)

/-- A word read is the word at its place. -/
lemma getElem?_words {m : Nat → UInt8} {base n i : Nat} :
    (words m base n)[i]? = if i < n then some (u32At m (base + i * 4)) else none := by
  rw [words, List.getElem?_map]
  split_ifs with h
  · rw [List.getElem?_range h, Option.map_some]
  · rw [List.getElem?_eq_none (by simpa using h), Option.map_none]

/-- Writes words one after another from `base` on. -/
def putWords (m : Nat → UInt8) (base : Nat) (vs : List UInt32) : Nat → UInt8 :=
  vs.zipIdx.foldl (fun m (v, i) => putU32 m (base + i * 4) v) m

/-- The last word is stored last. -/
lemma putWords_concat (m : Nat → UInt8) (base : Nat) (vs : List UInt32) (v : UInt32) :
    putWords m base (vs ++ [v]) = putU32 (putWords m base vs) (base + vs.length * 4) v := by
  rw [putWords, List.zipIdx_append, List.foldl_append]
  simp [putWords]

/-- Storing words changes nothing outside their area. -/
lemma putWords_sameOutside (m : Nat → UInt8) (base : Nat) (vs : List UInt32) :
    SameOutside base (base + vs.length * 4) m (putWords m base vs) := by
  refine SameOutside.foldl (fun m p hp => ?_) m
  have bound := (List.mem_zipIdx' hp).1
  exact .putU32 (by omega) (by omega)

/-- Stored words are read back. -/
lemma words_putWords (m : Nat → UInt8) (base : Nat) (vs : List UInt32) :
    words (putWords m base vs) base vs.length = vs := by
  induction vs using List.reverseRecOn with
  | nil => simp [words]
  | append_singleton vs v ih =>
    have kept : words (putU32 (putWords m base vs) (base + vs.length * 4) v) base vs.length =
        words (putWords m base vs) base vs.length :=
      words_ext fun i hi => u32At_putU32_of_disjoint (by omega)
    rw [putWords_concat, List.length_append, List.length_singleton, words_succ, u32At_putU32, kept,
      ih]

/-- Copies `n` words from `source` to `target`, lowest first. -/
def copyWords (m : Nat → UInt8) (source target n : Nat) : Nat → UInt8 :=
  (List.range n).foldl (fun m i => putU32 m (target + i * 4) (u32At m (source + i * 4))) m

/-- The last word is copied last. -/
lemma copyWords_succ (m : Nat → UInt8) (source target n : Nat) :
    copyWords m source target (n + 1) = putU32 (copyWords m source target n) (target + n * 4)
      (u32At (copyWords m source target n) (source + n * 4)) := by
  rw [copyWords, List.range_succ, List.foldl_append]
  rfl

/-- Copying words changes nothing outside the target. -/
lemma copyWords_sameOutside (m : Nat → UInt8) (source target n : Nat) :
    SameOutside target (target + n * 4) m (copyWords m source target n) := by
  refine SameOutside.foldl (fun m i hi => ?_) m
  have bound := List.mem_range.mp hi
  exact .putU32 (by omega) (by omega)

/-- Between areas that do not overlap, the words arrive as they were. -/
lemma words_copyWords {m : Nat → UInt8} {source target n : Nat}
    (apart : source + n * 4 ≤ target ∨ target + n * 4 ≤ source) :
    words (copyWords m source target n) target n = words m source n := by
  induction n with
  | zero => simp [words]
  | succ n ih =>
    have kept : words (copyWords m source target (n + 1)) target n =
        words (copyWords m source target n) target n := by
      rw [copyWords_succ]
      exact words_ext fun i hi => u32At_putU32_of_disjoint (by omega)
    have read : u32At (copyWords m source target n) (source + n * 4) = u32At m (source + n * 4) :=
      u32At_congr fun b lower upper => copyWords_sameOutside m source target n b (by omega)
    have stored : u32At (copyWords m source target (n + 1)) (target + n * 4) =
        u32At m (source + n * 4) := by
      rw [copyWords_succ, u32At_putU32, read]
    rw [words_succ, kept, ih (by omega), stored, words_succ]

/-- Moves the words after `first` down by one, over the `n` words from `base` on. -/
def moveDown (m : Nat → UInt8) (base first n : Nat) : Nat → UInt8 :=
  (List.range' first (n - 1 - first)).foldl
    (fun m i => putU32 m (base + i * 4) (u32At m (base + (i + 1) * 4))) m

/-- Moving words down changes nothing outside their area. -/
lemma moveDown_sameOutside (m : Nat → UInt8) (base first n : Nat) :
    SameOutside base (base + n * 4) m (moveDown m base first n) := by
  refine SameOutside.foldl (fun m i hi => ?_) m
  have bound := List.mem_range'_1.mp hi
  exact .putU32 (by omega) (by omega)

/-- A word that is moved down is the next one's; the others stay. -/
lemma u32At_moveDown {m : Nat → UInt8} {base first k : Nat} (i : Nat) :
    u32At ((List.range' first k).foldl
      (fun m i => putU32 m (base + i * 4) (u32At m (base + (i + 1) * 4))) m) (base + i * 4) =
      if first ≤ i ∧ i < first + k then u32At m (base + (i + 1) * 4)
      else u32At m (base + i * 4) := by
  induction k generalizing i with
  | zero =>
    rw [if_neg (by omega)]
    rfl
  | succ k ih =>
    rw [List.range'_1_concat, List.foldl_append]
    simp only [List.foldl_cons, List.foldl_nil]
    by_cases here : i = first + k
    · subst here
      rw [u32At_putU32, ih, if_neg (by omega), if_pos (by omega)]
    · rw [u32At_putU32_of_disjoint (by omega), ih]
      split <;> split <;> first | rfl | omega

/-- Moving down drops the word that is overwritten first. -/
lemma words_moveDown {m : Nat → UInt8} {base first n : Nat} (h : first < n) :
    words (moveDown m base first n) base (n - 1) = (words m base n).eraseIdx first := by
  apply List.ext_getElem
  · simp [List.length_eraseIdx_of_lt, h]
  · intro i hi _
    have bound : i < n - 1 := by simpa using hi
    rw [List.getElem_eraseIdx]
    simp only [words, List.getElem_map, List.getElem_range, moveDown, u32At_moveDown]
    by_cases before : i < first
    · rw [if_neg (by omega), dif_pos before]
    · rw [if_pos (by omega), dif_neg before]

/-- The `n` bytes from `base` on. -/
def bytes (m : Nat → UInt8) (base n : Nat) : List UInt8 :=
  (List.range n).map fun i => m (base + i)

/-- Stores bytes one after another from `base` on. -/
def putBytes (m : Nat → UInt8) (base : Nat) (source : List UInt8) : Nat → UInt8 := fun a =>
  if base ≤ a ∧ a < base + source.length then source[a - base]! else m a

/-- Storing bytes changes nothing outside their area. -/
lemma putBytes_sameOutside (m : Nat → UInt8) (base : Nat) (source : List UInt8) :
    SameOutside base (base + source.length) m (putBytes m base source) :=
  fun _ _ => if_neg (by omega)

/-- As many bytes are read as asked for. -/
@[simp] lemma length_bytes (m : Nat → UInt8) (base n : Nat) : (bytes m base n).length = n := by
  simp [bytes]

/-- Stored bytes are read back. -/
lemma bytes_putBytes (m : Nat → UInt8) (base : Nat) (source : List UInt8) :
    bytes (putBytes m base source) base source.length = source := by
  apply List.ext_getElem
  · simp
  · intro i hi hi'
    simp only [bytes, List.getElem_map, List.getElem_range, putBytes]
    rw [if_pos (by omega), Nat.add_sub_cancel_left, getElem!_pos source i hi']

/-- Bytes in two parts are read one part behind the other. -/
lemma bytes_add (m : Nat → UInt8) (base n k : Nat) :
    bytes m base (n + k) = bytes m base n ++ bytes m (base + n) k := by
  rw [bytes, List.range_add, List.map_append, List.map_map]
  simp only [bytes, Function.comp_def, Nat.add_assoc]

/-- An area apart from what changed keeps its bytes. -/
lemma SameOutside.bytes {low high base n : Nat} {m m' : Nat → UInt8}
    (h : SameOutside low high m m') (apart : base + n ≤ low ∨ high ≤ base) :
    bytes m' base n = bytes m base n :=
  List.map_congr_left fun i hi => h _ (by have := List.mem_range.mp hi; omega)

end Memory
