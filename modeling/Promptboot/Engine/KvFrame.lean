import Mathlib.Algebra.GroupWithZero.Nat
import Promptboot.Engine.Evaluate

/-!
# What a KV store changes

`kv_word` numbers the words of the cache: every word below `KV_BYTES / 4` belongs to exactly one
coordinate. A `write_kv` that succeeds therefore changes the row of its layer and position and
nothing else, and one that fails changes nothing.

`range_kvWord` is the image of the addressing, from `kvCoord_word`. `storeRow_read` and
`storeKv_of_not_mem` are the loop of the store, `kvStored_stored` the whole of it, and the headline
`kv_addressing` puts the numbering and both ends of `write_kv` together.
-/

namespace Promptboot

local instance kindsNeZero : NeZero 2 := ⟨by decide⟩

/-- The coordinate that a word number stands for. -/
def kvCoord (word : Nat) (inside : word < kvBytes / 4) : KvCoord :=
  have bound : word < 201326592 := inside
  let layer : Fin layers := ⟨word / 8388608, by unfold layers; omega⟩
  let rest := word % 8388608
  if rest < 4194304 then
    { layer
      kind := 0
      position := ⟨rest / 256 % 8192 * 4 + rest % 4, by unfold contextLimit; omega⟩
      head := ⟨rest / 2097152 % 2, Nat.mod_lt _ (by decide)⟩
      component := ⟨rest / 4 % 64, Nat.mod_lt _ (by decide)⟩ }
  else
    { layer
      kind := 1
      position := ⟨rest / 64 % 32768, Nat.mod_lt _ (by decide)⟩
      head := ⟨rest / 2097152 % 2, Nat.mod_lt _ (by decide)⟩
      component := ⟨rest % 64, Nat.mod_lt _ (by decide)⟩ }

/-- The coordinates of a word have that word. -/
lemma kvCoord_word {word : Nat} (inside : word < kvBytes / 4) :
    (kvCoord word inside).word = word := by
  simp only [kvCoord, KvCoord.word]
  split_ifs with key
  · simp only [kvWord, headWords, contextLimit, kvTile, kvLayerWords, kvValueWords, kvHeads,
      Fin.val_zero, if_true]
    omega
  · simp only [kvWord, headWords, contextLimit, kvLayerWords, kvValueWords, kvHeads,
      Fin.val_one, Nat.one_ne_zero, if_false]
    omega

/-- The words of the coordinates are those of the cache. -/
lemma range_kvWord {word : Nat} : (∃ c : KvCoord, c.word = word) ↔ word < kvBytes / 4 := by
  constructor
  · rintro ⟨c, rfl⟩
    exact c.word_lt
  · intro inside
    exact ⟨kvCoord word inside, kvCoord_word inside⟩

/-- The state after a store of the K and V regions. -/
def Evaluation.stored (s : Evaluation) (layer : Nat) : Evaluation :=
  { s with
    engine := { s.engine with
      kv := storeKv s.engine.kv layer s.engine.position s.engine.scratch.k s.engine.scratch.v } }

/-- The cache of the stored state is the cache with the row. -/
lemma Evaluation.stored_kv (s : Evaluation) (layer : Nat) :
    (s.stored layer).engine.kv =
      storeKv s.engine.kv layer s.engine.position s.engine.scratch.k s.engine.scratch.v := by
  rw [stored]

section Store

variable {layer position : Nat} {kv : Nat → Word} {k v : Vector Word kvRowWords}

/-- The store is rejected, or stores the row. -/
lemma writeKv_eq (s : Evaluation) :
    writeKv layer s = match writeKvError layer s.engine.position with
      | some error => (.error error, s)
      | none => (.ok (), s.stored layer) := by
  unfold writeKv
  rw [Fallible.bind_apply]
  cases h : writeKvError layer s.engine.position <;> simp [h, Evaluation.stored]

/-- What passes the range checks lies in the cache. -/
lemma inside_of_writeKvError (passed : writeKvError layer position = none) :
    layer < layers ∧ position < contextLimit := by
  unfold writeKvError at passed
  split_ifs at passed with outside
  omega

/-- A word that is none of the row's is left alone. -/
lemma storeRow_of_not_mem {kind word : Nat} {row : Vector Word kvRowWords}
    (other : ∀ (head : Fin kvHeads) (component : Fin headWords),
      kvWord layer kind position head component ≠ word) :
    storeRow kv layer kind position row word = kv word :=
  Memory.writeAll_of_ne fun i _ => other i.1 i.2

/-- The head and the component of an index into a row. -/
def rowIndex (i : Fin kvRowWords) : Fin kvHeads × Fin headWords :=
  have bound : i.val < 128 := i.isLt
  (⟨i / 64, by unfold kvHeads; omega⟩, ⟨i % 64, Nat.mod_lt _ (by decide)⟩)

/-- The word stored at an index is the row's. -/
lemma kvSource_rowIndex (row : Vector Word kvRowWords) (i : Fin kvRowWords) :
    kvSource row (rowIndex i) = row.get i := by
  unfold kvSource
  congr 1
  ext
  simp only [rowIndex, headWords]
  omega

/-- A stored row reads back. -/
lemma storeRow_read {kind : Nat} {row : Vector Word kvRowWords} (hl : layer < layers)
    (hk : kind < 2) (hp : position < contextLimit) (i : Fin kvRowWords) :
    storeRow kv layer kind position row
      (kvWord layer kind position (i / headWords) (i % headWords)) = row.get i := by
  let c : KvCoord := ⟨⟨layer, hl⟩, ⟨kind, hk⟩, ⟨position, hp⟩, (rowIndex i).1, (rowIndex i).2⟩
  exact (storeRow_self (c := c) rfl rfl rfl).trans (kvSource_rowIndex row i)

/-- A store reads back as the vectors it was given. -/
lemma kvPair_storeKv (hl : layer < layers) (hp : position < contextLimit) :
    kvPair (storeKv kv layer position k v) layer position = ⟨k, v⟩ := by
  have keys (i : Fin kvRowWords) :
      storeKv kv layer position k v
        (kvWord layer 0 position (i / headWords) (i % headWords)) = k.get i := by
    let c : KvCoord := ⟨⟨layer, hl⟩, 0, ⟨position, hp⟩, (rowIndex i).1, (rowIndex i).2⟩
    have kept : storeKv kv layer position k v c.word = storeRow kv layer 0 position k c.word :=
      storeRow_of_ne (by decide) hp (.inr (.inl Nat.zero_ne_one))
    exact kept.trans (storeRow_read hl (by decide) hp i)
  have values (i : Fin kvRowWords) :
      storeKv kv layer position k v
        (kvWord layer 1 position (i / headWords) (i % headWords)) = v.get i :=
    storeRow_read hl (by decide) hp i
  refine congrArg₂ KvPair.mk (Vector.ext fun i hi => ?_) (Vector.ext fun i hi => ?_)
  · rw [Vector.getElem_ofFn]
    exact keys ⟨i, hi⟩
  · rw [Vector.getElem_ofFn]
    exact values ⟨i, hi⟩

/-- Every word that is not of the layer and the position keeps its value. -/
lemma storeKv_of_not_mem {word : Nat} (hl : layer < layers) (hp : position < contextLimit)
    (other : ∀ c : KvCoord, c.layer = layer → c.position = position → c.word ≠ word) :
    storeKv kv layer position k v word = kv word := by
  have elsewhere (kind : Fin 2) (head : Fin kvHeads) (component : Fin headWords) :
      kvWord layer kind position head component ≠ word :=
    other ⟨⟨layer, hl⟩, kind, ⟨position, hp⟩, head, component⟩ rfl rfl
  exact (storeRow_of_not_mem (elsewhere 1)).trans (storeRow_of_not_mem (elsewhere 0))

/-- What a store that succeeds has done: the row of its layer and position holds the vectors, and
no other word has changed, of the cache or outside of it. -/
structure KvStored (layer : Nat) (s t : Evaluation) : Prop where
  layer_lt : layer < layers
  position_lt : s.engine.position < contextLimit
  read : kvPair t.engine.kv layer s.engine.position = ⟨s.engine.scratch.k, s.engine.scratch.v⟩
  row : ∀ c : KvCoord, c.layer ≠ layer ∨ c.position ≠ s.engine.position →
    t.engine.kv c.word = s.engine.kv c.word
  frame : ∀ word,
    (∀ c : KvCoord, c.layer = layer → c.position = s.engine.position → c.word ≠ word) →
    t.engine.kv word = s.engine.kv word
  others : t = { s with engine := { s.engine with kv := t.engine.kv } }

/-- The state behind an accepted store is the stored one. -/
lemma kvStored_stored {s : Evaluation} (hl : layer < layers)
    (hp : s.engine.position < contextLimit) : KvStored layer s (s.stored layer) where
  layer_lt := hl
  position_lt := hp
  read := by rw [s.stored_kv, kvPair_storeKv hl hp]
  row _ other := by rw [s.stored_kv, storeKv_of_ne hp other]
  frame _ other := by rw [s.stored_kv, storeKv_of_not_mem hl hp other]
  others := by rw [Evaluation.stored]

end Store

/-- The addressing is a bijection between the coordinates and the words of the cache, and a store
is confined to the row of its layer and position. -/
theorem kv_addressing :
    (∀ c d : KvCoord, c.word = d.word → c = d) ∧
    (∀ word, (∃ c : KvCoord, c.word = word) ↔ word < kvBytes / 4) ∧
    ∀ layer s,
      match writeKv layer s with
      | (.ok (), t) => KvStored layer s t
      | (.error _, t) => t = s := by
  refine ⟨fun c d => KvCoord.word_inj, fun word => range_kvWord, ?_⟩
  intro layer s
  rw [writeKv_eq]
  cases passed : writeKvError layer s.engine.position with
  | some error => rfl
  | none =>
    obtain ⟨hl, hp⟩ := inside_of_writeKvError passed
    exact kvStored_stored hl hp

end Promptboot
