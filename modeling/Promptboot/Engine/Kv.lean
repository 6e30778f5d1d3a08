import Promptboot.Engine.Types

/-!
# KV cache

The cache addressing `kv_word` and the store `write_kv` (`inference.rs`). Keys are tiled by four
positions, values are not. `kvWord_inj` shows that valid coordinates never share a word, so a
store touches the words of one layer and one position only, and `KvCoord.Live` names the words
that an evaluation at a position may rely on.

`kvWord_digits` reads the coordinate back from the word as mixed-radix digits, which is why
`KvCoord.word_inj` needs no case analysis. `storeKv_self` and `storeKv_of_ne` are the store and its
frame.
-/

namespace Promptboot

def kvWord (layer kind position head component : Nat) : Nat :=
  let base := layer * kvLayerWords
  if kind = 0 then
    base + (((head * (contextLimit / kvTile) + position / kvTile) * headWords + component) * kvTile +
      position % kvTile)
  else
    base + kvValueWords + ((head * contextLimit + position) * headWords + component)

/-- Coordinates of one word of the cache; `kind` is 0 for keys and 1 for values. -/
@[ext]
structure KvCoord where
  layer : Fin layers
  kind : Fin 2
  position : Fin contextLimit
  head : Fin kvHeads
  component : Fin headWords
  deriving DecidableEq, Repr

def KvCoord.word (c : KvCoord) : Nat :=
  kvWord c.layer c.kind c.position c.head c.component

/-- The digits of a word number, from the most significant one down. -/
lemma kvWord_digits {l k p e m l' k' p' e' m' : Nat} (hk : k < 2) (hk' : k' < 2)
    (hp : p < 32768) (hp' : p' < 32768) (he : e < 2) (he' : e' < 2) (hm : m < 64) (hm' : m' < 64)
    (h : kvWord l k p e m = kvWord l' k' p' e' m') :
    l = l' ∧ k = k' ∧ p = p' ∧ e = e' ∧ m = m' := by
  simp only [kvWord, kvHeads, headWords, contextLimit, kvTile, kvLayerWords, kvValueWords] at h
  split at h <;> split at h
  · have el : l = l' := by omega
    have ee : e = e' := by omega
    have et : p / 4 = p' / 4 := by omega
    omega
  · have el : l = l' := by omega
    omega
  · have el : l = l' := by omega
    omega
  · have el : l = l' := by omega
    have ee : e = e' := by omega
    have ep : p = p' := by omega
    omega

/-- Valid coordinates never share a word. -/
lemma KvCoord.word_inj {c d : KvCoord} (h : c.word = d.word) : c = d := by
  obtain ⟨el, ek, ep, ee, em⟩ := kvWord_digits c.kind.isLt d.kind.isLt c.position.isLt
    d.position.isLt c.head.isLt d.head.isLt c.component.isLt d.component.isLt h
  exact KvCoord.ext (Fin.ext el) (Fin.ext ek) (Fin.ext ep) (Fin.ext ee) (Fin.ext em)

/-- Every valid coordinate lies in the arena. -/
lemma KvCoord.word_lt (c : KvCoord) : c.word < kvBytes / 4 := by
  have hl : c.layer.val < 24 := c.layer.isLt
  have hp : c.position.val < 32768 := c.position.isLt
  have he : c.head.val < 2 := c.head.isLt
  have hm : c.component.val < 64 := c.component.isLt
  simp only [word, kvWord, kvHeads, headWords, contextLimit, kvTile, kvLayerWords, kvValueWords,
    kvBytes]
  split <;> omega

/-- The range checks of `write_kv`. -/
def writeKvError (layer position : Nat) : Option InferenceError :=
  if layers ≤ layer ∨ contextLimit ≤ position then
    some ⟨.arithmetic, .kv, layer, position, noTensor, layer, kvBytes / 4, .usize, 0⟩
  else
    let finalKey := kvWord layer 0 position (kvHeads - 1) (headWords - 1)
    let finalValue := kvWord layer 1 position (kvHeads - 1) (headWords - 1)
    if kvBytes / 4 ≤ finalKey ∨ kvBytes / 4 ≤ finalValue then
      some ⟨.capacity, .kv, layer, position, noTensor, max finalKey finalValue + 1, kvBytes / 4,
        .bytes, 0⟩
    else
      none

/-- The indices of the copy loops of `write_kv`, head by head. -/
def kvLoop : List (Fin kvHeads × Fin headWords) :=
  (List.finRange kvHeads).flatMap fun head => (List.finRange headWords).map fun c => (head, c)

/-- The loop visits every component of every head. -/
lemma mem_kvLoop (i : Fin kvHeads × Fin headWords) : i ∈ kvLoop := by
  obtain ⟨head, component⟩ := i
  simp [kvLoop]

/-- The word of a 128-word key or value row that belongs to a head's component. -/
def kvSource (row : Vector Word kvRowWords) (i : Fin kvHeads × Fin headWords) : Word :=
  row.get ⟨i.1.val * headWords + i.2.val, by
    have head : i.1.val < 2 := i.1.isLt
    have component : i.2.val < 64 := i.2.isLt
    unfold headWords kvRowWords
    omega⟩

/-- One copy loop of `write_kv`, over the keys or the values. -/
def storeRow (kv : Nat → Word) (layer kind position : Nat) (row : Vector Word kvRowWords) :
    Nat → Word :=
  Memory.writeAll kv kvLoop (fun i => kvWord layer kind position i.1 i.2) (kvSource row)

/-- The stores of `write_kv`: keys first, then values. -/
def storeKv (kv : Nat → Word) (layer position : Nat) (k v : Vector Word kvRowWords) : Nat → Word :=
  storeRow (storeRow kv layer 0 position k) layer 1 position v

/-- The key and value words of a layer at a position. -/
def kvPair (kv : Nat → Word) (layer position : Nat) : KvPair where
  key := Vector.ofFn fun i => kv (kvWord layer 0 position (i / headWords) (i % headWords))
  value := Vector.ofFn fun i => kv (kvWord layer 1 position (i / headWords) (i % headWords))

/-- What attention at `position` may read of a layer. -/
def liveKv (kv : Nat → Word) (layer position : Nat) : List KvPair :=
  (List.range (position + 1)).map (kvPair kv layer)

/-- The words of one position, over all layers: a KV row. -/
def kvRow (kv : Nat → Word) (position : Nat) :
    Fin layers → Fin 2 → Fin kvHeads → Fin headWords → Word :=
  fun layer kind head component => kv (kvWord layer kind position head component)

/-- Inside the layers and the context the range checks pass. -/
lemma writeKvError_eq_none {layer position : Nat} (hl : layer < layers)
    (hp : position < contextLimit) : writeKvError layer position = none := by
  have lim : position < 32768 := hp
  have lay : layer < 24 := hl
  unfold writeKvError
  rw [if_neg (by omega)]
  apply if_neg
  simp only [kvWord, kvHeads, headWords, contextLimit, kvTile, kvLayerWords, kvValueWords, kvBytes,
    if_true, Nat.one_ne_zero, if_false]
  omega

section Store

variable {kv : Nat → Word} {layer position : Nat}

/-- A copy loop leaves alone every word outside its layer, kind and position. -/
lemma storeRow_of_ne {kind : Nat} {row : Vector Word kvRowWords} {c : KvCoord} (hk : kind < 2)
    (hp : position < contextLimit)
    (hc : c.layer.val ≠ layer ∨ c.kind.val ≠ kind ∨ c.position.val ≠ position) :
    storeRow kv layer kind position row c.word = kv c.word := by
  apply Memory.writeAll_of_ne
  intro i _ e
  obtain ⟨el, ek, ep, _, _⟩ := kvWord_digits hk c.kind.isLt hp c.position.isLt i.1.isLt
    c.head.isLt i.2.isLt c.component.isLt e
  omega

/-- A copy loop stores the row's words at its layer, kind and position. -/
lemma storeRow_self {kind : Nat} {row : Vector Word kvRowWords} {c : KvCoord}
    (el : c.layer.val = layer) (ek : c.kind.val = kind) (ep : c.position.val = position) :
    storeRow kv layer kind position row c.word = kvSource row (c.head, c.component) := by
  subst el ek ep
  apply Memory.writeAll_of_mem ⟨(c.head, c.component), mem_kvLoop _, rfl⟩
  intro i _ e
  obtain ⟨_, _, _, eh, em⟩ := kvWord_digits c.kind.isLt c.kind.isLt c.position.isLt
    c.position.isLt i.1.isLt c.head.isLt i.2.isLt c.component.isLt e
  rw [show i = (c.head, c.component) from Prod.ext (Fin.ext eh) (Fin.ext em)]

/-- A store leaves alone every word of another layer or another position. -/
lemma storeKv_of_ne {k v : Vector Word kvRowWords} {c : KvCoord} (hp : position < contextLimit)
    (hc : c.layer.val ≠ layer ∨ c.position.val ≠ position) :
    storeKv kv layer position k v c.word = kv c.word := by
  unfold storeKv
  rw [storeRow_of_ne (by omega) hp (by omega), storeRow_of_ne (by omega) hp (by omega)]

/-- A store decides the words of its layer and position, whatever the cache held. -/
lemma storeKv_self {kv' : Nat → Word} {k v : Vector Word kvRowWords} {c : KvCoord}
    (hp : position < contextLimit) (el : c.layer.val = layer) (ep : c.position.val = position) :
    storeKv kv layer position k v c.word = storeKv kv' layer position k v c.word := by
  unfold storeKv
  by_cases ek : c.kind.val = 0
  · have keys : ∀ m row, storeRow m layer 1 position row c.word = m c.word := fun _ _ =>
      storeRow_of_ne (by omega) hp (.inr (.inl (by omega)))
    rw [keys, keys, storeRow_self el ek ep, storeRow_self el ek ep]
  · have ek : c.kind.val = 1 := by omega
    rw [storeRow_self el ek ep, storeRow_self el ek ep]

end Store

end Promptboot
