import Promptboot.Lib.BytePair
import Promptboot.Lib.Fallible
import Promptboot.Lib.Words
import Promptboot.Model.View
import Mathlib.Order.Nat

/-!
# Byte-pair encoding in scratch memory

`bpe` keeps a fragment's tokens in the segment area of the scratch memory, merges there in place
until no pair has a rule, and appends what is left to the staged tokens. Whatever the rules, it
writes nothing outside the two areas; with distinct ranks, what it appends is the encoding.

`considerPair` and `mergeBest` are the two loops of one merge, `step_mergeBest` says that together
they are a step of the library's relation, and `encodes_mergeLoop` is the induction on the number of
tokens. The frames are `mergeLoop_sameOutside` and `append_sameOutside`. The headline `bpe_encodes`
has the error for an area that is full as well.
-/

namespace Promptboot
open Memory

def stagedTokens : Nat := 0
def currentSegment : Nat := 2396
def stagedRendered : Nat := 4444
def Tokenizer.scratchBytes : Nat := 5120
def Tokenizer.maxTokens : Nat := 599
def maxSegment : Nat := 512

/-- What the tokenizer reads off its index: the token of a byte and the result and the rank of a
pair. -/
structure MergeIndex where
  byteToken : UInt8 → UInt32
  lookup : UInt32 → UInt32 → Option (UInt32 × UInt32)

/-- The scratch memory with the number of staged tokens, which never exceeds their area. -/
structure Staging where
  scratch : Nat → UInt8
  count : Nat
  count_le : count ≤ Tokenizer.maxTokens

namespace Staging

def tokens (s : Staging) : List UInt32 := words s.scratch stagedTokens s.count

end Staging

/-- `best_rank`, `best_at` and `best_result`. -/
structure Best where
  rank : UInt32
  position : Nat
  result : UInt32

def Best.none : Best := ⟨0xffffffff, 0, 0⟩

def tokenAt (scratch : Nat → UInt8) (position : Nat) : UInt32 :=
  u32At scratch (currentSegment + position * 4)

namespace MergeIndex

variable (index : MergeIndex)

/-- The loop that stages the byte tokens of a fragment. -/
def loadSegment (scratch : Nat → UInt8) (text : List UInt8) : Nat → UInt8 :=
  putWords scratch currentSegment (text.map index.byteToken)

/-- A turn of the scan for the lowest rank. -/
def considerPair (scratch : Nat → UInt8) (best : Best) (position : Nat) : Best :=
  match index.lookup (tokenAt scratch position) (tokenAt scratch (position + 1)) with
  | some (result, rank) => if rank < best.rank then ⟨rank, position, result⟩ else best
  | none => best

def bestPair (scratch : Nat → UInt8) (count : Nat) : Best :=
  if 2 ≤ count then (List.range (count - 1)).foldl (index.considerPair scratch) Best.none
  else Best.none

/-- The pair at the best position becomes one token, those behind it move down. -/
def mergeBest (scratch : Nat → UInt8) (best : Best) (count : Nat) : Nat → UInt8 :=
  moveDown (putU32 scratch (currentSegment + best.position * 4) best.result) currentSegment
    (best.position + 1) count

/-- Where there is a best pair there are two tokens. -/
lemma two_le_of_bestPair {index : MergeIndex} {scratch : Nat → UInt8} {count : Nat}
    (h : (index.bestPair scratch count).rank ≠ 0xffffffff) : 2 ≤ count := by
  by_contra short
  rw [bestPair, if_neg short] at h
  exact h rfl

/-- The merge loop: the scratch memory and the number of tokens left in it. -/
def mergeLoop (scratch : Nat → UInt8) (count : Nat) : (Nat → UInt8) × Nat :=
  if h : (index.bestPair scratch count).rank = 0xffffffff then (scratch, count)
  else mergeLoop (mergeBest scratch (index.bestPair scratch count) count) (count - 1)
termination_by count
decreasing_by
  have := two_le_of_bestPair h
  omega

def segmentError (text : List UInt8) : ModelError :=
  ⟨.state, .scratch, 0, 0, maxSegment, text.length, .stateField, 0⟩

def tokenError (count : Nat) : ModelError :=
  ⟨.state, .tokenOutput, 0, 0, Tokenizer.maxTokens, count, .stateField, 0⟩

def bpe (text : List UInt8) : Fallible Staging ModelError PUnit := fun s =>
  if maxSegment < text.length then
    (.error (segmentError text), s)
  else
    let (scratch, count) := index.mergeLoop (index.loadSegment s.scratch text) text.length
    if fits : s.count + count ≤ Tokenizer.maxTokens then
      (.ok ⟨⟩, ⟨copyWords scratch currentSegment (stagedTokens + s.count * 4) count,
        s.count + count, fits⟩)
    else
      (.error (tokenError (s.count + count)), { s with scratch })

variable {index} {scratch : Nat → UInt8} {count : Nat}

/-- A merge changes nothing outside its segment. -/
lemma mergeBest_sameOutside {best : Best} (h : best.position < count) :
    SameOutside currentSegment (currentSegment + count * 4) scratch
      (mergeBest scratch best count) := by
  refine SameOutside.trans ?_ (moveDown_sameOutside _ _ _ _)
  exact .putU32 (by omega) (by omega)

/-- In the segment, the pair at the best position is merged. -/
lemma words_mergeBest {best : Best} (h : best.position + 1 < count) :
    words (mergeBest scratch best count) currentSegment (count - 1) =
      BytePair.mergeAt (words scratch currentSegment count) best.position best.result := by
  rw [mergeBest, words_moveDown h, words_putU32, BytePair.mergeAt]

/-- The best pair is within the segment. -/
lemma bestPair_position_lt (h : 2 ≤ count) :
    (index.bestPair scratch count).position + 1 < count := by
  have fold (n : Nat) :
      ((List.range n).foldl (index.considerPair scratch) Best.none).position ≤ n - 1 := by
    induction n with
    | zero => exact Nat.le_refl 0
    | succ n ih =>
      rw [List.range_succ, List.foldl_append, List.foldl_cons, List.foldl_nil, considerPair]
      split
      · split_ifs
        · exact Nat.le_refl n
        · omega
      · omega
  have bound := fold (count - 1)
  rw [bestPair, if_pos h]
  omega

/-- Without a pair the loop ends. -/
lemma mergeLoop_done (h : (index.bestPair scratch count).rank = 0xffffffff) :
    index.mergeLoop scratch count = (scratch, count) := by
  rw [mergeLoop, dif_pos h]

/-- With a pair the loop merges it and goes on. -/
lemma mergeLoop_more (h : (index.bestPair scratch count).rank ≠ 0xffffffff) :
    index.mergeLoop scratch count =
      index.mergeLoop (mergeBest scratch (index.bestPair scratch count) count) (count - 1) := by
  rw [mergeLoop, dif_neg h]

/-- The merge loop shrinks a fragment and stays inside the words it was given. -/
lemma mergeLoop_sameOutside (index : MergeIndex) (scratch : Nat → UInt8) (count : Nat) :
    (index.mergeLoop scratch count).2 ≤ count ∧
      SameOutside currentSegment (currentSegment + count * 4) scratch
        (index.mergeLoop scratch count).1 := by
  induction scratch, count using mergeLoop.induct index with
  | case1 scratch count done =>
    rw [mergeLoop_done done]
    exact ⟨Nat.le_refl _, .refl⟩
  | case2 scratch count more ih =>
    have two := two_le_of_bestPair more
    rw [mergeLoop_more more]
    have position : (index.bestPair scratch count).position + 1 < count :=
      bestPair_position_lt two
    have merged : SameOutside currentSegment (currentSegment + count * 4) scratch
        (mergeBest scratch (index.bestPair scratch count) count) :=
      mergeBest_sameOutside (Nat.lt_of_succ_lt position)
    refine ⟨by omega, merged.trans (ih.2.mono (Nat.le_refl _) ?_)⟩
    omega

/-- The scan reads nothing but the tokens of the segment. -/
lemma bestPair_congr {other : Nat → UInt8}
    (h : words other currentSegment count = words scratch currentSegment count) :
    index.bestPair other count = index.bestPair scratch count := by
  have token (i : Nat) (hi : i < count) : tokenAt other i = tokenAt scratch i := by
    have same := congrArg (·[i]?) h
    simp only [getElem?_words, if_pos hi, Option.some_inj] at same
    exact same
  rw [bestPair, bestPair]
  split_ifs with two
  · refine List.foldl_ext _ _ _ fun best i hi => ?_
    have bound := List.mem_range.mp hi
    rw [considerPair, considerPair, token i (by omega), token (i + 1) (by omega)]
  · rfl

/-- What the merge loop leaves depends on the tokens it starts from alone. -/
lemma mergeLoop_congr (index : MergeIndex) (scratch other : Nat → UInt8) (count : Nat)
    (h : words other currentSegment count = words scratch currentSegment count) :
    (index.mergeLoop other count).2 = (index.mergeLoop scratch count).2 ∧
      words (index.mergeLoop other count).1 currentSegment (index.mergeLoop other count).2 =
        words (index.mergeLoop scratch count).1 currentSegment
          (index.mergeLoop scratch count).2 := by
  induction scratch, count using mergeLoop.induct index generalizing other with
  | case1 scratch count done =>
    have done' := done
    rw [← bestPair_congr h] at done'
    rw [mergeLoop_done done, mergeLoop_done done']
    exact ⟨rfl, h⟩
  | case2 scratch count more ih =>
    have more' := more
    rw [← bestPair_congr h] at more'
    have position : (index.bestPair scratch count).position + 1 < count :=
      bestPair_position_lt (two_le_of_bestPair more)
    rw [mergeLoop_more more, mergeLoop_more more', bestPair_congr h]
    refine ih _ ?_
    rw [words_mergeBest position, words_mergeBest position, h]

/-- The segment starts with the tokens of the bytes. -/
lemma words_loadSegment (index : MergeIndex) (scratch : Nat → UInt8) (text : List UInt8) :
    words (index.loadSegment scratch text) currentSegment text.length =
      text.map index.byteToken := by
  have stored := words_putWords scratch currentSegment (text.map index.byteToken)
  rwa [List.length_map] at stored

/-- The tokens of a fragment. -/
def encode (text : List UInt8) : List UInt32 :=
  let (scratch, count) := index.mergeLoop (index.loadSegment (fun _ => 0) text) text.length
  words scratch currentSegment count

/-- In any scratch memory, staging and merging a fragment gives its tokens. -/
lemma words_mergeLoop (index : MergeIndex) (scratch : Nat → UInt8) (text : List UInt8) :
    (index.mergeLoop (index.loadSegment scratch text) text.length).2 = (index.encode text).length ∧
      words (index.mergeLoop (index.loadSegment scratch text) text.length).1 currentSegment
        (index.encode text).length = index.encode text := by
  obtain ⟨count, merged⟩ := mergeLoop_congr index (index.loadSegment (fun _ => 0) text)
    (index.loadSegment scratch text) text.length
    (by rw [words_loadSegment, words_loadSegment])
  have length : (index.mergeLoop (index.loadSegment scratch text) text.length).2 =
      (index.encode text).length := by
    rw [count, encode, length_words]
  rw [← length]
  exact ⟨rfl, merged⟩

/-- A fragment yields at most as many tokens as it has bytes. -/
lemma length_encode_le (index : MergeIndex) (text : List UInt8) :
    (index.encode text).length ≤ text.length := by
  rw [← (words_mergeLoop index (fun _ => 0) text).1]
  exact (mergeLoop_sameOutside index _ _).1

/-- Staging and merging a fragment touches the segment area only. -/
lemma mergeSegment_sameOutside (index : MergeIndex) (scratch : Nat → UInt8) {text : List UInt8}
    (h : text.length ≤ maxSegment) :
    SameOutside currentSegment (currentSegment + maxSegment * 4) scratch
      (index.mergeLoop (index.loadSegment scratch text) text.length).1 := by
  have load := putWords_sameOutside scratch currentSegment (text.map index.byteToken)
  rw [List.length_map] at load
  exact (load.mono (Nat.le_refl _) (by omega)).trans
    ((mergeLoop_sameOutside index _ _).2.mono (Nat.le_refl _) (by omega))

/-- The tokens staged before a fragment lie below the segment area. -/
lemma tokens_kept (s : Staging) {scratch : Nat → UInt8}
    (h : SameOutside currentSegment (currentSegment + maxSegment * 4) s.scratch scratch) :
    words scratch stagedTokens s.count = s.tokens := by
  have bound := s.count_le
  refine h.words (.inl ?_)
  simp only [stagedTokens, currentSegment, Tokenizer.maxTokens] at *
  omega

/-- Tokens are appended in the token area. -/
lemma append_sameOutside {s : Staging} {count : Nat} (scratch : Nat → UInt8)
    (fits : s.count + count ≤ Tokenizer.maxTokens) :
    SameOutside stagedTokens currentSegment scratch
      (copyWords scratch currentSegment (stagedTokens + s.count * 4) count) := by
  refine (copyWords_sameOutside _ _ _ _).mono (Nat.le_add_right _ _) ?_
  simp only [stagedTokens, currentSegment, Tokenizer.maxTokens] at *
  omega

/-- A fragment that fits is appended, and only the token and the segment area change. -/
lemma bpe_of_fits {index : MergeIndex} {s : Staging} {text : List UInt8}
    (short : text.length ≤ maxSegment)
    (fits : s.count + (index.encode text).length ≤ Tokenizer.maxTokens) :
    ∃ t, index.bpe text s = (.ok ⟨⟩, t) ∧ t.tokens = s.tokens ++ index.encode text ∧
      t.count = s.count + (index.encode text).length ∧
      SameOutside stagedTokens stagedRendered s.scratch t.scratch := by
  have frame := mergeSegment_sameOutside index s.scratch short
  obtain ⟨length, merged⟩ := words_mergeLoop index s.scratch text
  rcases loop : index.mergeLoop (index.loadSegment s.scratch text) text.length
    with ⟨scratch, count⟩
  rw [loop] at frame length merged
  dsimp only at frame length merged
  subst length
  have appended := append_sameOutside scratch fits
  have apart : stagedTokens + s.count * 4 + (index.encode text).length * 4 ≤ currentSegment := by
    simp only [stagedTokens, currentSegment, Tokenizer.maxTokens] at *
    omega
  refine ⟨⟨copyWords scratch currentSegment (stagedTokens + s.count * 4)
    (index.encode text).length, _, fits⟩, ?_, ?_, rfl, ?_⟩
  · simp only [bpe, if_neg (Nat.not_lt.mpr short), loop, dif_pos fits]
  · rw [Staging.tokens, words_add, words_copyWords (.inr apart), merged,
      (copyWords_sameOutside _ _ _ _).words (.inl (Nat.le_refl _)), tokens_kept s frame]
  · exact (frame.mono (Nat.zero_le _) (Nat.le_refl _)).trans
      (appended.mono (Nat.le_refl _) (by decide))

/-- A fragment that does not fit is an error, and the staged tokens stay. -/
lemma bpe_of_full {index : MergeIndex} {s : Staging} {text : List UInt8}
    (short : text.length ≤ maxSegment)
    (full : Tokenizer.maxTokens < s.count + (index.encode text).length) :
    ∃ t, index.bpe text s = (.error (tokenError (s.count + (index.encode text).length)), t) ∧
      t.tokens = s.tokens ∧ SameOutside stagedTokens stagedRendered s.scratch t.scratch := by
  have frame := mergeSegment_sameOutside index s.scratch short
  obtain ⟨length, -⟩ := words_mergeLoop index s.scratch text
  rcases loop : index.mergeLoop (index.loadSegment s.scratch text) text.length
    with ⟨scratch, count⟩
  rw [loop] at frame length
  dsimp only at frame length
  subst length
  refine ⟨{ s with scratch }, ?_, tokens_kept s frame,
    frame.mono (Nat.zero_le _) (Nat.le_refl _)⟩
  simp only [bpe, if_neg (Nat.not_lt.mpr short), loop, dif_neg (Nat.not_le.mpr full)]

end MergeIndex

/-- A merge map: the ranks are distinct and below `u32::MAX`. -/
structure MergeMap where
  rule : UInt32 → UInt32 → Option (UInt32 × UInt32)
  rank_lt : ∀ {l r a k}, rule l r = some (a, k) → k < 0xffffffff
  rank_injective : ∀ {l r a l' r' a' k}, rule l r = some (a, k) → rule l' r' = some (a', k) →
    l = l' ∧ r = r'

namespace MergeMap
open MergeIndex BytePair

def index (M : MergeMap) (byteToken : UInt8 → UInt32) : MergeIndex := ⟨byteToken, M.rule⟩

/-- The index of a merge map looks its rules up. -/
@[simp] lemma index_lookup (M : MergeMap) (byteToken : UInt8 → UInt32) :
    (M.index byteToken).lookup = M.rule := rfl

/-- The map as rules, ranks as numbers. -/
def rules (M : MergeMap) : Rules UInt32 Nat where
  rule l r := (M.rule l r).map fun (a, k) => (a, k.toNat)
  rank_injective := by
    intro l r a l' r' a' k h h'
    simp only [Option.map_eq_some_iff, Prod.mk.injEq, Prod.exists] at h h'
    obtain ⟨_, _, rule, _, rfl⟩ := h
    obtain ⟨_, _, rule', _, rank⟩ := h'
    rw [UInt32.toNat_inj.mp rank] at rule'
    exact M.rank_injective rule rule'

variable {M : MergeMap} {byteToken : UInt8 → UInt32} {scratch : Nat → UInt8} {n count : Nat}

/-- A rule of the map, its rank as a number. -/
lemma rules_eq_some {l r a : UInt32} {k : Nat} :
    M.rules.rule l r = some (a, k) ↔ ∃ rank, M.rule l r = some (a, rank) ∧ rank.toNat = k := by
  simp only [rules, Option.map_eq_some_iff, Prod.mk.injEq, Prod.exists]
  constructor
  · rintro ⟨_, rank, rule, rfl, eq⟩
    exact ⟨rank, rule, eq⟩
  · rintro ⟨rank, rule, eq⟩
    exact ⟨a, rank, rule, rfl, eq⟩

/-- The map has no rule where the index has none. -/
lemma rules_eq_none {l r : UInt32} : M.rules.rule l r = none ↔ M.rule l r = none :=
  Option.map_eq_none_iff

/-- What a scan over the first `n` pairs has found: no rule, or the first of lowest rank. -/
def Found (M : MergeMap) (scratch : Nat → UInt8) (n : Nat) (best : Best) : Prop :=
  (best.rank = 0xffffffff ∧
    ∀ j < n, M.rule (tokenAt scratch j) (tokenAt scratch (j + 1)) = none) ∨
  (best.position < n ∧
    M.rule (tokenAt scratch best.position) (tokenAt scratch (best.position + 1)) =
      some (best.result, best.rank) ∧
    (∀ j < n, ∀ a k, M.rule (tokenAt scratch j) (tokenAt scratch (j + 1)) = some (a, k) →
      best.rank ≤ k) ∧
    ∀ j < best.position, ∀ a k,
      M.rule (tokenAt scratch j) (tokenAt scratch (j + 1)) = some (a, k) → best.rank < k)

/-- A pair that is considered is the best if it is better. -/
lemma Found.considerPair {best : Best} (h : Found M scratch n best) :
    Found M scratch (n + 1) ((M.index byteToken).considerPair scratch best n) := by
  rw [MergeIndex.considerPair, index_lookup]
  rcases hn : M.rule (tokenAt scratch n) (tokenAt scratch (n + 1)) with _ | ⟨a, k⟩
  -- no rule here: what was found stays
  · dsimp only
    rcases h with ⟨rank, free⟩ | ⟨lt, rule, low, left⟩
    · refine .inl ⟨rank, fun j hj => ?_⟩
      rcases Nat.lt_succ_iff_lt_or_eq.mp hj with before | rfl
      · exact free j before
      · exact hn
    · refine .inr ⟨by omega, rule, fun j hj a k hj' => ?_, left⟩
      rcases Nat.lt_succ_iff_lt_or_eq.mp hj with before | rfl
      · exact low j before a k hj'
      · rw [hn] at hj'
        cases hj'
  · dsimp only
    split_ifs with better
    -- a lower rank: every earlier one is above it
    · have above : ∀ j < n, ∀ a' k', M.rule (tokenAt scratch j) (tokenAt scratch (j + 1)) =
          some (a', k') → k < k' := by
        intro j hj a' k' hj'
        rcases h with ⟨_, free⟩ | ⟨_, _, low, _⟩
        · rw [free j hj] at hj'
          cases hj'
        · exact UInt32.lt_of_lt_of_le better (low j hj a' k' hj')
      refine .inr ⟨Nat.lt_succ_self n, hn, fun j hj a' k' hj' => ?_, above⟩
      rcases Nat.lt_succ_iff_lt_or_eq.mp hj with before | rfl
      · exact UInt32.le_of_lt (above j before a' k' hj')
      · rw [hn] at hj'
        cases hj'
        exact UInt32.le_refl _
    · rcases h with ⟨rank, _⟩ | ⟨lt, rule, low, left⟩
      · rw [rank] at better
        exact absurd (M.rank_lt hn) better
      · refine .inr ⟨by omega, rule, fun j hj a' k' hj' => ?_, left⟩
        rcases Nat.lt_succ_iff_lt_or_eq.mp hj with before | rfl
        · exact low j before a' k' hj'
        · rw [hn] at hj'
          cases hj'
          exact UInt32.not_lt.mp better

/-- The best pair has the lowest rank, and is the first of it. -/
lemma found_bestPair (M : MergeMap) (byteToken : UInt8 → UInt32) (scratch : Nat → UInt8)
    (count : Nat) : Found M scratch (count - 1) ((M.index byteToken).bestPair scratch count) := by
  have fold (n : Nat) : Found M scratch n
      ((List.range n).foldl ((M.index byteToken).considerPair scratch) Best.none) := by
    induction n with
    | zero => exact .inl ⟨rfl, nofun⟩
    | succ n ih =>
      rw [List.range_succ, List.foldl_append]
      exact ih.considerPair
  rw [bestPair]
  split_ifs with two
  · exact fold (count - 1)
  · have zero : count - 1 = 0 := by omega
    rw [zero]
    exact fold 0

/-- A pair of the segment, as the code reads it. -/
lemma pairAt_words {i : Nat} {l r : UInt32} :
    PairAt (words scratch currentSegment count) i l r ↔
      i < count - 1 ∧ tokenAt scratch i = l ∧ tokenAt scratch (i + 1) = r := by
  rw [PairAt, getElem?_words, getElem?_words]
  by_cases inside : i < count - 1
  · rw [if_pos (by omega), if_pos (by omega), Option.some_inj, Option.some_inj]
    exact (and_iff_right inside).symm
  · rw [if_neg (by omega : ¬i + 1 < count)]
    simp [inside]

/-- A turn of the merge loop is a step of the reference procedure. -/
lemma step_mergeBest (more : ((M.index byteToken).bestPair scratch count).rank ≠ 0xffffffff) :
    Step M.rules (words scratch currentSegment count)
      (words (mergeBest scratch ((M.index byteToken).bestPair scratch count) count) currentSegment
        (count - 1)) := by
  rcases found_bestPair M byteToken scratch count
    with ⟨rank, _⟩ | ⟨lt, rule, low, left⟩
  · exact absurd rank more
  generalize (M.index byteToken).bestPair scratch count = best at *
  rw [words_mergeBest (by omega)]
  refine .merge (pairAt_words.mpr ⟨lt, rfl, rfl⟩) (rules_eq_some.mpr ⟨_, rule, rfl⟩) ?_ ?_
  · intro j l r a k pair rule'
    obtain ⟨hj, rfl, rfl⟩ := pairAt_words.mp pair
    obtain ⟨rank, given, rfl⟩ := rules_eq_some.mp rule'
    exact UInt32.le_iff_toNat_le.mp (low j hj a rank given)
  · intro j hj pair
    obtain ⟨_, sameLeft, sameRight⟩ := pairAt_words.mp pair
    rw [← sameLeft, ← sameRight] at rule
    exact UInt32.lt_irrefl _ (left j hj _ _ rule)

/-- The merge loop computes the encoding. -/
lemma encodes_mergeLoop (M : MergeMap) (byteToken : UInt8 → UInt32) (scratch : Nat → UInt8)
    (count : Nat) :
    Encodes M.rules (words scratch currentSegment count)
      (words ((M.index byteToken).mergeLoop scratch count).1 currentSegment
        ((M.index byteToken).mergeLoop scratch count).2) := by
  induction scratch, count using mergeLoop.induct (M.index byteToken) with
  | case1 scratch count done =>
    rw [mergeLoop_done done]
    refine ⟨.refl, fun i l r pair => ?_⟩
    obtain ⟨hi, rfl, rfl⟩ := pairAt_words.mp pair
    rw [rules_eq_none]
    rcases found_bestPair M byteToken scratch count
      with ⟨_, free⟩ | ⟨_, rule, _, _⟩
    · exact free i hi
    · rw [done] at rule
      exact absurd (M.rank_lt rule) (UInt32.lt_irrefl _)
  | case2 scratch count more ih =>
    rw [mergeLoop_more more]
    exact ⟨.head (step_mergeBest more) ih.1, ih.2⟩

end MergeMap

open MergeIndex BytePair

/-- `bpe` appends the encoding of a fragment, which exists and is the only one; if it does not fit,
it stops with an error and leaves the staged tokens as they were. -/
theorem bpe_encodes (M : MergeMap) (byteToken : UInt8 → UInt32) (s : Staging) (text : List UInt8)
    (short : text.length ≤ maxSegment) :
    ∃ result, Encodes M.rules (text.map byteToken) result ∧
      (∀ other, Encodes M.rules (text.map byteToken) other → other = result) ∧
      (s.count + result.length ≤ Tokenizer.maxTokens →
        ∃ t, (M.index byteToken).bpe text s = (.ok ⟨⟩, t) ∧ t.tokens = s.tokens ++ result) ∧
      (Tokenizer.maxTokens < s.count + result.length →
        ∃ t, (M.index byteToken).bpe text s =
            (.error (MergeIndex.tokenError (s.count + result.length)), t) ∧
          t.tokens = s.tokens) := by
  have encodes := M.encodes_mergeLoop byteToken
    ((M.index byteToken).loadSegment (fun _ => 0) text) text.length
  rw [words_loadSegment] at encodes
  refine ⟨(M.index byteToken).encode text, encodes, fun _ other => other.unique encodes, ?_, ?_⟩
  · intro fits
    obtain ⟨t, run, tokens, -⟩ := bpe_of_fits short fits
    exact ⟨t, run, tokens⟩
  · intro full
    obtain ⟨t, run, tokens, -⟩ := bpe_of_full short full
    exact ⟨t, run, tokens⟩

/-- One rule: `a` and `b` make 256. -/
def oneMerge : MergeMap where
  rule l r := if l = 97 ∧ r = 98 then some (256, 0) else none
  rank_lt := by
    intro l r a k h
    split at h <;> cases h
    decide
  rank_injective := by
    intro l r a l' r' a' k h h'
    split at h <;> split at h' <;> simp_all

/-- `aba`, in front of no other token. -/
theorem bpe_encodes_oneMerge :
    ∃ t, (oneMerge.index (·.toUInt32)).bpe [97, 98, 97] ⟨fun _ => 0, 0, Nat.zero_le _⟩ =
      (.ok ⟨⟩, t) ∧ t.tokens = [256, 97] := by
  obtain ⟨result, -, unique, fits, -⟩ :=
    bpe_encodes oneMerge (·.toUInt32) ⟨fun _ => 0, 0, Nat.zero_le _⟩ [97, 98, 97] (by decide)
  have step : Step oneMerge.rules [97, 98, 97] [256, 97] :=
    .merge (i := 0) (l := 97) (r := 98) (a := 256) (k := 0) ⟨rfl, rfl⟩ rfl
      (fun _ _ => Nat.zero_le _) nofun
  have final : Irreducible oneMerge.rules [256, 97] := by
    rintro (_ | i) l r ⟨left, right⟩
    · cases left
      cases right
      rfl
    · cases right
  obtain rfl := unique [256, 97] ⟨.single step, final⟩
  obtain ⟨t, run, tokens⟩ := fits (by decide)
  exact ⟨t, run, tokens⟩

end Promptboot
