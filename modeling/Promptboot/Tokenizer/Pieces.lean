import Promptboot.Tokenizer.Bpe
import Promptboot.Tokenizer.Pretoken

/-!
# From text to staged tokens

`ordinary` cuts a text at the user-defined tokens and the rest into fragments, each of which `bpe`
encodes. The pieces of a text say what it hands on, and `Appends` what a computation does to the
staged tokens as long as they fit: it appends to them, and leaves the rendered bytes alone.

`ordinary_eq` is the first half: what `ordinary` does is to run over `pieces`. `pieces_bounds` says
how long they can be. `Appends` has a rule for each construct, and `Appends.ordinary` is what the
rendering uses.
-/

namespace Promptboot
open Memory

def byteString (s : String) : List UInt8 := s.toList.map fun c => UInt8.ofNat c.toNat

def imStart : UInt32 := 151644
def imEnd : UInt32 := 151645
def toolCall : List UInt8 := byteString "<tool_call>"
def toolEnd : List UInt8 := byteString "</tool_call>"

/-- Where a user-defined token starts, the token, and its length in bytes; the token is 0 and the
position the end of the text if there is none. -/
structure UserDefined where
  position : Nat
  token : UInt32
  length : Nat
  deriving DecidableEq

def nextUserDefined : List UInt8 → UserDefined
  | [] => ⟨0, 0, 0⟩
  | byte :: text =>
    if toolCall.isPrefixOf (byte :: text) then ⟨0, 151657, toolCall.length⟩
    else if toolEnd.isPrefixOf (byte :: text) then ⟨0, 151658, toolEnd.length⟩
    else
      let next := nextUserDefined text
      { next with position := next.position + 1 }

/-- A beginning is not longer than the text. -/
lemma isPrefixOf_length {p text : List UInt8} (h : p.isPrefixOf text = true) :
    p.length ≤ text.length :=
  (List.isPrefixOf_iff_prefix.mp h).length_le

/-- Without a user-defined token the search ends at the end of the text; one it finds lies in the
text and is not empty. -/
lemma nextUserDefined_bounds (text : List UInt8) :
    ((nextUserDefined text).token = 0 → (nextUserDefined text).position = text.length) ∧
      ((nextUserDefined text).token ≠ 0 → 0 < (nextUserDefined text).length ∧
        (nextUserDefined text).position + (nextUserDefined text).length ≤ text.length) := by
  induction text with
  | nil => exact ⟨fun _ => rfl, fun h => absurd rfl h⟩
  | cons byte text ih =>
    rw [nextUserDefined]
    split_ifs with call close
    · exact ⟨fun h => absurd h (by decide),
        fun _ => ⟨by decide, by simpa using isPrefixOf_length call⟩⟩
    · exact ⟨fun h => absurd h (by decide),
        fun _ => ⟨by decide, by simpa using isPrefixOf_length close⟩⟩
    · refine ⟨fun h => ?_, fun h => ⟨(ih.2 h).1, ?_⟩⟩
      · exact congrArg (· + 1) (ih.1 h)
      · have bound := (ih.2 h).2
        simp only [List.length_cons]
        omega

namespace MergeIndex

variable (index : MergeIndex)

def control (token : UInt32) : Fallible Staging ModelError PUnit := fun s =>
  if full : Tokenizer.maxTokens ≤ s.count then (.error (tokenError (s.count + 1)), s)
  else (.ok ⟨⟩, ⟨putU32 s.scratch (stagedTokens + s.count * 4) token, s.count + 1, by omega⟩)

/-- The loop of `ordinary` from `cursor` on. -/
def ordinaryFrom (text : List UInt8) (cursor : Nat) : Fallible Staging ModelError PUnit :=
  if _inside : cursor < text.length then do
    let rest := text.drop cursor
    let next := nextUserDefined rest
    if next.position ≠ 0 then
      regexFragments index.bpe (rest.take next.position)
    if _special : next.token ≠ 0 then
      control next.token
      ordinaryFrom text (cursor + next.position + next.length)
    else if cursor + next.position < text.length then
      regexFragments index.bpe (text.drop (cursor + next.position))
  else
    pure ⟨⟩
termination_by text.length - cursor
decreasing_by
  have found := ((nextUserDefined_bounds (text.drop cursor)).2 _special).1
  omega

def ordinary (text : List UInt8) : Fallible Staging ModelError PUnit := index.ordinaryFrom text 0

end MergeIndex

/-- What `ordinary` hands on: a user-defined token or a fragment. -/
inductive Piece where
  | marker (token : UInt32)
  | fragment (text : List UInt8)

namespace Piece

def run (index : MergeIndex) : Piece → Fallible Staging ModelError PUnit
  | marker token => MergeIndex.control token
  | fragment text => index.bpe text

def tokens (index : MergeIndex) : Piece → List UInt32
  | marker token => [token]
  | fragment text => index.encode text

end Piece

/-- The pieces of a text. -/
def pieces (text : List UInt8) : List Piece :=
  let next := nextUserDefined text
  (Regex.scan qwen2 (text.take next.position)).map Piece.fragment ++
    if _special : next.token ≠ 0 then
      Piece.marker next.token :: pieces (text.drop (next.position + next.length))
    else []
termination_by text.length
decreasing_by
  have found := (nextUserDefined_bounds text).2 _special
  rw [List.length_drop]
  omega

/-- Fragments are run as texts to be encoded. -/
lemma forM_fragment (index : MergeIndex) (fragments : List (List UInt8)) :
    (fragments.map Piece.fragment).forM (Piece.run index) = fragments.forM index.bpe := by
  induction fragments with
  | nil => rfl
  | cons text fragments ih => rw [List.map_cons, Fallible.forM_cons, Fallible.forM_cons, ih]; rfl

/-- The loop of `ordinary` runs through the pieces of what is left. -/
lemma ordinaryFrom_eq (index : MergeIndex) (text : List UInt8) (cursor : Nat) :
    index.ordinaryFrom text cursor = (pieces (text.drop cursor)).forM (Piece.run index) := by
  induction h : text.length - cursor using Nat.strong_induction_on generalizing cursor with
  | _ left ih =>
  rw [MergeIndex.ordinaryFrom, pieces]
  by_cases inside : cursor < text.length
  · obtain ⟨none, some⟩ := nextUserDefined_bounds (text.drop cursor)
    rw [dif_pos inside, Fallible.forM_append, forM_fragment]
    dsimp only
    generalize hnext : nextUserDefined (text.drop cursor) = next at *
    by_cases special : next.token ≠ 0
    · have bounds := some special
      rw [dif_pos special, dif_pos special, Fallible.forM_cons, List.drop_drop, ← Nat.add_assoc,
        ih _ (by omega) _ rfl]
      by_cases start : next.position ≠ 0
      · rw [if_pos start, regexFragments_eq]
        rfl
      · rw [if_neg start, not_ne_iff.mp start]
        rfl
    -- no user-defined token: the search stops at the end of the text
    · have last := none (not_ne_iff.mp special)
      rw [List.length_drop] at last
      rw [dif_neg special, dif_neg special, if_pos (show next.position ≠ 0 by omega),
        if_neg (show ¬cursor + next.position < text.length by omega), regexFragments_eq]
      rfl
  · rw [dif_neg inside, List.drop_eq_nil_of_le (by omega)]
    rfl

/-- A text is run piece by piece. -/
lemma ordinary_eq (index : MergeIndex) (text : List UInt8) :
    index.ordinary text = (pieces text).forM (Piece.run index) :=
  ordinaryFrom_eq index text 0

/-- Fragments have no more tokens than bytes. -/
lemma length_fragments_le (index : MergeIndex) (fragments : List (List UInt8)) :
    ((fragments.map Piece.fragment).flatMap (Piece.tokens index)).length ≤
      fragments.flatten.length := by
  induction fragments with
  | nil => exact Nat.le_refl 0
  | cons text fragments ih =>
    have encoded := index.length_encode_le text
    rw [List.map_cons, List.flatMap_cons, List.flatten_cons, List.length_append, List.length_append,
      Piece.tokens]
    omega

/-- The pieces of a text yield at most as many tokens as it has bytes, and none of its fragments is
longer than the text. -/
lemma pieces_bounds (index : MergeIndex) (text : List UInt8) :
    ((pieces text).flatMap (Piece.tokens index)).length ≤ text.length ∧
      ∀ fragment, Piece.fragment fragment ∈ pieces text → fragment.length ≤ text.length := by
  induction h : text.length using Nat.strong_induction_on generalizing text with
  | _ left ih =>
  obtain ⟨-, some⟩ := nextUserDefined_bounds text
  rw [pieces]
  generalize nextUserDefined text = next at *
  have cut : (text.take next.position).length ≤ text.length := List.length_take_le' _ _
  have encoded := length_fragments_le index (Regex.scan qwen2 (text.take next.position))
  rw [flatten_scan_qwen2] at encoded
  have short (fragment : List UInt8)
      (mem : fragment ∈ Regex.scan qwen2 (text.take next.position)) :
      fragment.length ≤ text.length := by
    have le := (List.sublist_flatten_of_mem mem).length_le
    rw [flatten_scan_qwen2] at le
    omega
  by_cases special : next.token ≠ 0
  · obtain ⟨positive, inside⟩ := some special
    have rest_length : (text.drop (next.position + next.length)).length =
        text.length - (next.position + next.length) := List.length_drop
    obtain ⟨rest, restShort⟩ := ih _ (by omega) (text.drop (next.position + next.length)) rfl
    rw [dif_pos special]
    constructor
    · rw [List.flatMap_append, List.flatMap_cons, List.length_append, List.length_append,
        Piece.tokens]
      have taken : (text.take next.position).length ≤ next.position := List.length_take_le _ _
      simp only [List.length_singleton]
      omega
    · intro fragment mem
      simp only [List.mem_append, List.mem_map, Piece.fragment.injEq, exists_eq_right,
        List.mem_cons, reduceCtorEq, false_or] at mem
      rcases mem with mem | mem
      · have := short fragment mem
        omega
      · have := restShort fragment mem
        omega
  · rw [dif_neg special, List.append_nil]
    refine ⟨by omega, fun fragment mem => ?_⟩
    simp only [List.mem_map, Piece.fragment.injEq, exists_eq_right] at mem
    exact h ▸ short fragment mem

/-- A computation that appends tokens if they fit, is an error if they do not, and in either case
writes to no other area than those of the tokens and of the segment. -/
structure Appends (c : Fallible Staging ModelError PUnit) (tokens : List UInt32) : Prop where
  fits : ∀ s, s.count + tokens.length ≤ Tokenizer.maxTokens → ∃ t, c s = (.ok ⟨⟩, t) ∧
    t.tokens = s.tokens ++ tokens ∧ t.count = s.count + tokens.length ∧
    SameOutside stagedTokens stagedRendered s.scratch t.scratch
  full : ∀ s, Tokenizer.maxTokens < s.count + tokens.length → ∃ e t, c s = (.error e, t) ∧
    SameOutside stagedTokens stagedRendered s.scratch t.scratch

namespace Appends

variable {c d : Fallible Staging ModelError PUnit} {tokens tokens' : List UInt32}

/-- Nothing appends nothing. -/
lemma pure : Appends (Pure.pure ⟨⟩) [] where
  fits s _ := ⟨s, rfl, (List.append_nil _).symm, rfl, .refl⟩
  full s h := absurd s.count_le (Nat.not_le.mpr h)

/-- What two parts append, one behind the other. -/
lemma bind (hc : Appends c tokens) (hd : Appends d tokens') :
    Appends (c >>= fun _ => d) (tokens ++ tokens') where
  fits s fits := by
    rw [List.length_append] at fits
    obtain ⟨t, run, appended, count, frame⟩ := hc.fits s (by omega)
    obtain ⟨u, run', appended', count', frame'⟩ := hd.fits t (by omega)
    refine ⟨u, by rw [Fallible.bind_ok run, run'], ?_, ?_, frame.trans frame'⟩
    · rw [appended', appended, List.append_assoc]
    · rw [count', count, List.length_append, Nat.add_assoc]
  full s full := by
    rw [List.length_append] at full
    by_cases first : s.count + tokens.length ≤ Tokenizer.maxTokens
    · obtain ⟨t, run, -, count, frame⟩ := hc.fits s first
      obtain ⟨e, u, run', frame'⟩ := hd.full t (by omega)
      exact ⟨e, u, by rw [Fallible.bind_ok run, run'], frame.trans frame'⟩
    · obtain ⟨e, t, run, frame⟩ := hc.full s (Nat.not_le.mp first)
      exact ⟨e, t, Fallible.bind_error run, frame⟩

/-- A token goes where the next one belongs. -/
lemma control_sameOutside (token : UInt32) (s : Staging) :
    SameOutside stagedTokens currentSegment s.scratch (MergeIndex.control token s).2.scratch := by
  rw [MergeIndex.control]
  split_ifs with full
  · exact .refl
  · refine .putU32 (Nat.le_add_right _ _) ?_
    simp only [stagedTokens, currentSegment, Tokenizer.maxTokens] at *
    omega

/-- A control token appends itself. -/
lemma control (token : UInt32) : Appends (MergeIndex.control token) [token] where
  fits s fits := by
    have room : ¬Tokenizer.maxTokens ≤ s.count := Nat.not_le.mpr fits
    have run : MergeIndex.control token s = (.ok ⟨⟩,
        ⟨putU32 s.scratch (stagedTokens + s.count * 4) token, s.count + 1, fits⟩) := by
      rw [MergeIndex.control, dif_neg room]
    have frame := control_sameOutside token s
    rw [run] at frame
    refine ⟨_, run, ?_, rfl, frame.mono (Nat.le_refl _) (by decide)⟩
    rw [Staging.tokens, words_succ, u32At_putU32]
    exact congrArg (· ++ [token])
      (words_ext fun i hi => u32At_putU32_of_disjoint (by simp only [stagedTokens]; omega))
  full s full := by
    refine ⟨MergeIndex.tokenError (s.count + 1), s, ?_, .refl⟩
    rw [MergeIndex.control, dif_pos (Nat.le_of_lt_succ full)]

/-- A fragment appends its encoding. -/
lemma bpe {index : MergeIndex} {text : List UInt8} (short : text.length ≤ maxSegment) :
    Appends (index.bpe text) (index.encode text) where
  fits _ fits := MergeIndex.bpe_of_fits short fits
  full _ full :=
    have ⟨t, run, _, frame⟩ := MergeIndex.bpe_of_full short full
    ⟨_, t, run, frame⟩

/-- A piece appends its tokens. -/
lemma run {index : MergeIndex} {piece : Piece}
    (short : ∀ text, piece = .fragment text → text.length ≤ maxSegment) :
    Appends (piece.run index) (piece.tokens index) := by
  cases piece with
  | marker token => exact control token
  | fragment text => exact bpe (short text rfl)

/-- A loop appends what its turns append. -/
lemma forM {α : Type} {f : α → Fallible Staging ModelError PUnit} {g : α → List UInt32} {l : List α}
    (h : ∀ a ∈ l, Appends (f a) (g a)) : Appends (l.forM f) (l.flatMap g) := by
  induction l with
  | nil => exact pure
  | cons a l ih =>
    rw [Fallible.forM_cons, List.flatMap_cons]
    exact bind (h a (List.mem_cons_self ..)) (ih fun b mem => h b (List.mem_cons_of_mem _ mem))

/-- A text of at most 512 bytes is appended piece by piece. -/
lemma ordinary {index : MergeIndex} {text : List UInt8} (short : text.length ≤ maxSegment) :
    Appends (index.ordinary text) ((pieces text).flatMap (Piece.tokens index)) := by
  rw [ordinary_eq]
  refine forM fun piece mem => run fun fragment eq => ?_
  subst eq
  exact ((pieces_bounds index text).2 fragment mem).trans short

end Appends

end Promptboot
