import Promptboot.Lib.Fallible
import Promptboot.Lib.Regex
import Mathlib.Tactic.Common

/-!
# Pre-tokenization

The scanner that cuts a text into fragments, against the expression of the format document. The
classes of the expression are read on bytes: on ASCII a letter is `A`–`Z` or `a`–`z`, a digit `0`–`9`
and white space one of space, tab, LF, VT, FF and CR.

The `first_` lemmas say what the backtracking matcher takes on each alternative of the expression,
in the order of the alternatives; `class_cases` splits the bytes as they do. `first_qwen2` compares
them with `pretokenLength`, and the headline `regexFragments_eq_scan` is the induction on the rest
of the text.
-/

namespace Promptboot

def isLetter (byte : UInt8) : Bool :=
  (65 ≤ byte && byte ≤ 90) || (97 ≤ byte && byte ≤ 122)

def isDigit (byte : UInt8) : Bool := 48 ≤ byte && byte ≤ 57

def isSpace (byte : UInt8) : Bool :=
  byte == 32 || byte == 9 || byte == 10 || byte == 13 || byte == 11 || byte == 12

def isPunctuation (byte : UInt8) : Bool := !isSpace byte && !isLetter byte && !isDigit byte

/-- `matches!(byte, b'\r' | b'\n')`. -/
def isNewline (byte : UInt8) : Bool := byte == 13 || byte == 10

/-- One letter in either case, given in lower case. -/
def isEither (lower byte : UInt8) : Bool := byte == lower || byte == lower - 32

def contractionMatches : List UInt8 → Bool
  | [quote, x] =>
    quote == 39 && (isEither 115 x || isEither 116 x || isEither 109 x || isEither 100 x)
  | [quote, x, y] =>
    quote == 39 && ((isEither 114 x && isEither 101 y) || (isEither 118 x && isEither 101 y) ||
      (isEither 108 x && isEither 108 y))
  | _ => false

/-- `while end < text.len() && p(text[end]) { end += 1 }`. -/
def scanWhile (p : UInt8 → Bool) (text : List UInt8) (start : Nat) : Nat :=
  start + ((text.drop start).takeWhile p).length

def contractionLengths : List Nat := [2, 2, 3, 3, 2, 3, 2]

/-- What follows the contractions, for a text that is not empty. -/
def plainLength (text : List UInt8) : Nat :=
  let optional :=
    if !isNewline text[0]! && !isLetter text[0]! && !isDigit text[0]! then 1 else 0
  if optional < text.length ∧ isLetter text[optional]! then
    scanWhile isLetter text (optional + 1)
  else if isDigit text[0]! then
    1
  else
    let optionalSpace := if text[0]! == 32 then 1 else 0
    if optionalSpace < text.length ∧ isPunctuation text[optionalSpace]! then
      scanWhile isNewline text (scanWhile isPunctuation text (optionalSpace + 1))
    else if isSpace text[0]! then
      let run := scanWhile isSpace text 1
      let lastNewlineEnd := (List.range run).foldl
        (fun last i => if isNewline text[i]! then i + 1 else last) 0
      if lastNewlineEnd ≠ 0 then lastNewlineEnd
      else if run = text.length then run
      else if run > 1 then run - 1
      else run
    else
      1

/-- `pretoken_length`, of a text that is not empty. -/
def pretokenLength (text : List UInt8) : Nat :=
  match contractionLengths.find? fun length =>
      decide (length ≤ text.length) && contractionMatches (text.take length) with
  | some length => length
  | none => plainLength text

section Qwen2
open Regex

def quoted (letters : List UInt8) : Regex UInt8 :=
  letters.foldr (fun x r => seq (set (isEither x)) r) empty |> seq (set (· == 39))

/-- `(?:'[sS]|'[tT]|'[rR][eE]|'[vV][eE]|'[mM]|'[lL][lL]|'[dD])`. -/
def contraction : Regex UInt8 :=
  alt (quoted [115]) <| alt (quoted [116]) <| alt (quoted [114, 101]) <|
    alt (quoted [118, 101]) <| alt (quoted [109]) <| alt (quoted [108, 108]) (quoted [100])

/-- `[^\r\n\p{L}\p{N}]?\p{L}+`. -/
def word : Regex UInt8 :=
  seq (opt (set fun b => !isNewline b && !isLetter b && !isDigit b)) (plus (set isLetter))

/-- ` ?[^\s\p{L}\p{N}]+[\r\n]*`. -/
def symbols : Regex UInt8 :=
  seq (opt (set (· == 32))) (seq (plus (set isPunctuation)) (star (set isNewline)))

/-- `\s*[\r\n]+`. -/
def lineEnd : Regex UInt8 := seq (star (set isSpace)) (plus (set isNewline))

/-- `\s+(?!\S)`. -/
def trailing : Regex UInt8 := seq (plus (set isSpace)) (notAhead (set fun b => !isSpace b))

/-- The pre-tokenization expression. -/
def qwen2 : Regex UInt8 :=
  alt contraction <| alt word <| alt (set isDigit) <| alt symbols <| alt lineEnd <|
    alt trailing (plus (set isSpace))

/-- A letter is not another one in either case. -/
lemma isEither_ne {x y c : UInt8} (hx : isEither x c = true)
    (ne : x ≠ y ∧ x ≠ y - 32 ∧ x - 32 ≠ y ∧ x - 32 ≠ y - 32) : isEither y c = false := by
  simp only [isEither, Bool.or_eq_true, beq_iff_eq] at hx
  obtain ⟨h1, h2, h3, h4⟩ := ne
  rcases hx with rfl | rfl <;> simp [isEither, *]

/-- The contractions are two or three bytes long. -/
lemma find_contractionLengths (p : Nat → Bool) :
    contractionLengths.find? p = if p 2 then some 2 else if p 3 then some 3 else none := by
  cases two : p 2 <;> cases three : p 3 <;> simp [contractionLengths, two, three]

/-- A quoted letter in either case. -/
lemma first_quoted_one {x a c : UInt8} {rest : List UInt8} :
    first (quoted [x]) (a :: c :: rest) = if a == 39 && isEither x c then some rest else none := by
  simp only [quoted, List.foldr, first_seq_set_cons, first_empty]
  split_ifs <;> simp_all

/-- Two quoted letters in either case. -/
lemma first_quoted_two {x y a c d : UInt8} {rest : List UInt8} :
    first (quoted [x, y]) (a :: c :: d :: rest) =
      if a == 39 && (isEither x c && isEither y d) then some rest else none := by
  simp only [quoted, List.foldr, first_seq_set_cons, first_empty]
  split_ifs <;> simp_all

/-- Two quoted letters need a third byte. -/
lemma first_quoted_short {x y a c : UInt8} : first (quoted [x, y]) [a, c] = none := by
  simp only [quoted, List.foldr, first_seq_set_cons, first_seq_set_nil, ite_self]

/-- The contractions of the scanner are those of the expression. -/
lemma first_contraction (text : List UInt8) :
    first contraction text = (contractionLengths.find? fun length =>
      decide (length ≤ text.length) && contractionMatches (text.take length)).map text.drop := by
  rw [find_contractionLengths]
  match text with
  | [] => rfl
  | [a] => simp [contraction, quoted, first_alt, first_seq_set_cons, first_seq_set_nil]
  | [a, c] =>
    have two : contractionMatches ([a, c].take 2) = (a == 39 &&
      (isEither 115 c || isEither 116 c || isEither 109 c || isEither 100 c)) := rfl
    simp only [contraction, first_alt, first_quoted_one, first_quoted_short, two]
    cases a == 39 <;> cases isEither 115 c <;> cases isEither 116 c <;> cases isEither 109 c <;>
      cases isEither 100 c <;> rfl
  | a :: c :: d :: rest =>
    -- a letter that starts a long contraction is not the one of a short contraction
    have long (x : UInt8) (hx : x ∈ [114, 118, 108]) (h : isEither x c = true) (y : UInt8)
        (hy : y ∈ [115, 116, 109, 100]) : isEither y c = false := by
      refine isEither_ne h ?_
      simp only [List.mem_cons, List.not_mem_nil, or_false] at hx hy
      rcases hx with rfl | rfl | rfl <;> rcases hy with rfl | rfl | rfl | rfl <;> decide
    have two : contractionMatches ((a :: c :: d :: rest).take 2) = (a == 39 &&
      (isEither 115 c || isEither 116 c || isEither 109 c || isEither 100 c)) := rfl
    have three : contractionMatches ((a :: c :: d :: rest).take 3) = (a == 39 &&
      ((isEither 114 c && isEither 101 d) || (isEither 118 c && isEither 101 d) ||
        (isEither 108 c && isEither 108 d))) := rfl
    simp only [contraction, first_alt, first_quoted_one, first_quoted_two, two, three]
    by_cases short : isEither 115 c || isEither 116 c || isEither 109 c || isEither 100 c
    · have noLong (x : UInt8) (hx : x ∈ [114, 118, 108]) : isEither x c = false := by
        by_contra h
        have none := long x hx (by simpa using h)
        simp [none] at short
      rw [noLong 114 (by decide), noLong 118 (by decide), noLong 108 (by decide), short]
      revert short
      cases a == 39 <;> cases isEither 115 c <;> cases isEither 116 c <;> cases isEither 109 c <;>
        cases isEither 100 c <;> simp
    · simp only [Bool.not_eq_true, Bool.or_eq_false_iff] at short
      obtain ⟨⟨⟨hs, ht⟩, hm⟩, hd⟩ := short
      rw [hs, ht, hm, hd]
      cases a == 39 <;> cases isEither 114 c <;> cases isEither 118 c <;> cases isEither 108 c <;>
        cases isEither 101 d <;> cases isEither 108 d <;> simp

/-- The bytes counted are those that pass. -/
lemma take_length_takeWhile (p : UInt8 → Bool) (text : List UInt8) :
    text.take (text.takeWhile p).length = text.takeWhile p :=
  calc text.take (text.takeWhile p).length
      = (text.takeWhile p ++ text.dropWhile p).take (text.takeWhile p).length := by
        rw [List.takeWhile_append_dropWhile]
    _ = text.takeWhile p := List.take_left

/-- Behind the bytes counted is what is left. -/
lemma drop_length_takeWhile (p : UInt8 → Bool) (text : List UInt8) :
    text.drop (text.takeWhile p).length = text.dropWhile p :=
  calc text.drop (text.takeWhile p).length
      = (text.takeWhile p ++ text.dropWhile p).drop (text.takeWhile p).length := by
        rw [List.takeWhile_append_dropWhile]
    _ = text.dropWhile p := List.drop_left

/-- A loop that runs to the end of a class stops where the class does. -/
lemma drop_scanWhile (p : UInt8 → Bool) (text : List UInt8) (start : Nat) :
    text.drop (scanWhile p text start) = (text.drop start).dropWhile p := by
  rw [scanWhile, ← List.drop_drop, drop_length_takeWhile]

/-- A scan ends within the text. -/
lemma scanWhile_le (p : UInt8 → Bool) {text : List UInt8} {start : Nat} (h : start ≤ text.length) :
    scanWhile p text start ≤ text.length := by
  have le := (List.takeWhile_sublist p (l := text.drop start)).length_le
  rw [List.length_drop] at le
  rw [scanWhile]
  omega

variable {a : UInt8} {text : List UInt8}

/-- The second alternative: a word, with or without the one byte in front. -/
lemma first_word :
    first word (a :: text) =
      let optional := if !isNewline a && !isLetter a && !isDigit a then 1 else 0
      if optional < (a :: text).length ∧ isLetter (a :: text)[optional]! then
        some ((a :: text).drop (scanWhile isLetter (a :: text) (optional + 1)))
      else none := by
  rw [word, first_seq_opt_cons]
  simp only [drop_scanWhile, first_plus_cons]
  generalize flag : (!isNewline a && !isLetter a && !isDigit a) = lead
  cases lead with
  | true =>
    have notLetter : isLetter a = false := by simp_all
    rw [if_pos rfl, if_neg (by simp [notLetter]), Option.or_none]
    cases text with
    | nil => rfl
    | cons b text => simp [first_plus_cons]
  | false => simp

/-- The fourth alternative: symbols, with or without a space in front, and their line ends. -/
lemma first_symbols :
    first symbols (a :: text) =
      let optionalSpace := if a == 32 then 1 else 0
      if optionalSpace < (a :: text).length ∧ isPunctuation (a :: text)[optionalSpace]! then
        some ((a :: text).drop
          (scanWhile isNewline (a :: text)
            (scanWhile isPunctuation (a :: text) (optionalSpace + 1))))
      else none := by
  have run (text : List UInt8) :
      first (seq (star (set isPunctuation)) (star (set isNewline))) text =
        some ((text.dropWhile isPunctuation).dropWhile isNewline) := by
    rw [first_seq_star_of_isSome fun _ => by rw [first_star]; rfl, first_star]
  rw [symbols, first_seq_opt_cons]
  simp only [drop_scanWhile, first_seq_plus_cons, run]
  generalize flag : (a == 32) = lead
  cases lead with
  | true =>
    have notPunctuation : isPunctuation a = false := by
      rw [beq_iff_eq.mp flag]
      decide
    rw [if_pos rfl, if_neg (by simp [notPunctuation]), Option.or_none]
    cases text with
    | nil => rfl
    | cons b text => simp [first_seq_plus_cons, run]
  | false => simp

/-- The loop of `pretoken_length` finds where the last line end of a run ends. -/
lemma lastNewlineEnd_eq {run : Nat} (le : run ≤ text.length) :
    (List.range run).foldl (fun last i => if isNewline text[i]! then i + 1 else last) 0 =
      lastEnd isNewline (text.take run) := by
  induction run with
  | zero => rfl
  | succ run ih =>
    have lt : run < text.length := le
    rw [List.range_succ, List.foldl_append, ih (by omega), List.foldl_cons, List.foldl_nil,
      List.take_succ_eq_append_getElem lt, lastEnd_concat, getElem!_pos text run lt,
      List.length_take, Nat.min_eq_left (by omega)]

/-- The last three alternatives: white space, cut behind its last line end, in front of the last
byte before other text, or nowhere. -/
lemma first_spaces (space : isSpace a = true) :
    ((first lineEnd (a :: text)).or
      ((first trailing (a :: text)).or (first (plus (set isSpace)) (a :: text)))) =
      some ((a :: text).drop
        (let run := scanWhile isSpace (a :: text) 1
        let lastNewlineEnd := (List.range run).foldl
          (fun last i => if isNewline (a :: text)[i]! then i + 1 else last) 0
        if lastNewlineEnd ≠ 0 then lastNewlineEnd
        else if run = (a :: text).length then run
        else if run > 1 then run - 1
        else run)) := by
  have runLength : scanWhile isSpace (a :: text) 1 = ((a :: text).takeWhile isSpace).length := by
    rw [scanWhile, List.takeWhile_cons_of_pos space, List.length_cons, Nat.add_comm]
    rfl
  have sub (b : UInt8) (h : isNewline b = true) : isSpace b = true := by
    simp only [isNewline, Bool.or_eq_true, beq_iff_eq] at h
    rcases h with rfl | rfl <;> decide
  simp only [lastNewlineEnd_eq (scanWhile_le isSpace (by simp : 1 ≤ (a :: text).length))]
  rw [runLength, take_length_takeWhile, lineEnd, first_star_plus sub]
  by_cases newline : lastEnd isNewline ((a :: text).takeWhile isSpace) ≠ 0
  · rw [if_pos newline, if_pos newline, Option.some_or]
  · rw [if_neg newline, if_neg newline, Option.none_or, trailing, first_seq_plus_cons,
      if_pos space, first_star_notAhead, first_plus_cons, if_pos space,
      List.takeWhile_cons_of_pos space]
    simp only [List.length_cons, Nat.add_right_cancel_iff]
    by_cases whole : (text.takeWhile isSpace).length = text.length
    · rw [if_pos whole, if_pos whole, Option.some_or, whole]
      simp
    · rw [if_neg whole, if_neg whole]
      by_cases one : (text.takeWhile isSpace).length = 0
      · rw [if_pos one, if_neg (by omega), Option.none_or, one, ← drop_length_takeWhile, one]
        rfl
      · rw [if_neg one, if_pos (by omega), Option.some_or]
        obtain ⟨n, hn⟩ := Nat.exists_eq_succ_of_ne_zero one
        rw [hn]
        rfl

/-- A byte that is no letter, no digit and no white space is punctuation. -/
lemma class_cases (b : UInt8) :
    isLetter b = true ∨ isDigit b = true ∨ isSpace b = true ∨ isPunctuation b = true := by
  unfold isPunctuation
  cases isLetter b <;> cases isDigit b <;> cases isSpace b <;> simp

/-- Behind the contractions, the scanner takes what the other alternatives match. -/
lemma first_plain :
    ((first word (a :: text)).or ((first (set isDigit) (a :: text)).or
      ((first symbols (a :: text)).or ((first lineEnd (a :: text)).or
        ((first trailing (a :: text)).or (first (plus (set isSpace)) (a :: text))))))) =
      some ((a :: text).drop (plainLength (a :: text))) := by
  rw [first_word, first_set_cons, first_symbols, plainLength]
  simp only [List.getElem!_cons_zero]
  generalize hopt : (if (!isNewline a && !isLetter a && !isDigit a) = true then 1 else 0) = optional
  generalize hspc : (if (a == 32) = true then 1 else 0) = optionalSpace
  by_cases hword : optional < (a :: text).length ∧ isLetter (a :: text)[optional]! = true
  · rw [if_pos hword, if_pos hword, Option.some_or]
  by_cases hdigit : isDigit a = true
  · rw [if_neg hword, if_neg hword, if_pos hdigit, if_pos hdigit, Option.none_or, Option.some_or]
    rfl
  by_cases hsymbols : optionalSpace < (a :: text).length ∧
      isPunctuation (a :: text)[optionalSpace]! = true
  · rw [if_neg hword, if_neg hword, if_neg hdigit, if_neg hdigit, if_pos hsymbols, if_pos hsymbols,
      Option.none_or, Option.none_or, Option.some_or]
  -- a letter would have been taken as a word, punctuation as a symbol
  have hspace : isSpace a = true := by
    rcases class_cases a with letter | digit | space | punctuation
    · have zero : optional = 0 := by simp [← hopt, letter]
      exact absurd (by simp [zero, letter]) hword
    · exact absurd digit hdigit
    · exact space
    · have zero : optionalSpace = 0 := by
        rw [← hspc, if_neg]
        rintro h
        rw [beq_iff_eq.mp h] at punctuation
        revert punctuation
        decide
      exact absurd (by simp [zero, punctuation]) hsymbols
  rw [if_neg hword, if_neg hword, if_neg hdigit, if_neg hdigit, if_neg hsymbols, if_neg hsymbols,
    if_pos hspace, Option.none_or, Option.none_or, Option.none_or]
  exact first_spaces hspace

/-- The scanner's fragment is the expression's match. -/
lemma first_qwen2 :
    first qwen2 (a :: text) = some ((a :: text).drop (pretokenLength (a :: text))) := by
  rw [qwen2, first_alt, first_contraction, pretokenLength]
  rcases contractionLengths.find? _ with _ | length
  · simp only [first_alt]
    exact first_plain
  · rfl

/-- A scan ends behind its start. -/
lemma le_scanWhile (p : UInt8 → Bool) (text : List UInt8) (start : Nat) :
    start ≤ scanWhile p text start :=
  Nat.le_add_right _ _

/-- A fragment has a byte and is within the text. -/
lemma plainLength_bounds :
    1 ≤ plainLength (a :: text) ∧ plainLength (a :: text) ≤ (a :: text).length := by
  have nonempty : 1 ≤ (a :: text).length := by simp
  have run_le := scanWhile_le isSpace nonempty
  have le_run := le_scanWhile isSpace (a :: text) 1
  have lastNewlineEnd_le : (List.range (scanWhile isSpace (a :: text) 1)).foldl
      (fun last i => if isNewline (a :: text)[i]! then i + 1 else last) 0 ≤
      scanWhile isSpace (a :: text) 1 := by
    rw [lastNewlineEnd_eq run_le]
    exact Nat.le_trans lastEnd_le (List.length_take_le _ _)
  rw [plainLength]
  dsimp only
  generalize (if (!isNewline (a :: text)[0]! && !isLetter (a :: text)[0]! &&
    !isDigit (a :: text)[0]!) = true then 1 else 0) = optional
  generalize (if ((a :: text)[0]! == 32) = true then 1 else 0) = optionalSpace
  by_cases hword : optional < (a :: text).length ∧ isLetter (a :: text)[optional]! = true
  · have lower := le_scanWhile isLetter (a :: text) (optional + 1)
    have upper : scanWhile isLetter (a :: text) (optional + 1) ≤ (a :: text).length :=
      scanWhile_le isLetter hword.1
    rw [if_pos hword]
    omega
  by_cases hsymbols : optionalSpace < (a :: text).length ∧
      isPunctuation (a :: text)[optionalSpace]! = true
  · have lower := le_scanWhile isPunctuation (a :: text) (optionalSpace + 1)
    have upper : scanWhile isPunctuation (a :: text) (optionalSpace + 1) ≤ (a :: text).length :=
      scanWhile_le isPunctuation hsymbols.1
    have lower' := le_scanWhile isNewline (a :: text)
      (scanWhile isPunctuation (a :: text) (optionalSpace + 1))
    have upper' := scanWhile_le isNewline upper
    rw [if_neg hword, if_pos hsymbols]
    split_ifs <;> omega
  · rw [if_neg hword, if_neg hsymbols]
    split_ifs <;> omega

/-- A fragment is neither empty nor longer than the text. -/
lemma pretokenLength_bounds {text : List UInt8} (h : text ≠ []) :
    1 ≤ pretokenLength text ∧ pretokenLength text ≤ text.length := by
  obtain ⟨a, text, rfl⟩ := List.exists_cons_of_ne_nil h
  rw [pretokenLength]
  split
  · next length found =>
    have member := List.mem_of_find?_eq_some found
    have matched := List.find?_some found
    simp only [Bool.and_eq_true, decide_eq_true_eq] at matched
    refine ⟨?_, matched.1⟩
    simp only [contractionLengths, List.mem_cons, List.not_mem_nil, or_false] at member
    omega
  · exact plainLength_bounds

/-- The code takes what the pattern matches. -/
lemma matchLength_qwen2 {text : List UInt8} (h : text ≠ []) :
    matchLength qwen2 text = some (pretokenLength text) := by
  obtain ⟨a, text, rfl⟩ := List.exists_cons_of_ne_nil h
  have bounds := pretokenLength_bounds h
  rw [matchLength, first_qwen2, Option.map_some, List.length_drop]
  congr 1
  omega

/-- The fragments of a text make up the text. -/
lemma flatten_scan_qwen2 (text : List UInt8) : (scan qwen2 text).flatten = text := by
  refine flatten_scan fun text h => ?_
  obtain ⟨n, hn⟩ := Nat.exists_eq_succ_of_ne_zero (Nat.ne_of_gt (pretokenLength_bounds h).1)
  exact ⟨n, by rw [matchLength_qwen2 h, hn]⟩

end Qwen2

section Fragments

variable {σ ε : Type} (bpe : List UInt8 → Fallible σ ε PUnit)

/-- The loop of `regex_fragments` from `start` on. -/
def regexFragmentsFrom (text : List UInt8) (start : Nat) : Fallible σ ε PUnit :=
  if _h : start < text.length then do
    let length := pretokenLength (text.drop start)
    bpe ((text.drop start).take length)
    regexFragmentsFrom text (start + length)
  else
    pure ⟨⟩
termination_by text.length - start
decreasing_by
  have step := (pretokenLength_bounds (List.ne_nil_of_length_pos (l := text.drop start)
    (by rw [List.length_drop]; omega))).1
  omega

/-- `regex_fragments`, over the function it hands the fragments to. -/
def regexFragments (text : List UInt8) : Fallible σ ε PUnit := regexFragmentsFrom bpe text 0

/-- From any start the fragments are the pattern's matches. -/
lemma regexFragmentsFrom_eq (text : List UInt8) (fuel start : Nat)
    (enough : text.length - start ≤ fuel) :
    regexFragmentsFrom bpe text start = (Regex.scanFrom qwen2 fuel (text.drop start)).forM bpe := by
  induction fuel generalizing start with
  | zero =>
    rw [regexFragmentsFrom, dif_neg (by omega), Regex.scanFrom]
    rfl
  | succ fuel ih =>
    rw [regexFragmentsFrom]
    by_cases inside : start < text.length
    · have nonempty : text.drop start ≠ [] :=
        List.ne_nil_of_length_pos (by rw [List.length_drop]; omega)
      have bounds := pretokenLength_bounds nonempty
      obtain ⟨n, hn⟩ := Nat.exists_eq_succ_of_ne_zero (Nat.ne_of_gt bounds.1)
      rw [dif_pos inside, Regex.scanFrom, matchLength_qwen2 nonempty, hn]
      simp only [Fallible.forM_cons]
      rw [ih (start + (n + 1)) (by omega), List.drop_drop]
    · rw [dif_neg inside, List.drop_eq_nil_of_le (by omega)]
      rfl

/-- The fragments of a text are the pattern's matches. -/
lemma regexFragments_eq (text : List UInt8) :
    regexFragments bpe text = (Regex.scan qwen2 text).forM bpe := by
  rw [regexFragments, regexFragmentsFrom_eq bpe text text.length 0 (by omega), List.drop_zero]
  rfl

/-- Pre-tokenization is the expression: every fragment is its match, `regex_fragments` hands on
what repeated matching finds, in that order, and loses no byte. -/
theorem regexFragments_eq_scan :
    (∀ text : List UInt8, text ≠ [] →
      Regex.matchLength qwen2 text = some (pretokenLength text) ∧
        1 ≤ pretokenLength text ∧ pretokenLength text ≤ text.length) ∧
      ∀ text : List UInt8, (Regex.scan qwen2 text).flatten = text ∧
        ∀ (σ ε : Type) (bpe : List UInt8 → Fallible σ ε PUnit),
          regexFragments bpe text = (Regex.scan qwen2 text).forM bpe := by
  refine ⟨fun text h => ⟨matchLength_qwen2 h, pretokenLength_bounds h⟩, fun text => ?_⟩
  exact ⟨flatten_scan_qwen2 text, fun _ _ bpe => regexFragments_eq bpe text⟩

/-- `'Ll`, two blanks and a line end, an `x` behind them. -/
theorem regexFragments_eq_scan_contraction :
    Regex.matchLength qwen2 [39, 76, 108, 32, 32, 10, 120] = some 3 ∧
      Regex.matchLength qwen2 [32, 32, 10, 120] = some 3 :=
  ⟨(regexFragments_eq_scan.1 [39, 76, 108, 32, 32, 10, 120] (by decide)).1,
    (regexFragments_eq_scan.1 [32, 32, 10, 120] (by decide)).1⟩

end Fragments

end Promptboot
