import Promptboot.Tools.PackFile

/-!
# What the packer makes of the tokenizer

The sections of the tokenizer hold the source's texts one behind the other with the places where
they start, the types, and for each merge the numbers of its halves and of their concatenation.

`indexTokens_facts` says which number a text has, `layTexts_facts` where it starts, and
`mergeBytes_facts` what a merge becomes; each is an induction on the list that the source loops
over. The headline `tokenizerSections_facts` is `SectionsOf`.
-/

namespace Promptboot.Pack
open Buffer Gguf ContainerInspect

section Texts

/-- The loop of the conversion puts the rest behind the front. -/
lemma toList_loop (bytes : ByteArray) (i : Nat) (front : List UInt8) :
    ByteArray.toList.loop bytes i front = front.reverse ++ bytes.data.toList.drop i := by
  fun_induction ByteArray.toList.loop bytes i front with
  | case1 i front inside ih =>
    have inside : i < bytes.data.size := inside
    have byte : bytes.get! i = bytes.data.toList[i] := getElem!_pos bytes.data i inside
    rw [ih, List.reverse_cons, List.append_assoc,
      List.drop_eq_getElem_cons (i := i) (by simpa using inside), byte]
    rfl
  | case2 i front outside =>
    have outside : ¬i < bytes.data.size := outside
    rw [List.drop_eq_nil_of_le (by simpa using outside), List.append_nil]

/-- The bytes of an array as a list. -/
lemma toList_bytes (bytes : ByteArray) : bytes.toList = bytes.data.toList := toList_loop bytes 0 []

/-- The bytes of two texts, one behind the other. -/
lemma asBytes_append (a b : String) : asBytes (a ++ b) = asBytes a ++ asBytes b := by
  simp only [asBytes, toList_bytes, String.toUTF8_eq_toByteArray, String.toByteArray_append,
    ByteArray.toList_data_append]

/-- A text has as many bytes as it is long. -/
lemma length_asBytes (text : String) : (asBytes text).length = text.utf8ByteSize := by
  rw [asBytes, toList_bytes]
  rfl

/-- A blank is one byte. -/
lemma asBytes_space : asBytes " " = [0x20] := by
  rw [asBytes, toList_bytes]
  rfl

/-- A text that is not empty has a byte. -/
lemma asBytes_pos {text : String} (h : text.isEmpty = false) : 0 < (asBytes text).length := by
  rw [length_asBytes]
  refine Nat.pos_of_ne_zero fun zero => ?_
  rw [String.isEmpty_iff_utf8ByteSize_eq_zero.2 zero] at h
  cases h

/-- The bytes of a text are UTF-8. -/
lemma isUtf8_asBytes (text : String) : Opening.isUtf8 (asBytes text) = true := by
  have same : (⟨(asBytes text).toArray⟩ : ByteArray) = text.toByteArray := by
    rw [asBytes, toList_bytes]
    rfl
  rw [Opening.isUtf8, same]
  simp [String.fromUTF8?, text.isValidUTF8]

/-- A text that starts with a brace has its byte in front. -/
lemma asBytes_brace {text : String} {rest : List Char} (h : text.toList = '{' :: rest) :
    ∃ bytes, asBytes text = 0x7b :: bytes := by
  have whole : text = String.ofList ['{'] ++ String.ofList rest := by
    rw [← String.ofList_append, List.singleton_append, ← h, String.ofList_toList]
  refine ⟨asBytes (String.ofList rest), ?_⟩
  rw [whole, asBytes_append]
  rw [asBytes, toList_bytes]
  rfl

/-- A text that is split is its halves around the blank. -/
lemma splitOnce_facts {text left right : String} (h : splitOnce text = some (left, right)) :
    text = left ++ " " ++ right := by
  have parts := List.takeWhile_append_dropWhile (p := (· ≠ ' ')) (l := text.toList)
  have space := List.head?_dropWhile_not (· ≠ ' ') text.toList
  rw [splitOnce] at h
  split at h
  · cases h
  · rename_i c rest dropped
    rw [dropped] at parts space
    have space : c = ' ' := by simpa using space
    cases h
    refine String.toList_inj.1 (parts.symm.trans ?_)
    rw [space]
    simp

end Texts

/-- The source's tokenizer. -/
structure Vocabulary where
  tokens : List String
  types : List Int
  merges : List String
  template : String

/-- The metadata hold the vocabulary. -/
structure Vocabulary.Of (metadata : List (String × Value)) (v : Vocabulary) : Prop where
  tokens : lookup metadata "tokenizer.ggml.tokens" = some (.arrayString v.tokens)
  types : lookup metadata "tokenizer.ggml.token_type" = some (.arrayI32 v.types)
  merges : lookup metadata "tokenizer.ggml.merges" = some (.arrayString v.merges)
  template : lookup metadata "tokenizer.chat_template" = some (.scalarString v.template)

section Sections
variable {p q : Output}

/-- What a lookup finds is in the map. -/
lemma mem_of_lookup {α : Type} {map : List (String × α)} {key : String} {value : α}
    (h : lookup map key = some value) : (key, value) ∈ map := by
  obtain ⟨row, found, rfl⟩ := Option.map_eq_some_iff.1 h
  have same : row.1 = key := by simpa using List.find?_some found
  subst same
  exact List.mem_of_find?_eq_some found

/-- The table of the numbers of the texts. -/
def numbered (tokens : List String) (index : Nat) : List (String × UInt32) :=
  (tokens.zipIdx index).map fun row => (row.1, UInt32.ofNat row.2)

/-- Tokens are numbered from the first on. -/
lemma numbered_cons {token : String} {tokens : List String} {index : Nat} :
    numbered (token :: tokens) index = (token, UInt32.ofNat index) :: numbered tokens (index + 1) :=
  rfl

/-- The tokens are indexed by their numbers. -/
lemma indexTokens_facts {tokens : List String} {index : Nat} {ids result : List (String × UInt32)}
    (h : indexTokens tokens index ids p = (.ok result, q)) :
    q = p ∧ result = ids ++ numbered tokens index ∧ (∀ token ∈ tokens, token.isEmpty = false) ∧
      tokens.Nodup ∧ ∀ token ∈ tokens, ∀ row ∈ ids, row.1 ≠ token := by
  induction tokens generalizing index ids with
  | nil =>
    cases h
    exact ⟨rfl, (List.append_nil _).symm, by simp, by simp, by simp⟩
  | cons token tokens ih =>
    obtain ⟨fresh, h1⟩ := require_bind_eq_ok h
    obtain ⟨nonempty, new⟩ : token.isEmpty = false ∧ ∀ row ∈ ids, row.1 ≠ token := by
      simpa using fresh
    obtain ⟨rfl, rfl, others, nodup, apart⟩ := ih h1
    refine ⟨rfl, ?_, ?_, ?_, ?_⟩
    · rw [numbered_cons, List.append_assoc]
      rfl
    · exact List.forall_mem_cons.2 ⟨nonempty, others⟩
    · refine List.nodup_cons.2 ⟨fun mem => ?_, nodup⟩
      exact apart token mem (token, UInt32.ofNat index) (by simp) rfl
    · refine List.forall_mem_cons.2 ⟨new, fun other mem row known => ?_⟩
      exact apart other mem row (List.mem_append_left _ known)

/-- The number of a text is its place. -/
lemma numbered_get {tokens : List String} {text : String} {id : UInt32}
    (small : tokens.length < 2 ^ 32) (h : (text, id) ∈ numbered tokens 0) :
    tokens[id.toNat]? = some text := by
  obtain ⟨⟨token, index⟩, mem, same⟩ := List.mem_map.1 h
  obtain ⟨rfl, rfl⟩ := Prod.mk.inj same
  have there := List.mk_mem_zipIdx_iff_getElem?.1 mem
  have lt := (List.getElem?_eq_some_iff.1 there).1
  rw [UInt32.toNat_ofNat', Nat.mod_eq_of_lt (by omega)]
  exact there

/-- Where pieces start that lie one behind the other, and where the last ends. -/
def startsFrom : Nat → List (List UInt8) → List Nat
  | start, [] => [start]
  | start, piece :: pieces => start :: startsFrom (start + piece.length) pieces

/-- A piece starts behind those before it. -/
lemma startsFrom_get {start : Nat} {pieces : List (List UInt8)} {i : Nat} (le : i ≤ pieces.length) :
    (startsFrom start pieces)[i]? = some (start + (pieces.take i).flatten.length) := by
  induction pieces generalizing start i with
  | nil =>
    obtain rfl := Nat.le_zero.1 le
    rfl
  | cons piece pieces ih =>
    cases i with
    | zero => rfl
    | succ i =>
      rw [startsFrom, List.getElem?_cons_succ, ih (Nat.le_of_succ_le_succ le), List.take_succ_cons,
        List.flatten_cons, List.length_append, Nat.add_assoc]

/-- There is one start more than pieces. -/
lemma length_startsFrom {start : Nat} {pieces : List (List UInt8)} :
    (startsFrom start pieces).length = pieces.length + 1 := by
  induction pieces generalizing start with
  | nil => rfl
  | cons piece pieces ih => rw [startsFrom, List.length_cons, ih, List.length_cons]

/-- The first piece starts at the start. -/
lemma startsFrom_eq (start : Nat) (pieces : List (List UInt8)) :
    startsFrom start pieces = start :: (startsFrom start pieces).tail := by
  cases pieces <;> rfl

/-- The texts are laid one behind the other. -/
lemma layTexts_facts {tokens : List String} {layout result : TextLayout}
    (h : layTexts tokens layout p = (.ok result, q)) :
    q = p ∧ result.texts = layout.texts ++ (tokens.map asBytes).flatten ∧
      result.offsets = layout.offsets ++
        ((startsFrom layout.texts.length (tokens.map asBytes)).tail.map (leBytes 4)).flatten := by
  induction tokens generalizing layout with
  | nil =>
    cases h
    exact ⟨rfl, (List.append_nil _).symm, (List.append_nil _).symm⟩
  | cons token tokens ih =>
    obtain ⟨-, h1⟩ := require_bind_eq_ok h
    obtain ⟨rfl, texts, offsets⟩ := ih h1
    refine ⟨rfl, ?_, ?_⟩
    · rw [texts, List.map_cons, List.flatten_cons, List.append_assoc]
    · have next := startsFrom_eq (layout.texts.length + (asBytes token).length)
        (tokens.map asBytes)
      rw [offsets, List.map_cons, startsFrom, List.tail_cons, next, List.map_cons,
        List.flatten_cons, ← List.length_append, List.append_assoc]

/-- The types are written as bytes. -/
lemma typeBytes_facts {values : List Int} {bytes : List UInt8}
    (h : typeBytes values p = (.ok bytes, q)) :
    q = p ∧ bytes = values.map (fun value => UInt8.ofNat value.toNat) ∧
      ∀ value ∈ values, 0 ≤ value ∧ value < 256 := by
  induction values generalizing bytes with
  | nil =>
    cases h
    exact ⟨rfl, rfl, fun _ mem => nomatch mem⟩
  | cons value values ih =>
    obtain ⟨small, h1⟩ := require_bind_eq_ok h
    obtain ⟨rest, r, later, h2⟩ := Fallible.bind_eq_ok h1
    cases h2
    obtain ⟨rfl, rfl, others⟩ := ih later
    exact ⟨rfl, rfl, List.forall_mem_cons.2 ⟨of_decide_eq_true small, others⟩⟩

/-- A token's id is the one it is indexed under. -/
lemma idOf_facts {ids : List (String × UInt32)} {text message : String} {id : UInt32}
    (h : idOf ids text message p = (.ok id, q)) : q = p ∧ lookup ids text = some id := by
  cases found : lookup ids text with
  | none =>
    simp only [idOf, found] at h
    cases h
  | some other =>
    simp only [idOf, found] at h
    cases h
    exact ⟨rfl, rfl⟩

/-- The record of a merge: its halves and what they make. -/
def mergeRecord (row : UInt32 × UInt32 × UInt32) : List UInt8 :=
  leBytes 4 row.1.toNat ++ leBytes 4 row.2.1.toNat ++ leBytes 4 row.2.2.toNat

/-- The record of a merge has the numbers of its halves and of their concatenation. -/
def MergeOf (ids : List (String × UInt32)) (merge : String) (row : UInt32 × UInt32 × UInt32) : Prop :=
  ∃ left right, merge = left ++ " " ++ right ∧ lookup ids left = some row.1 ∧
    lookup ids right = some row.2.1 ∧ lookup ids (left ++ right) = some row.2.2

/-- The merges are written as records. -/
lemma mergeBytes_facts {ids : List (String × UInt32)} {merges : List String} {rank : Nat}
    {seen : List (UInt32 × UInt32)} {bytes : List UInt8}
    (h : mergeBytes ids merges rank seen p = (.ok bytes, q)) :
    q = p ∧ ∃ rows, bytes = (rows.map mergeRecord).flatten ∧
      List.Forall₂ (MergeOf ids) merges rows := by
  induction merges generalizing rank seen bytes with
  | nil =>
    cases h
    exact ⟨rfl, [], rfl, .nil⟩
  | cons merge merges ih =>
    cases parts : splitOnce merge with
    | none =>
      simp only [mergeBytes, parts] at h
      cases h
    | some both =>
      obtain ⟨left, right⟩ := both
      simp only [mergeBytes, parts] at h
      obtain ⟨-, h1⟩ := require_bind_eq_ok h
      obtain ⟨leftId, r, run_left, h2⟩ := Fallible.bind_eq_ok h1
      obtain ⟨rfl, known_left⟩ := idOf_facts run_left
      obtain ⟨rightId, r, run_right, h3⟩ := Fallible.bind_eq_ok h2
      obtain ⟨rfl, known_right⟩ := idOf_facts run_right
      obtain ⟨-, h4⟩ := require_bind_eq_ok h3
      obtain ⟨resultId, r, run_result, h5⟩ := Fallible.bind_eq_ok h4
      obtain ⟨rfl, known_result⟩ := idOf_facts run_result
      obtain ⟨rest, r, later, h6⟩ := Fallible.bind_eq_ok h5
      cases h6
      obtain ⟨rfl, rows, rfl, all⟩ := ih later
      refine ⟨rfl, (leftId, rightId, resultId) :: rows, rfl, .cons ?_ all⟩
      exact ⟨left, right, splitOnce_facts parts, known_left, known_right, known_result⟩

/-- The tokenizer's sections hold the vocabulary. -/
structure SectionsOf (v : Vocabulary) (small : Sections) : Prop where
  nonempty : ∀ token ∈ v.tokens, token.isEmpty = false
  distinct : v.tokens.Nodup
  offsets : small.offsets = ((startsFrom 0 (v.tokens.map asBytes)).map (leBytes 4)).flatten
  texts : small.texts = (v.tokens.map asBytes).flatten
  size : small.texts.length = 1372758
  types : small.types = v.types.map fun value => UInt8.ofNat value.toNat
  bytes : ∀ value ∈ v.types, 0 ≤ value ∧ value < 256
  merges : ∃ rows, small.merges = (rows.map mergeRecord).flatten ∧
    List.Forall₂ (MergeOf (numbered v.tokens 0)) v.merges rows
  template : small.template = asBytes v.template

/-- An entry that is read is the one under its key. -/
lemma entryOf_facts {α : Type} {metadata : List (String × Value)} {key : String}
    {read : Value → Option α} {missing wrong : String} {value : Value} {result : α}
    (known : lookup metadata key = some value)
    (h : entryOf metadata key read missing wrong p = (.ok result, q)) :
    q = p ∧ read value = some result := by
  cases found : read value with
  | none =>
    simp only [entryOf, known, found] at h
    cases h
  | some other =>
    simp only [entryOf, known, found] at h
    cases h
    exact ⟨rfl, rfl⟩

/-- The sections are those of the vocabulary. -/
lemma tokenizerSections_facts {metadata : List (String × Value)} {v : Vocabulary}
    {small : Sections} (of : v.Of metadata)
    (h : tokenizerSections metadata p = (.ok small, q)) : SectionsOf v small := by
  obtain ⟨tokens, r, read, h1⟩ := Fallible.bind_eq_ok h
  obtain ⟨rfl, same⟩ := entryOf_facts of.tokens read
  cases same
  obtain ⟨types, r, read, h2⟩ := Fallible.bind_eq_ok h1
  obtain ⟨rfl, same⟩ := entryOf_facts of.types read
  cases same
  obtain ⟨merges, r, read, h3⟩ := Fallible.bind_eq_ok h2
  obtain ⟨rfl, same⟩ := entryOf_facts of.merges read
  cases same
  obtain ⟨template, r, read, h4⟩ := Fallible.bind_eq_ok h3
  obtain ⟨rfl, same⟩ := entryOf_facts of.template read
  cases same
  obtain ⟨ids, r, indexed, h5⟩ := Fallible.bind_eq_ok h4
  obtain ⟨rfl, rfl, nonempty, distinct, -⟩ := indexTokens_facts indexed
  obtain ⟨-, h6⟩ := require_bind_eq_ok h5
  obtain ⟨layout, r, laid, h7⟩ := Fallible.bind_eq_ok h6
  obtain ⟨rfl, texts, offsets⟩ := layTexts_facts laid
  obtain ⟨accounting, h8⟩ := require_bind_eq_ok h7
  obtain ⟨bytes, r, packed, h9⟩ := Fallible.bind_eq_ok h8
  obtain ⟨rfl, rfl, small_types⟩ := typeBytes_facts packed
  obtain ⟨table, r, merged, h10⟩ := Fallible.bind_eq_ok h9
  obtain ⟨rfl, rows, rfl, all⟩ := mergeBytes_facts merged
  cases h10
  refine ⟨nonempty, distinct, ?_, texts, (of_decide_eq_true accounting).1, rfl, small_types,
    ⟨rows, rfl, all⟩, rfl⟩
  have first := startsFrom_eq 0 (v.tokens.map asBytes)
  rw [first, List.map_cons, List.flatten_cons]
  exact offsets

end Sections

end Promptboot.Pack
