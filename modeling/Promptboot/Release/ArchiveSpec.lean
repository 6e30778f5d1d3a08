import Promptboot.Release.SourceTree
import Mathlib.Data.List.Infix
import Mathlib.Data.List.Dedup

/-!
# What a source archive is

The entries that an archive of a tree consists of, each with its role: the global header, a
directory above a file, or a file. `Fills` is an entry in its role, its path compared byte by byte,
and `ArchiveMatches` says that a list of entries is these, in any order and nothing else.

The code reads a path with `to_string_lossy`. `Archive.lossy` is the archive that it sees: the same
one where every path is UTF-8 (`lossy_of_isText`), and one with U+FFFD in it elsewhere.
`trim_bytesOf` and `bytesOf_inj` carry the trimming and the comparison of paths from texts to bytes.
-/

namespace Promptboot.Release

/-- What an entry is in the archive for. -/
inductive Role where
  | globalHeader
  | directory (path : Text)
  | member (blob : TreeBlob)

/-- The content of a member, and its type and executable bits, are those of the blob. -/
def FillsBlob (entry : ArchiveEntry) (mode : BlobMode) (blob : List UInt8) : Prop :=
  match mode with
  | .symlink => entry.entryType = .symlink ∧ entry.linkName = some blob
  | mode =>
    entry.entryType = .regular ∧ (entry.mode &&& 0o111 ≠ 0 ↔ mode = .executable) ∧
      entry.content = blob

/-- An entry as the archive below `top` has it for a role, with the bytes of its path; slashes may
follow a directory. -/
def Fills (catFile : Text → List UInt8) (top : Text) (entry : ArchiveEntry) : Role → Prop
  | .globalHeader =>
    entry.entryType = .xGlobalHeader ∧ entry.path = bytesOf (String.ofList globalHeaderPath)
  | .directory path =>
    entry.entryType = .directory ∧
      ∃ slashes, entry.path = bytesOf (String.ofList path) ++ List.replicate slashes 0x2f
  | .member blob =>
    entry.path = bytesOf (String.ofList (joinPath (top :: blob.path.components))) ∧
      FillsBlob entry blob.mode (catFile blob.object)

/-- The path of an entry, of a directory without the slashes at its end. -/
def ArchiveEntry.bare (entry : ArchiveEntry) : List UInt8 :=
  if entry.entryType = .directory then entry.path.rdropWhile (· == 0x2f) else entry.path

/-- The directory `top` and those of the paths below it. -/
def GitTree.directories (tree : GitTree) (top : Text) : List Text :=
  (top :: tree.blobs.flatMap fun blob =>
    blob.path.components.dropLast.inits.map fun front => joinPath (top :: front)).dedup

def GitTree.roles (tree : GitTree) (top : Text) : List Role :=
  .globalHeader :: ((tree.directories top).map .directory ++ tree.blobs.map .member)

/-- The archive is the tree's below `top`. -/
structure ArchiveMatches (tree : GitTree) (catFile : Text → List UInt8) (top : Text)
    (archive : Archive) : Prop where
  listed : ∃ order : List Role, order.Perm (tree.roles top) ∧
    List.Forall₂ (Fills catFile top) archive.entries order
  unique : (archive.entries.map ArchiveEntry.bare).Nodup
  ended : archive.trailing = false

/-- The path of an entry is UTF-8. -/
def ArchiveEntry.IsText (entry : ArchiveEntry) : Prop := (fromUtf8 entry.path).isSome

/-- An entry with U+FFFD for what is not UTF-8 in its path. -/
def ArchiveEntry.lossy (entry : ArchiveEntry) : ArchiveEntry :=
  { entry with path := bytesOf (String.ofList (toStringLossy entry.path)) }

def Archive.lossy (archive : Archive) : Archive :=
  { archive with entries := archive.entries.map .lossy }

/-- The directory of the archive. -/
def Source.top (source : Source) : Text := "promptboot-".toList ++ source.commit.take 12

/-- The prefix is the top directory and a slash. -/
lemma Source.archivePrefix_eq (source : Source) : source.archivePrefix = source.top ++ ['/'] := by
  unfold archivePrefix top
  rfl

/-- The name of a directory that is not above itself. -/
structure TopName (top : Text) : Prop where
  nonempty : top ≠ []
  noSlash : '/' ∉ top
  notParent : top ≠ ['.', '.']

/-- The top directory is a name. -/
lemma Source.topName (source : Source) : TopName source.top := by
  have front : "promptboot-".toList = 'p' :: "romptboot-".toList := by decide
  unfold Source.top
  constructor
  · rw [front]
    exact List.cons_ne_nil _ _
  · intro slash
    rcases List.mem_append.mp slash with mem | mem
    · exact absurd mem (by decide)
    · have hash := source.wellFormed
      rw [lowerHex, Bool.and_eq_true] at hash
      exact absurd (List.all_eq_true.mp hash.2 '/' (List.mem_of_mem_take mem)) (by decide)
  · rw [front]
    intro same
    exact absurd (List.cons_eq_cons.mp same).1 (by decide)

/-! ## Bytes -/

section Bytes

/-- Texts of the same bytes are the same. -/
lemma bytesOf_inj {a b : Text} :
    bytesOf (String.ofList a) = bytesOf (String.ofList b) ↔ a = b := by
  refine ⟨fun same => ?_, fun same => by rw [same]⟩
  rw [← toStringLossy_bytesOf a, same, toStringLossy_bytesOf]

/-- The bytes of a text with slashes behind it. -/
lemma bytesOf_slashes (text : Text) (slashes : Nat) :
    bytesOf (String.ofList (text ++ List.replicate slashes '/')) =
      bytesOf (String.ofList text) ++ List.replicate slashes 0x2f := by
  have one : String.utf8EncodeChar '/' = [0x2f] := by decide
  have all : (List.replicate slashes '/').flatMap String.utf8EncodeChar =
      List.replicate slashes 0x2f := by
    induction slashes with
    | zero => rfl
    | succ slashes ih => rw [List.replicate_succ, List.flatMap_cons, ih, one]; rfl
  rw [bytesOf_ofList, bytesOf_ofList, List.flatMap_append, all]

/-- A slash at the end of the bytes is one at the end of the text. -/
lemma getLast?_bytesOf {text : Text}
    (slash : (bytesOf (String.ofList text)).getLast? = some 0x2f) : text.getLast? = some '/' := by
  rcases List.eq_nil_or_concat text with rfl | ⟨front, c, rfl⟩
  · exact absurd slash (by decide)
  · rw [bytesOf_ofList, List.concat_eq_append, List.flatMap_append, List.flatMap_singleton,
      List.getLast?_append_of_ne_nil _ String.utf8EncodeChar_ne_nil] at slash
    have ascii : c.toNat = 0x2f := mem_utf8EncodeChar (by decide) (List.mem_of_getLast? slash)
    rw [List.concat_eq_append, List.getLast?_concat,
      show c = '/' from Char.ext (UInt32.toNat_inj.mp ascii)]

/-- The slashes at the end of a text are those at the end of its bytes. -/
lemma trim_bytesOf (text : Text) :
    (bytesOf (String.ofList text)).rdropWhile (· == 0x2f) =
      bytesOf (String.ofList (trimEndSlashes text)) := by
  induction text using List.reverseRecOn with
  | nil => decide
  | append_singleton front c ih =>
    by_cases slash : c = '/'
    · have one := bytesOf_slashes front 1
      rw [List.replicate_one, List.replicate_one] at one
      rw [slash, one, List.rdropWhile_concat_pos _ _ _ (by decide), ih, trimEndSlashes,
        trimEndSlashes, List.rdropWhile_concat_pos _ _ _ (by decide)]
    · rw [trimEndSlashes, List.rdropWhile_concat_neg _ _ _ (by simpa using slash),
        List.rdropWhile_eq_self_iff]
      intro nonempty last
      have ends := getLast?_bytesOf
        ((List.getLast?_eq_some_getLast nonempty).trans (congrArg some (beq_iff_eq.mp last)))
      rw [List.getLast?_concat] at ends
      exact slash (Option.some.inj ends)

/-- A path of UTF-8 is the bytes of the text that it is read as. -/
lemma bytesOf_toStringLossy {path : List UInt8} (text : (fromUtf8 path).isSome) :
    bytesOf (String.ofList (toStringLossy path)) = path := by
  obtain ⟨name, read⟩ := Option.isSome_iff_exists.mp text
  have whole : bytesOf (String.ofList name.toList) = path := by
    rw [String.ofList_toList, bytesOf_fromUtf8 read]
  rw [← whole, toStringLossy_bytesOf]

/-- An entry with the bytes of a text has a text as path. -/
lemma isText_of_eq {entry : ArchiveEntry} {text : Text}
    (path : entry.path = bytesOf (String.ofList text)) : entry.IsText := by
  rw [ArchiveEntry.IsText, path, fromUtf8_bytesOf]
  rfl

/-- The entries of a tree's archive have paths of UTF-8. -/
lemma Fills.isText {catFile : Text → List UInt8} {top : Text} {entry : ArchiveEntry} {role : Role}
    (fills : Fills catFile top entry role) : entry.IsText := by
  cases role with
  | globalHeader => exact isText_of_eq fills.2
  | directory path =>
    obtain ⟨_, slashes, path⟩ := fills
    exact isText_of_eq (path.trans (bytesOf_slashes ..).symm)
  | member blob => exact isText_of_eq fills.1

/-- The entries that fill a tree have texts as paths. -/
lemma Fills.all_isText {catFile : Text → List UInt8} {top : Text} {entries : List ArchiveEntry}
    {order : List Role} (fills : List.Forall₂ (Fills catFile top) entries order) :
    ∀ entry ∈ entries, entry.IsText := by
  induction fills with
  | nil => exact fun _ mem => absurd mem List.not_mem_nil
  | cons first _ ih => exact List.forall_mem_cons.mpr ⟨first.isText, ih⟩

/-- The entries of an archive that is the tree's have texts as paths. -/
lemma ArchiveMatches.isText {tree : GitTree} {catFile : Text → List UInt8} {top : Text}
    {archive : Archive} (same : ArchiveMatches tree catFile top archive) :
    ∀ entry ∈ archive.entries, entry.IsText := by
  obtain ⟨order, -, fills⟩ := same.listed
  exact Fills.all_isText fills

/-- An archive whose paths are all UTF-8 is seen as it is. -/
lemma lossy_of_isText {archive : Archive} (text : ∀ entry ∈ archive.entries, entry.IsText) :
    archive.lossy = archive := by
  have same : archive.entries.map ArchiveEntry.lossy = archive.entries.map id := by
    refine List.map_congr_left fun entry mem => ?_
    rw [ArchiveEntry.lossy, bytesOf_toStringLossy (text entry mem)]
    rfl
  rw [Archive.lossy, same, List.map_id]

end Bytes

/-! ## Paths -/

section Paths

variable {components : List Text} {top : Text}

/-- A path is its first component, a slash and the rest. -/
lemma joinPath_cons {name : Text} {rest : List Text} (some : rest ≠ []) :
    joinPath (name :: rest) = name ++ '/' :: joinPath rest := by
  rw [joinPath, List.intercalate_cons_of_ne_nil some, List.append_assoc]
  rfl

/-- Empty components behind a name join to slashes. -/
lemma joinPath_replicate (name : Text) (slashes : Nat) :
    joinPath (name :: List.replicate slashes []) = name ++ List.replicate slashes '/' := by
  induction slashes generalizing name with
  | zero => simp [joinPath]
  | succ slashes ih =>
    rw [List.replicate_succ, joinPath_cons (List.cons_ne_nil _ _), ih, List.nil_append,
      List.replicate_succ]

/-- Slashes behind a path are empty components. -/
lemma joinPath_slashes (some : components ≠ []) (slashes : Nat) :
    joinPath (components ++ List.replicate slashes []) =
      joinPath components ++ List.replicate slashes '/' := by
  induction components with
  | nil => exact absurd rfl some
  | cons name rest ih =>
    rw [List.cons_append]
    by_cases last : rest = []
    · rw [last, List.nil_append, joinPath_replicate]
      simp [joinPath]
    · rw [joinPath_cons (List.append_ne_nil_of_left_ne_nil last _), ih last, joinPath_cons last,
        List.append_assoc, List.cons_append]

/-- A path begins as its first component does. -/
lemma head?_joinPath {name : Text} {rest : List Text} (some : name ≠ []) :
    (joinPath (name :: rest)).head? = name.head? := by
  by_cases last : rest = []
  · rw [last]
    simp [joinPath]
  · rw [joinPath_cons last, List.head?_append_of_ne_nil _ some]

/-- A path from `top` down is safe. -/
lemma safe_joinPath (topName : TopName top) (normal : ∀ name ∈ components, NormalName name)
    (slashes : Nat) :
    isAbsolute (joinPath (top :: components) ++ List.replicate slashes '/') = false ∧
      hasParentDir (joinPath (top :: components) ++ List.replicate slashes '/') = false := by
  have some : top :: components ≠ [] := List.cons_ne_nil _ _
  rw [← joinPath_slashes some]
  constructor
  · rw [isAbsolute, List.cons_append, head?_joinPath topName.nonempty]
    rw [beq_eq_false_iff_ne]
    intro slash
    exact topName.noSlash (List.mem_of_mem_head? slash)
  · have names : ∀ name ∈ top :: components ++ List.replicate slashes [],
        '/' ∉ name ∧ name ≠ ['.', '.'] := by
      intro name mem
      rcases List.mem_append.mp mem with mem | mem
      · rcases List.mem_cons.mp mem with rfl | mem
        · exact ⟨topName.noSlash, topName.notParent⟩
        · exact ⟨(normal name mem).2.1, (normal name mem).2.2.2.1⟩
      · rw [List.eq_of_mem_replicate mem]
        exact ⟨List.not_mem_nil, by decide⟩
    rw [hasParentDir, splitOn_joinPath (List.append_ne_nil_of_left_ne_nil some _)
      fun name mem => (names name mem).1, List.any_eq_false]
    intro name mem parent
    exact (names name mem).2 (beq_iff_eq.mp parent)

end Paths

end Promptboot.Release
