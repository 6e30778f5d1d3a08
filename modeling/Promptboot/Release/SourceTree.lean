import Promptboot.Lib.Lines
import Promptboot.Release.SourceArchive

/-!
# Git trees

A tree of blobs whose paths are relative, normalized and unique, the listing git prints of it, and
`git_tree` reading it back.

The helper `splitOn_joinPath` takes a path apart again, `row_clean` and `path_clean` say that no
part of a row has the separators in it, and `treeRecord_row` is one record. The headline
`gitTree_lsTree` is the induction over the listing.
-/

namespace Promptboot.Release

/-- The name of a file or of a directory. -/
def NormalName (name : Text) : Prop :=
  name ≠ [] ∧ '/' ∉ name ∧ name ≠ ['.'] ∧ name ≠ ['.', '.'] ∧ '\x00' ∉ name

/-- A relative path by its components. -/
structure TreePath where
  components : List Text
  nonempty : components ≠ []
  normal : ∀ name ∈ components, NormalName name

def TreePath.text (path : TreePath) : Text := joinPath path.components

inductive BlobMode where
  | file | executable | symlink
  deriving DecidableEq

def BlobMode.text : BlobMode → Text
  | file => fileMode
  | executable => executableMode
  | symlink => symlinkMode

structure TreeBlob where
  path : TreePath
  mode : BlobMode
  object : Text
  hash : lowerHex object 40 = true

structure GitTree where
  blobs : List TreeBlob
  unique : (blobs.map fun blob => blob.path.text).Nodup

/-- A row of `git ls-tree -r -z`: the metadata, a tab and the path. -/
def TreeBlob.row (blob : TreeBlob) : List UInt8 :=
  bytesOf (String.ofList (blob.mode.text ++ " blob ".toList ++ blob.object)) ++ [9] ++
    bytesOf (String.ofList blob.path.text)

/-- `git ls-tree -r -z --full-tree` -/
def GitTree.lsTree (tree : GitTree) : List UInt8 :=
  Lines.terminated 0 (tree.blobs.map TreeBlob.row)

def TreeBlob.record (blob : TreeBlob) : Text × Text × Text :=
  (blob.path.text, blob.mode.text, blob.object)

def GitTree.tracked (tree : GitTree) : Tracked := tree.blobs.map TreeBlob.record

section Ascii

/-- A byte below 0x80 is a character of its own. -/
lemma mem_utf8EncodeChar {c : Char} {byte : UInt8} (ascii : byte < 0x80)
    (mem : byte ∈ String.utf8EncodeChar c) : c.toNat = byte.toNat := by
  rw [UInt8.lt_iff_toNat_lt] at ascii
  have small : byte.toNat < 128 := ascii
  have wide {n m low : Nat} (high : 128 ≤ low) (room : n % m + low < 256)
      (eq : byte = UInt8.ofNat (n % m + low)) : c.toNat = byte.toNat := by
    rw [eq, UInt8.toNat_ofNat', Nat.mod_eq_of_lt room] at small
    omega
  unfold String.utf8EncodeChar at mem
  dsimp only at mem
  split_ifs at mem with one two three <;>
    simp only [List.mem_cons, List.not_mem_nil, or_false] at mem
  · have whole : c.val.toNat < 256 := by omega
    rw [mem, UInt8.toNat_ofNat', Nat.mod_eq_of_lt whole]
    rfl
  · rcases mem with eq | eq <;> exact wide (by decide) (by omega) eq
  · rcases mem with eq | eq | eq <;> exact wide (by decide) (by omega) eq
  · rcases mem with eq | eq | eq | eq <;> exact wide (by decide) (by omega) eq

/-- An ASCII byte of a text is one of its characters. -/
lemma mem_bytesOf {text : Text} {byte : UInt8} (ascii : byte < 0x80)
    (mem : byte ∈ bytesOf (String.ofList text)) : ∃ c ∈ text, c.toNat = byte.toNat := by
  rw [bytesOf_ofList] at mem
  obtain ⟨c, listed, mem⟩ := List.mem_flatMap.mp mem
  exact ⟨c, listed, mem_utf8EncodeChar ascii mem⟩

end Ascii

/-- A joined path is split into its components. -/
lemma splitOn_joinPath {components : List Text} (some : components ≠ [])
    (names : ∀ name ∈ components, '/' ∉ name) :
    (joinPath components).splitOn '/' = components :=
  List.splitOn_intercalate '/' names some

/-- A character of a path is a slash or in a component. -/
lemma mem_joinPath {components : List Text} {c : Char} (mem : c ∈ joinPath components) :
    c = '/' ∨ ∃ name ∈ components, c ∈ name := by
  induction components with
  | nil => cases mem
  | cons name rest ih =>
    cases rest with
    | nil => exact .inr ⟨name, List.mem_singleton_self _, by simpa [joinPath] using mem⟩
    | cons next rest =>
      rw [joinPath, List.intercalate_cons_cons] at mem
      simp only [List.mem_append, List.mem_singleton] at mem
      rcases mem with (mem | slash) | mem
      · exact .inr ⟨name, List.mem_cons_self .., mem⟩
      · exact .inl slash
      · rcases ih mem with slash | ⟨name, listed, mem⟩
        · exact .inl slash
        · exact .inr ⟨name, List.mem_cons_of_mem _ listed, mem⟩

namespace TreeBlob

variable {blob : TreeBlob}

/-- A mode is made of hexadecimal digits. -/
lemma mode_char {mode : BlobMode} {c : Char} (mem : c ∈ mode.text) : isLowerHexChar c = true := by
  have all : mode.text.all isLowerHexChar = true := by cases mode <;> decide
  exact List.all_eq_true.mp all c mem

/-- An object is made of hexadecimal digits. -/
lemma object_char {c : Char} (mem : c ∈ blob.object) : isLowerHexChar c = true := by
  have hash := blob.hash
  rw [lowerHex, Bool.and_eq_true] at hash
  exact List.all_eq_true.mp hash.2 c mem

/-- A row's metadata has no control character. -/
lemma metadata_char {c : Char} (mem : c ∈ blob.mode.text ++ " blob ".toList ++ blob.object) :
    0x20 ≤ c.toNat := by
  have digit {c : Char} (hex : isLowerHexChar c = true) : 0x20 ≤ c.toNat := by
    simp only [isLowerHexChar, Bool.or_eq_true, Bool.and_eq_true, decide_eq_true_eq] at hex
    rcases hex with ⟨low, _⟩ | ⟨low, _⟩
    · exact Nat.le_trans (by decide) (show '0'.toNat ≤ c.toNat from low)
    · exact Nat.le_trans (by decide) (show 'a'.toNat ≤ c.toNat from low)
  have word : " blob ".toList.all (fun c => 0x20 ≤ c.toNat) := by decide
  rcases List.mem_append.mp mem with mem | mem
  · rcases List.mem_append.mp mem with mem | mem
    · exact digit (mode_char mem)
    · exact of_decide_eq_true (List.all_eq_true.mp word c mem)
  · exact digit (object_char mem)

/-- No control byte is in the metadata of a row. -/
lemma metadata_clean {byte : UInt8} (control : byte < 0x20) :
    byte ∉ bytesOf (String.ofList (blob.mode.text ++ " blob ".toList ++ blob.object)) := by
  intro mem
  rw [UInt8.lt_iff_toNat_lt] at control
  have small : byte.toNat < 32 := control
  have ascii : byte.toNat < 128 := by omega
  obtain ⟨c, listed, eq⟩ := mem_bytesOf (UInt8.lt_iff_toNat_lt.mpr ascii) mem
  have printed := metadata_char listed
  omega

/-- A path has no zero byte. -/
lemma path_clean : 0 ∉ bytesOf (String.ofList blob.path.text) := by
  intro mem
  obtain ⟨c, listed, eq⟩ := mem_bytesOf (by decide) mem
  have nul : c = '\x00' := Char.ext (UInt32.toNat_inj.mp eq)
  rcases mem_joinPath listed with slash | ⟨name, mem, inside⟩
  · rw [nul] at slash
    exact absurd slash (by decide)
  · exact (blob.path.normal name mem).2.2.2.2 (nul ▸ inside)

/-- A row has no zero byte. -/
lemma row_clean : 0 ∉ blob.row := by
  simp only [row, List.mem_append, metadata_clean (show (0 : UInt8) < 0x20 by decide), path_clean,
    or_false, false_or]
  decide

/-- A row is not empty. -/
lemma row_nonempty : blob.row.isEmpty = false := by
  rw [row, List.isEmpty_eq_false_iff]
  simp

/-- The metadata is three fields. -/
lemma blobFields_metadata :
    blobFields (blob.mode.text ++ " blob ".toList ++ blob.object) =
      .ok (blob.mode.text, blob.object) := by
  have fields : (blob.mode.text ++ " blob ".toList ++ blob.object).splitOn ' ' =
      [blob.mode.text, "blob".toList, blob.object] := by
    have joined : blob.mode.text ++ " blob ".toList ++ blob.object =
        [' '].intercalate [blob.mode.text, "blob".toList, blob.object] := by
      simp [List.append_assoc]
    rw [joined, List.splitOn_intercalate _ _ (List.cons_ne_nil _ _)]
    have blank : isLowerHexChar ' ' = false := by decide
    intro field mem space
    simp only [List.mem_cons, List.not_mem_nil, or_false] at mem
    rcases mem with rfl | rfl | rfl
    · exact absurd (mode_char space) (by rw [blank]; decide)
    · exact absurd space (by decide)
    · exact absurd (object_char space) (by rw [blank]; decide)
  have known : (blob.mode.text == fileMode || blob.mode.text == executableMode ||
      blob.mode.text == symlinkMode) = true := by
    cases blob.mode <;> decide
  rw [blobFields, fields]
  simp only [List.getD_cons_zero, List.getD_cons_succ, known, blob.hash]
  rfl

/-- The first place of an element behind others. -/
lemma idxOf?_append_cons {α : Type} [BEq α] [LawfulBEq α] {x : α} {front back : List α}
    (fresh : x ∉ front) : (front ++ x :: back).idxOf? x = some front.length := by
  induction front with
  | nil => rw [List.nil_append, List.idxOf?_cons, if_pos (beq_self_eq_true x), List.length_nil]
  | cons y front ih =>
    obtain ⟨other, fresh⟩ := not_or.mp fun either => fresh (List.mem_cons.mpr either)
    rw [List.cons_append, List.idxOf?_cons, if_neg (by simpa using Ne.symm other), ih fresh]
    rfl

/-- A row is read back. -/
lemma treeRecord_row : treeRecord blob.row = .ok blob.record := by
  let metadata := bytesOf (String.ofList (blob.mode.text ++ " blob ".toList ++ blob.object))
  have tab : blob.row.idxOf? 9 = some metadata.length := by
    rw [row, List.append_assoc]
    exact idxOf?_append_cons (metadata_clean (by decide))
  have front : blob.row.take metadata.length = metadata := by
    rw [row, List.append_assoc, List.take_left' rfl]
  have back : blob.row.drop (metadata.length + 1) = bytesOf (String.ofList blob.path.text) := by
    rw [row, List.drop_left' (by rw [List.length_append]; rfl)]
  rw [treeRecord, tab]
  dsimp only
  rw [front, fromUtf8_bytesOf]
  dsimp only
  rw [back, fromUtf8_bytesOf]
  dsimp only
  rw [String.toList_ofList, String.toList_ofList, blobFields_metadata]
  rfl

end TreeBlob

/-- Rows of distinct names are all inserted. -/
lemma foldlM_insertRecord {blobs : List TreeBlob} {tracked : Tracked}
    (nodup : ((tracked ++ blobs.map TreeBlob.record).map Prod.fst).Nodup) :
    (blobs.map TreeBlob.row).foldlM insertRecord tracked =
      .ok (tracked ++ blobs.map TreeBlob.record) := by
  induction blobs generalizing tracked with
  | nil =>
    rw [List.map_nil, List.map_nil, List.append_nil]
    rfl
  | cons blob blobs ih =>
    have fresh : tracked.any (·.1 == blob.record.1) = false := by
      rw [List.any_eq_false]
      intro record mem same
      rw [List.map_append, List.nodup_append] at nodup
      exact nodup.2.2 _ (List.mem_map_of_mem mem) _
        (List.mem_map_of_mem (List.mem_cons_self ..)) (beq_iff_eq.mp same)
    have inserted : insertRecord tracked blob.row = .ok (tracked ++ [blob.record]) := by
      rw [insertRecord, TreeBlob.treeRecord_row]
      show (if _ then _ else _) = _
      rw [fresh, if_neg Bool.false_ne_true]
    rw [List.map_cons, List.foldlM_cons, inserted]
    have rest := @ih (tracked ++ [blob.record])
      (by rwa [List.append_assoc, List.singleton_append, ← List.map_cons])
    rwa [List.append_assoc, List.singleton_append, ← List.map_cons] at rest

/-- `git_tree` reads the tree that git lists. -/
theorem gitTree_lsTree (tree : GitTree) (catFile : Text → List UInt8) :
    gitTree ⟨tree.lsTree, catFile⟩ = .ok tree.tracked := by
  have clean : ∀ row ∈ tree.blobs.map TreeBlob.row, 0 ∉ row := by
    intro row mem
    obtain ⟨blob, _, rfl⟩ := List.mem_map.mp mem
    exact TreeBlob.row_clean
  have rows : ((tree.lsTree.splitOn 0).filter fun row => !row.isEmpty) =
      tree.blobs.map TreeBlob.row := by
    have full : (tree.blobs.map TreeBlob.row).filter (fun row => !row.isEmpty) =
        tree.blobs.map TreeBlob.row := by
      rw [List.filter_eq_self]
      intro row mem
      obtain ⟨blob, _, rfl⟩ := List.mem_map.mp mem
      rw [TreeBlob.row_nonempty]
      rfl
    rw [GitTree.lsTree, Lines.splitOn_terminated_all clean, List.filter_append, full]
    exact List.append_nil _
  have names : tree.tracked.map Prod.fst = tree.blobs.map fun blob => blob.path.text := by
    rw [GitTree.tracked, List.map_map]
    rfl
  rw [gitTree]
  dsimp only
  rw [rows]
  have inserted : (tree.blobs.map TreeBlob.row).foldlM insertRecord [] =
      .ok ([] ++ tree.blobs.map TreeBlob.record) :=
    foldlM_insertRecord (names ▸ tree.unique)
  exact inserted

end Promptboot.Release
