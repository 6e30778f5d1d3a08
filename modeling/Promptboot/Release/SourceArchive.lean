import Promptboot.Release.Path
import Mathlib.Data.Finset.Insert
import Mathlib.Data.List.DropRight

/-!
# The source archive

`git_tree` and `verify_source_archive` past its identity check (`release.rs`). The gzip and tar
libraries yield the entries of the archive and whether data follows the gzip stream; git yields its
listing of the tree and the blobs.

`verifyEntry` is one turn of the loop over the archive with the sets it keeps (`Scan`), `verifyEnd`
the comparisons behind it. The commands that the source runs are what `Repository` answers.
-/

namespace Promptboot.Release

/-- `tar::EntryType` -/
inductive EntryType where
  | regular | link | symlink | char | block | directory | fifo | continuous | gnuLongName
  | gnuLongLink | gnuSparse | xGlobalHeader | xHeader
  | other (byte : UInt8)
  deriving DecidableEq

structure ArchiveEntry where
  path : List UInt8
  entryType : EntryType
  mode : Nat
  linkName : Option (List UInt8)
  content : List UInt8

structure Archive where
  entries : List ArchiveEntry
  trailing : Bool

/-- What git prints: the listing of the tree, and the content of an object. -/
structure Repository where
  lsTree : List UInt8
  catFile : Text → List UInt8

/-- `byte.is_ascii_digit() || (b'a'..=b'f').contains(byte)`, on characters -/
def isLowerHexChar (c : Char) : Bool := '0' ≤ c && c ≤ '9' || 'a' ≤ c && c ≤ 'f'

def lowerHex (value : Text) (length : Nat) : Bool :=
  value.length == length && value.all isLowerHexChar

/-- The commit that `source_identity` reads. -/
structure Source where
  commit : Text
  wellFormed : lowerHex commit 40 = true

/-- `format!("promptboot-{}/", &source.commit[..12])` -/
def Source.archivePrefix (source : Source) : Text :=
  "promptboot-".toList ++ source.commit.take 12 ++ ['/']

/-- A blob of the tree by its name: the mode and the object. -/
abbrev Tracked := List (Text × Text × Text)

/-- The modes of git that are supported. -/
def fileMode : Text := "100644".toList
def executableMode : Text := "100755".toList
def symlinkMode : Text := "120000".toList

/-- `split(' ')` of a record's metadata, when there are three fields of a blob. -/
def blobFields (metadata : Text) : Except ReleaseError (Text × Text) :=
  let fields := metadata.splitOn ' '
  let mode := fields.getD 0 []
  let kind := fields.getD 1 []
  let object := fields.getD 2 []
  if 3 < fields.length || kind != "blob".toList ||
      !(mode == fileMode || mode == executableMode || mode == symlinkMode) ||
      !lowerHex object 40 then
    .error (validation "git source tree contains an unsupported entry")
  else
    .ok (mode, object)

/-- One row of the listing. -/
def treeRecord (raw : List UInt8) : Except ReleaseError (Text × Text × Text) :=
  match raw.idxOf? 9 with
  | none => .error (validation "git tree record is malformed")
  | some tab =>
    match fromUtf8 (raw.take tab) with
    | none => .error (validation "git tree metadata is not ASCII")
    | some metadata =>
      match fromUtf8 (raw.drop (tab + 1)) with
      | none => .error (validation "git path is not UTF-8")
      | some name => (blobFields metadata.toList).map fun (mode, object) => (name.toList, mode, object)

/-- A row into the tree; a name that is there already is not supported. -/
def insertRecord (tracked : Tracked) (raw : List UInt8) : Except ReleaseError Tracked := do
  let record ← treeRecord raw
  if tracked.any (·.1 == record.1) then
    .error (validation "git source tree contains an unsupported entry")
  else
    .ok (tracked ++ [record])

/-- `git_tree` -/
def gitTree (repo : Repository) : Except ReleaseError Tracked :=
  ((repo.lsTree.splitOn 0).filter fun row => !row.isEmpty).foldlM insertRecord []

/-- `trim_end_matches('/')` -/
def trimEndSlashes (path : Text) : Text := path.rdropWhile (· == '/')

/-- `strip_prefix` -/
def stripPrefix (front path : Text) : Option Text :=
  if front.isPrefixOf path then some (path.drop front.length) else none

/-- The loop over the parents of a name, which gets shorter with each. -/
def parents : (fuel : Nat) → Option Text → List Text
  | fuel + 1, some path => if path.isEmpty then [] else path :: parents fuel (pathParent path)
  | _, _ => []

def validDirectories (archivePrefix : Text) (tracked : Tracked) : Finset Text :=
  insert (trimEndSlashes archivePrefix) (tracked.flatMap fun record =>
    (parents (record.1.length + 1) (pathParent record.1)).map (archivePrefix ++ ·)).toFinset

/-- The sets of `verify_source_archive` as its loop fills them. -/
structure Scan where
  seen : Finset Text
  archivedDirectories : Finset Text
  archivedFiles : Finset Text
  globalHeaderSeen : Bool

def Scan.start : Scan := ⟨∅, ∅, ∅, false⟩

/-- The path that is compared with the others: of a directory without the slashes at its end. -/
def ArchiveEntry.normalized (entry : ArchiveEntry) : Text :=
  if entry.entryType = .directory then trimEndSlashes (toStringLossy entry.path)
  else toStringLossy entry.path

/-- An entry with a tracked blob: its type and its executable bits by the mode, and its content. -/
def verifyMember (entry : ArchiveEntry) (mode : Text) (blob : List UInt8) :
    Except ReleaseError Unit :=
  if mode = symlinkMode then
    if entry.entryType ≠ .symlink || entry.linkName != some blob then
      .error (validation "source archive symlink mismatch")
    else .ok ()
  else if mode = fileMode || mode = executableMode then
    if entry.entryType ≠ .regular ||
        (entry.mode &&& 0o111 != 0) != (mode == executableMode) then
      .error (validation "source archive member type/mode mismatch")
    else if entry.content ≠ blob then
      .error (validation "source archive member content mismatch")
    else .ok ()
  else .error (validation "unsupported git source mode")

def globalHeaderPath : Text := "pax_global_header".toList

section Verify

variable (repo : Repository) (archivePrefix : Text) (tracked : Tracked)

/-- The end of a turn, for an entry that is neither a global header nor a directory. -/
def verifyFile (s : Scan) (entry : ArchiveEntry) : Except ReleaseError Scan :=
  match (stripPrefix archivePrefix (toStringLossy entry.path)).filter (!·.isEmpty) with
  | none =>
    let path := String.ofList (toStringLossy entry.path)
    .error (validation s!"source archive prefix mismatch: {path}")
  | some name =>
    match tracked.lookup name with
    | none => .error (validation "source archive contains an extra member")
    | some (mode, object) =>
      (verifyMember entry mode (repo.catFile object)).map fun _ =>
        { s with archivedFiles := insert name s.archivedFiles }

/-- A turn of the loop over the entries. -/
def verifyEntry (s : Scan) (entry : ArchiveEntry) : Except ReleaseError Scan :=
  let path := toStringLossy entry.path
  let normalized := entry.normalized
  if normalized.isEmpty || isAbsolute path || hasParentDir path || normalized ∈ s.seen then
    .error (validation "source archive has an unsafe or duplicate path")
  else
    let s := { s with seen := insert normalized s.seen }
    if entry.entryType = .xGlobalHeader then
      if path ≠ globalHeaderPath || s.globalHeaderSeen then
        .error (validation "source archive has invalid global metadata")
      else .ok { s with globalHeaderSeen := true }
    else if entry.entryType = .directory then
      if normalized ∉ validDirectories archivePrefix tracked then
        .error (validation "source archive contains an invented directory")
      else .ok { s with archivedDirectories := insert normalized s.archivedDirectories }
    else verifyFile repo archivePrefix tracked s entry

/-- What is checked behind the last entry. -/
def verifyEnd (trailing : Bool) (s : Scan) : Except ReleaseError Unit :=
  if trailing then .error (validation "source archive has trailing unparsed data")
  else if !s.globalHeaderSeen || s.archivedDirectories ≠ validDirectories archivePrefix tracked ||
      s.archivedFiles ≠ (tracked.map Prod.fst).toFinset then
    .error (validation "source archive is missing tracked members")
  else .ok ()

/-- `verify_source_archive` from the tree on. -/
def verifyEntries (archive : Archive) : Except ReleaseError Unit := do
  let s ← archive.entries.foldlM (verifyEntry repo archivePrefix tracked) .start
  verifyEnd archivePrefix tracked archive.trailing s

end Verify

/-- `verify_source_archive` past its identity check -/
def verifySourceArchive (repo : Repository) (source : Source) (archive : Archive) :
    Except ReleaseError Unit := do
  let tracked ← gitTree repo
  verifyEntries repo source.archivePrefix tracked archive

end Promptboot.Release
