import Promptboot.Release.ArchiveSpec

/-!
# Source archives verify exactly, but for bytes that are not UTF-8

A turn of `verify_source_archive` succeeds when its entry fills a role of the tree whose path is not
seen yet, and adds that role to the sets; what the loop leaves is then the roles of the entries, and
the last comparisons say that none is missing.

`validDirectories_eq` gives the directories of the archive, `role_of_verifyEntry` and
`verifyEntry_of_fills` the two directions for one turn, `taken_of_foldlM` and `foldlM_of_taken` those
for the loop, and `complete_iff` the last comparisons. `verifySourceArchive_lossy` puts them
together: what is accepted is an archive that is the tree's when its paths are read with
`to_string_lossy`. `verifySourceArchive_exact` says for which archives that is the tree's own, and
`verifySourceArchive_exact_invalidByte` is one for which it is not.
-/

namespace Promptboot.Release

section Directories

variable {components : List Text} {top path : Text}

/-- Only no component joins to nothing. -/
lemma joinPath_eq_nil {components : List Text} (names : ∀ name ∈ components, name ≠ []) :
    joinPath components = [] ↔ components = [] := by
  constructor
  · intro nil
    cases components with
    | nil => rfl
    | cons name rest =>
      have some := names name (List.mem_cons_self ..)
      have first := congrArg List.head? nil
      rw [head?_joinPath some, List.head?_nil, List.head?_eq_none_iff] at first
      exact absurd first some
  · rintro rfl
    rfl

/-- A path is at least as long as it has components. -/
lemma length_joinPath (names : ∀ name ∈ components, name ≠ []) :
    components.length ≤ (joinPath components).length := by
  induction components with
  | nil => exact Nat.zero_le _
  | cons name rest ih =>
    have some := List.length_pos_iff.mpr (names name (List.mem_cons_self ..))
    by_cases last : rest = []
    · subst last
      simpa [joinPath, Nat.one_le_iff_ne_zero, Nat.pos_iff_ne_zero] using some
    · have tail := ih fun name mem => names name (List.mem_cons_of_mem _ mem)
      rw [joinPath_cons last, List.length_append, List.length_cons, List.length_cons]
      omega

/-- The parent of a path is the path without its last component. -/
lemma pathParent_joinPath (some : components ≠ [])
    (normal : ∀ name ∈ components, name ≠ [] ∧ '/' ∉ name) :
    pathParent (joinPath components) = .some (joinPath components.dropLast) := by
  have nonempty : (joinPath components).isEmpty = false := by
    rw [List.isEmpty_eq_false_iff]
    exact fun nil => some ((joinPath_eq_nil fun name mem => (normal name mem).1).mp nil)
  rw [pathParent, nonempty, if_neg Bool.false_ne_true,
    splitOn_joinPath some fun name mem => (normal name mem).2]

/-- The parents are the paths of the leading components. -/
lemma mem_parents {fuel : Nat} (room : components.length < fuel)
    (normal : ∀ name ∈ components, name ≠ [] ∧ '/' ∉ name) :
    path ∈ parents fuel (some (joinPath components)) ↔
      ∃ front, front ≠ [] ∧ front <+: components ∧ path = joinPath front := by
  induction fuel generalizing components with
  | zero => omega
  | succ fuel ih =>
    have names : ∀ name ∈ components, name ≠ [] := fun name mem => (normal name mem).1
    rw [parents]
    by_cases none : components = []
    · rw [none, show (joinPath []).isEmpty = true from rfl, if_pos rfl]
      refine ⟨nofun, ?_⟩
      rintro ⟨front, some, leading, -⟩
      exact absurd (List.prefix_nil.mp leading) some
    · have nonempty : (joinPath components).isEmpty = false := by
        rw [List.isEmpty_eq_false_iff]
        exact fun nil => none ((joinPath_eq_nil names).mp nil)
      have split := List.dropLast_append_getLast none
      have shorter : components.dropLast.length = components.length - 1 := List.length_dropLast
      have above := List.length_pos_iff.mpr none
      rw [nonempty, if_neg Bool.false_ne_true, pathParent_joinPath none normal, List.mem_cons,
        ih (by omega) fun name mem => normal name (List.mem_of_mem_dropLast mem)]
      have leading (front : List Text) :
          front <+: components ↔ front = components ∨ front <+: components.dropLast := by
        conv_lhs => rw [← split]
        rw [List.prefix_concat_iff, split]
      constructor
      · rintro (rfl | ⟨front, some, shorter, rfl⟩)
        · exact ⟨components, none, List.prefix_rfl, rfl⟩
        · exact ⟨front, some, (leading front).mpr (.inr shorter), rfl⟩
      · rintro ⟨front, some, longer, rfl⟩
        rcases (leading front).mp longer with rfl | shorter
        · exact .inl rfl
        · exact .inr ⟨front, some, shorter, rfl⟩

/-- Slashes behind a path are trimmed. -/
lemma trimEndSlashes_append (noSlash : path.getLast? ≠ some '/') (slashes : Nat) :
    trimEndSlashes (path ++ List.replicate slashes '/') = path := by
  induction slashes with
  | zero =>
    rw [List.replicate_zero, List.append_nil, trimEndSlashes, List.rdropWhile_eq_self_iff]
    intro nonempty slash
    exact noSlash (by rw [List.getLast?_eq_some_getLast nonempty, beq_iff_eq.mp slash])
  | succ slashes ih =>
    rw [List.replicate_succ', ← List.append_assoc, trimEndSlashes,
      List.rdropWhile_concat_pos (p := (· == '/')) _ '/' rfl]
    exact ih

/-- A path is its trimmed path and slashes. -/
lemma trimEndSlashes_eq (path : Text) :
    ∃ slashes, path = trimEndSlashes path ++ List.replicate slashes '/' := by
  have split := List.rdropWhile_append_rtakeWhile (p := (· == '/')) (l := path)
  have all : path.rtakeWhile (· == '/') =
      List.replicate (path.rtakeWhile (· == '/')).length '/' :=
    List.eq_replicate_of_mem fun c mem =>
      beq_iff_eq.mp (List.mem_rtakeWhile_imp (p := (· == '/')) mem)
  refine ⟨(path.rtakeWhile (· == '/')).length, ?_⟩
  rw [← all, trimEndSlashes, split]

/-- A joined path does not end in a slash. -/
lemma getLast?_joinPath (some : components ≠ [])
    (normal : ∀ name ∈ components, name ≠ [] ∧ '/' ∉ name) :
    (joinPath components).getLast? ≠ .some '/' := by
  induction components with
  | nil => exact absurd rfl some
  | cons name rest ih =>
    by_cases last : rest = []
    · subst last
      intro slash
      have mem := List.mem_of_getLast? slash
      exact (normal name (List.mem_cons_self ..)).2 (by simpa [joinPath] using mem)
    · have names : ∀ name ∈ rest, name ≠ [] ∧ '/' ∉ name := fun name mem =>
        normal name (List.mem_cons_of_mem _ mem)
      have tail : joinPath rest ≠ [] := fun nil =>
        last ((joinPath_eq_nil fun name mem => (names name mem).1).mp nil)
      rw [joinPath_cons last, List.getLast?_append_of_ne_nil _ (List.cons_ne_nil _ _),
        List.getLast?_cons_of_ne_nil tail]
      exact ih last names

/-- The directories that are valid are those above the files. -/
lemma validDirectories_eq (tree : GitTree) (topName : TopName top) :
    validDirectories (top ++ ['/']) tree.tracked = (tree.directories top).toFinset := by
  have single (name : Text) : joinPath [name] = name := by simp [joinPath]
  have below {front : List Text} (some : front ≠ []) :
      joinPath (top :: front) = top ++ ['/'] ++ joinPath front := by
    rw [joinPath_cons some, List.append_assoc]
    rfl
  have trimmed : trimEndSlashes (top ++ ['/']) = top := by
    have last := getLast?_joinPath (List.cons_ne_nil top []) (by
      intro name mem
      rw [List.mem_singleton.mp mem]
      exact ⟨topName.nonempty, topName.noSlash⟩)
    rw [single] at last
    exact trimEndSlashes_append last 1
  -- the parents of a blob are the paths of its leading components, all but the last
  have above (blob : TreeBlob) (path : Text) :
      path ∈ parents (blob.path.text.length + 1) (pathParent blob.path.text) ↔
        ∃ front, front ≠ [] ∧ front <+: blob.path.components.dropLast ∧ path = joinPath front := by
    have normal : ∀ name ∈ blob.path.components, name ≠ [] ∧ '/' ∉ name := fun name mem =>
      ⟨(blob.path.normal name mem).1, (blob.path.normal name mem).2.1⟩
    have long := length_joinPath fun name mem => (normal name mem).1
    rw [TreePath.text, pathParent_joinPath blob.path.nonempty normal]
    refine mem_parents ?_ fun name mem => normal name (List.mem_of_mem_dropLast mem)
    rw [List.length_dropLast]
    omega
  ext path
  simp only [validDirectories, trimmed, GitTree.tracked, GitTree.directories, Finset.mem_insert,
    List.mem_toFinset, List.mem_flatMap, List.mem_map, List.mem_dedup, List.mem_cons,
    List.mem_inits, exists_exists_and_eq_and]
  constructor
  · rintro (rfl | ⟨blob, listed, parent, mem, rfl⟩)
    · exact .inl rfl
    · obtain ⟨front, some, leading, rfl⟩ := (above blob parent).mp mem
      exact .inr ⟨blob, listed, front, leading, below some⟩
  · rintro (rfl | ⟨blob, listed, front, leading, rfl⟩)
    · exact .inl rfl
    · by_cases none : front = []
      · rw [none, single]
        exact .inl rfl
      · exact .inr ⟨blob, listed, joinPath front, (above blob _).mpr ⟨front, none, leading, rfl⟩,
          (below none).symm⟩

end Directories

/-! ## Roles -/

/-- The path of a role, of a directory without slashes at its end. -/
def Role.path (top : Text) : Role → Text
  | .globalHeader => globalHeaderPath
  | .directory path => path
  | .member blob => joinPath (top :: blob.path.components)

/-- The sets with a role in them. -/
def Scan.add (top : Text) (s : Scan) (role : Role) : Scan :=
  let s := { s with seen := insert (role.path top) s.seen }
  match role with
  | .globalHeader => { s with globalHeaderSeen := true }
  | .directory path => { s with archivedDirectories := insert path s.archivedDirectories }
  | .member blob => { s with archivedFiles := insert blob.path.text s.archivedFiles }

/-- The global header is among the paths that are seen. -/
def Scan.HeaderSeen (s : Scan) : Prop :=
  s.globalHeaderSeen = true → globalHeaderPath ∈ s.seen

/-- An entry in its role as the code reads it: the path is compared as the text it is read as. -/
def Reads (catFile : Text → List UInt8) (top : Text) (entry : ArchiveEntry) : Role → Prop
  | .globalHeader =>
    entry.entryType = .xGlobalHeader ∧ toStringLossy entry.path = globalHeaderPath
  | .directory path =>
    entry.entryType = .directory ∧
      ∃ slashes, toStringLossy entry.path = path ++ List.replicate slashes '/'
  | .member blob =>
    toStringLossy entry.path = joinPath (top :: blob.path.components) ∧
      FillsBlob entry blob.mode (catFile blob.object)

section Turn

variable {tree : GitTree} {catFile : Text → List UInt8} {top : Text} {entry : ArchiveEntry}
  {role : Role} {s s' : Scan}

/-- The entry as the code sees it fills the role that the code reads it for. -/
lemma fills_lossy : Fills catFile top entry.lossy role ↔ Reads catFile top entry role := by
  cases role with
  | globalHeader => exact and_congr_right fun _ => bytesOf_inj
  | directory path =>
    refine and_congr_right fun _ => exists_congr fun slashes => ?_
    rw [← bytesOf_slashes]
    exact bytesOf_inj
  | member blob => exact and_congr bytesOf_inj Iff.rfl

/-- Its path without slashes is the text that the code compares. -/
lemma bare_lossy (entry : ArchiveEntry) :
    entry.lossy.bare = bytesOf (String.ofList entry.normalized) := by
  rw [ArchiveEntry.bare, ArchiveEntry.normalized]
  by_cases type : entry.entryType = .directory
  · rw [if_pos type, if_pos (show entry.lossy.entryType = .directory from type)]
    exact trim_bytesOf _
  · rw [if_neg type, if_neg (show entry.lossy.entryType ≠ .directory from type)]
    rfl

/-- The roles of a tree: the header, its directories and its files. -/
lemma mem_roles : role ∈ tree.roles top ↔
    role = .globalHeader ∨ (∃ path ∈ tree.directories top, role = .directory path) ∨
      ∃ blob ∈ tree.blobs, role = .member blob := by
  simp only [GitTree.roles, List.mem_cons, List.mem_append, List.mem_map, eq_comm]

/-- The directories of a tree: the top and the parents of its files. -/
lemma mem_directories {path : Text} : path ∈ tree.directories top ↔
    path = top ∨ ∃ blob ∈ tree.blobs, ∃ front, front <+: blob.path.components.dropLast ∧
      path = joinPath (top :: front) := by
  simp only [GitTree.directories, List.mem_dedup, List.mem_cons, List.mem_flatMap, List.mem_map,
    List.mem_inits, eq_comm]

/-- A directory is a path from `top` down. -/
lemma directory_eq {path : Text} (mem : path ∈ tree.directories top) :
    ∃ front, path = joinPath (top :: front) ∧ ∀ name ∈ front, NormalName name := by
  rcases mem_directories.mp mem with rfl | ⟨blob, _, front, leading, rfl⟩
  · exact ⟨[], by simp [joinPath], nofun⟩
  · exact ⟨front, rfl, fun name mem =>
      blob.path.normal name (List.mem_of_mem_dropLast (leading.subset mem))⟩

/-- A path below the top is not empty. -/
lemma top_joinPath (topName : TopName top) {components : List Text} :
    joinPath (top :: components) ≠ [] := by
  intro nil
  have first := congrArg List.head? nil
  rw [head?_joinPath topName.nonempty, List.head?_nil, List.head?_eq_none_iff] at first
  exact topName.nonempty first

/-- A directory of the tree does not end in a slash. -/
lemma directory_getLast? (topName : TopName top) {path : Text} (mem : path ∈ tree.directories top) :
    path.getLast? ≠ some '/' := by
  obtain ⟨front, rfl, normal⟩ := directory_eq mem
  refine getLast?_joinPath (List.cons_ne_nil _ _) fun name mem => ?_
  rcases List.mem_cons.mp mem with rfl | mem
  · exact ⟨topName.nonempty, topName.noSlash⟩
  · exact ⟨(normal name mem).1, (normal name mem).2.1⟩

/-- The path of an entry is that of its role. -/
lemma Reads.normalized (fills : Reads catFile top entry role) (mem : role ∈ tree.roles top)
    (topName : TopName top) : entry.normalized = role.path top := by
  cases role with
  | globalHeader =>
    obtain ⟨type, path⟩ := fills
    rw [ArchiveEntry.normalized, type, if_neg (by decide), path, Role.path]
  | directory path =>
    obtain ⟨type, slashes, text⟩ := fills
    have listed : path ∈ tree.directories top := by simpa [mem_roles] using mem
    rw [ArchiveEntry.normalized, if_pos type, text,
      trimEndSlashes_append (directory_getLast? topName listed), Role.path]
  | member blob =>
    obtain ⟨path, content⟩ := fills
    have other : entry.entryType ≠ .directory := by
      intro type
      cases mode : blob.mode <;> rw [mode] at content <;>
        exact absurd (type.symm.trans content.1) (by decide)
    rw [ArchiveEntry.normalized, if_neg other, path, Role.path]

/-- The path of an entry with a role passes the first checks. -/
lemma Reads.safe (fills : Reads catFile top entry role) (mem : role ∈ tree.roles top)
    (topName : TopName top) :
    (role.path top).isEmpty = false ∧ isAbsolute (toStringLossy entry.path) = false ∧
      hasParentDir (toStringLossy entry.path) = false := by
  cases role with
  | globalHeader =>
    rw [fills.2, Role.path]
    decide
  | directory path =>
    obtain ⟨_, slashes, text⟩ := fills
    have listed : path ∈ tree.directories top := by simpa [mem_roles] using mem
    obtain ⟨front, rfl, normal⟩ := directory_eq listed
    rw [text]
    refine ⟨?_, safe_joinPath topName normal slashes⟩
    rw [List.isEmpty_eq_false_iff]
    exact top_joinPath topName
  | member blob =>
    have whole := safe_joinPath topName blob.path.normal 0
    rw [List.replicate_zero, List.append_nil] at whole
    rw [fills.1]
    refine ⟨?_, whole⟩
    rw [List.isEmpty_eq_false_iff]
    exact top_joinPath topName

/-- A member is taken when its content and type are those of the blob. -/
lemma verifyMember_ok {mode : BlobMode} {blob : List UInt8} :
    verifyMember entry mode.text blob = .ok () ↔ FillsBlob entry mode blob := by
  have different : fileMode ≠ symlinkMode ∧ executableMode ≠ symlinkMode ∧
      fileMode ≠ executableMode := by decide
  have regular (executable : Bool) :
      (if entry.entryType ≠ .regular || (entry.mode &&& 0o111 != 0) != executable then
          .error (validation "source archive member type/mode mismatch")
        else if entry.content ≠ blob then
          .error (validation "source archive member content mismatch")
        else .ok () : Except ReleaseError Unit) = .ok () ↔
      entry.entryType = .regular ∧ (entry.mode &&& 0o111 ≠ 0 ↔ executable = true) ∧
        entry.content = blob := by
    by_cases type : entry.entryType = .regular <;> by_cases bits : entry.mode &&& 0o111 = 0 <;>
      by_cases content : entry.content = blob <;> cases executable <;>
      simp [type, bits, content]
  cases mode with
  | file =>
    have known : (decide (fileMode = fileMode) || decide (fileMode = executableMode)) = true := by
      decide
    have other : (fileMode == executableMode) = false := by decide
    rw [BlobMode.text, verifyMember, if_neg different.1, if_pos known, other, regular, FillsBlob]
    · simp
    · exact nofun
  | executable =>
    have known : (decide (executableMode = fileMode) ||
        decide (executableMode = executableMode)) = true := by decide
    have same : (executableMode == executableMode) = true := by decide
    rw [BlobMode.text, verifyMember, if_neg different.2.1, if_pos known, same, regular, FillsBlob]
    · simp
    · exact nofun
  | symlink =>
    rw [BlobMode.text, verifyMember, if_pos rfl, FillsBlob]
    by_cases type : entry.entryType = .symlink <;> by_cases link : entry.linkName = some blob <;>
      simp [type, link]

/-- The blob of a name. -/
lemma lookup_tracked {name : Text} {value : Text × Text} :
    tree.tracked.lookup name = some value ↔
      ∃ blob ∈ tree.blobs, blob.record = (name, value) := by
  have names : tree.tracked.map Prod.fst = tree.blobs.map fun blob => blob.path.text := by
    rw [GitTree.tracked, List.map_map]
    rfl
  have nodup : (tree.tracked.map Prod.fst).Nodup := names ▸ tree.unique
  rw [← List.mem_map, ← GitTree.tracked, List.lookup_eq_some_iff]
  constructor
  · rintro ⟨front, back, split, -⟩
    rw [split]
    exact List.mem_append_right _ (List.mem_cons_self ..)
  · intro mem
    obtain ⟨front, back, split⟩ := List.append_of_mem mem
    refine ⟨front, back, split, fun record before => ?_⟩
    rw [split, List.map_append, List.nodup_append] at nodup
    have other := nodup.2.2 record.1 (List.mem_map_of_mem before) name (List.mem_cons_self ..)
    simpa using Ne.symm other

/-- A stripped name is what stands behind the front. -/
lemma stripPrefix_eq {front path name : Text} :
    stripPrefix front path = some name ↔ path = front ++ name := by
  rw [stripPrefix]
  split_ifs with leads
  · obtain ⟨rest, rfl⟩ := List.isPrefixOf_iff_prefix.mp leads
    rw [List.drop_left]
    constructor
    · rintro ⟨⟩
      rfl
    · intro same
      rw [List.append_cancel_left same]
  · refine ⟨nofun, ?_⟩
    rintro rfl
    exact absurd (List.isPrefixOf_iff_prefix.mpr (List.prefix_append front name)) leads

/-- A file's path in the archive is its path in the tree, below the top. -/
lemma top_text (blob : TreeBlob) :
    joinPath (top :: blob.path.components) = top ++ ['/'] ++ blob.path.text := by
  rw [joinPath_cons blob.path.nonempty, List.append_assoc]
  rfl

/-- A file's path is not empty. -/
lemma text_ne_nil (blob : TreeBlob) : blob.path.text ≠ [] := fun nil =>
  blob.path.nonempty
    ((joinPath_eq_nil fun name mem => (blob.path.normal name mem).1).mp nil)

/-- A file passes when it reads as a file of the tree. -/
lemma verifyFile_ok :
    verifyFile ⟨tree.lsTree, catFile⟩ (top ++ ['/']) tree.tracked s entry = .ok s' ↔
      ∃ blob ∈ tree.blobs, Reads catFile top entry (.member blob) ∧
        s' = { s with archivedFiles := insert blob.path.text s.archivedFiles } := by
  rw [verifyFile]
  constructor
  -- the name behind the top is that of a tracked blob, whose content is compared
  · intro h
    cases stripped : (stripPrefix (top ++ ['/']) (toStringLossy entry.path)).filter
        (!·.isEmpty) with
    | none =>
      rw [stripped] at h
      cases h
    | some name =>
      rw [stripped] at h
      dsimp only at h
      obtain ⟨path, some⟩ := Option.filter_eq_some_iff.mp stripped
      cases found : tree.tracked.lookup name with
      | none =>
        rw [found] at h
        cases h
      | some value =>
        rw [found] at h
        obtain ⟨blob, listed, record⟩ := lookup_tracked.mp found
        obtain rfl : blob.path.text = name := congrArg Prod.fst record
        obtain rfl : (blob.mode.text, blob.object) = value := congrArg Prod.snd record
        dsimp only at h
        cases checked : verifyMember entry blob.mode.text (catFile blob.object) with
        | error error =>
          rw [checked] at h
          cases h
        | ok u =>
          rw [checked] at h
          cases h
          refine ⟨blob, listed, ⟨?_, verifyMember_ok.mp checked⟩, rfl⟩
          rw [top_text]
          exact stripPrefix_eq.mp path
  -- the path is the top and the blob's own, which the table then finds
  · rintro ⟨blob, listed, ⟨path, content⟩, rfl⟩
    have stripped : (stripPrefix (top ++ ['/']) (toStringLossy entry.path)).filter
        (!·.isEmpty) = some blob.path.text := by
      rw [path, top_text, stripPrefix_eq.mpr rfl, Option.filter_some, if_pos]
      simp [text_ne_nil]
    have found := lookup_tracked.mpr ⟨blob, listed, rfl⟩
    rw [stripped]
    dsimp only
    rw [found]
    dsimp only
    rw [verifyMember_ok.mpr content]
    rfl

/-- The path of an entry that is taken is new, and its type says which check it passes. -/
lemma verifyEntry_cases (topName : TopName top)
    (h : verifyEntry ⟨tree.lsTree, catFile⟩ (top ++ ['/']) tree.tracked s entry = .ok s') :
    entry.normalized ∉ s.seen ∧
      (entry.entryType = .xGlobalHeader ∧ toStringLossy entry.path = globalHeaderPath ∧
          s' = { s with seen := insert entry.normalized s.seen, globalHeaderSeen := true } ∨
        entry.entryType = .directory ∧ entry.normalized ∈ tree.directories top ∧
          s' = { s with
            seen := insert entry.normalized s.seen
            archivedDirectories := insert entry.normalized s.archivedDirectories } ∨
        ∃ blob ∈ tree.blobs, Reads catFile top entry (.member blob) ∧
          s' = { s with
            seen := insert entry.normalized s.seen
            archivedFiles := insert blob.path.text s.archivedFiles }) := by
  rw [verifyEntry] at h
  dsimp only at h
  rw [validDirectories_eq tree topName] at h
  split_ifs at h with rejected pax bad directory invented
  · have fresh : entry.normalized ∉ s.seen := fun seen => rejected (by simp [seen])
    have path : toStringLossy entry.path = globalHeaderPath := by
      by_contra other
      exact bad (by simp [other])
    cases h
    exact ⟨fresh, .inl ⟨pax, path, rfl⟩⟩
  · have fresh : entry.normalized ∉ s.seen := fun seen => rejected (by simp [seen])
    rw [List.mem_toFinset] at invented
    cases h
    exact ⟨fresh, .inr (.inl ⟨directory, invented, rfl⟩)⟩
  · have fresh : entry.normalized ∉ s.seen := fun seen => rejected (by simp [seen])
    exact ⟨fresh, .inr (.inr (verifyFile_ok.mp h))⟩

/-- An entry that is taken fills a role whose path is new, and the role is added. -/
lemma role_of_verifyEntry (topName : TopName top)
    (h : verifyEntry ⟨tree.lsTree, catFile⟩ (top ++ ['/']) tree.tracked s entry = .ok s') :
    ∃ role ∈ tree.roles top, Reads catFile top entry role ∧ role.path top ∉ s.seen ∧
      s' = s.add top role := by
  obtain ⟨fresh, ⟨type, path, rfl⟩ | ⟨type, listed, rfl⟩ | ⟨blob, listed, fills, rfl⟩⟩ :=
    verifyEntry_cases topName h
  · have mem : Role.globalHeader ∈ tree.roles top := mem_roles.mpr (.inl rfl)
    have fills : Reads catFile top entry .globalHeader := ⟨type, path⟩
    rw [fills.normalized mem topName] at fresh ⊢
    exact ⟨_, mem, fills, fresh, rfl⟩
  · have mem : Role.directory entry.normalized ∈ tree.roles top :=
      mem_roles.mpr (.inr (.inl ⟨_, listed, rfl⟩))
    have fills : Reads catFile top entry (.directory entry.normalized) := by
      refine ⟨type, ?_⟩
      rw [ArchiveEntry.normalized, if_pos type]
      exact trimEndSlashes_eq _
    exact ⟨_, mem, fills, fresh, rfl⟩
  · have mem : Role.member blob ∈ tree.roles top :=
      mem_roles.mpr (.inr (.inr ⟨blob, listed, rfl⟩))
    rw [fills.normalized mem topName] at fresh ⊢
    exact ⟨_, mem, fills, fresh, rfl⟩

/-- An entry with a role whose path is new is taken. -/
lemma verifyEntry_of_fills (topName : TopName top) (header : s.HeaderSeen)
    (mem : role ∈ tree.roles top) (fills : Reads catFile top entry role)
    (fresh : role.path top ∉ s.seen) :
    verifyEntry ⟨tree.lsTree, catFile⟩ (top ++ ['/']) tree.tracked s entry =
      .ok (s.add top role) := by
  obtain ⟨some, relative, below⟩ := fills.safe mem topName
  rw [verifyEntry]
  dsimp only
  rw [fills.normalized mem topName, validDirectories_eq tree topName,
    if_neg (by simp [some, relative, below, fresh])]
  cases role with
  | globalHeader =>
    have first : s.globalHeaderSeen = false :=
      Bool.eq_false_iff.mpr fun seen => fresh (header seen)
    rw [if_pos fills.1, if_neg (by simp [fills.2, first])]
    rfl
  | directory path =>
    have listed : path ∈ tree.directories top := by simpa [mem_roles] using mem
    rw [if_neg (by rw [fills.1]; decide), if_pos fills.1,
      if_neg (not_not.mpr (show Role.path top (.directory path) ∈ _ from
        List.mem_toFinset.mpr listed))]
    rfl
  | member blob =>
    have listed : blob ∈ tree.blobs := by simpa [mem_roles] using mem
    have plain : entry.entryType = .regular ∨ entry.entryType = .symlink := by
      have content := fills.2
      cases mode : blob.mode <;> rw [mode] at content
      · exact .inl content.1
      · exact .inl content.1
      · exact .inr content.1
    rw [if_neg (by rcases plain with type | type <;> rw [type] <;> decide),
      if_neg (by rcases plain with type | type <;> rw [type] <;> decide)]
    exact verifyFile_ok.mpr ⟨blob, listed, fills, rfl⟩

/-- The header stays seen. -/
lemma Scan.HeaderSeen.add (header : s.HeaderSeen) : (s.add top role).HeaderSeen := by
  cases role with
  | globalHeader => exact fun _ => Finset.mem_insert_self ..
  | directory path => exact fun seen => Finset.mem_insert_of_mem (header seen)
  | member blob => exact fun seen => Finset.mem_insert_of_mem (header seen)

end Turn

/-! ## Runs -/

section Run

variable {tree : GitTree} {catFile : Text → List UInt8} {top : Text}
  {entries : List ArchiveEntry} {order : List Role} {s s' : Scan}

/-- The loop over entries with roles of distinct paths. -/
structure Taken (tree : GitTree) (catFile : Text → List UInt8) (top : Text) (s : Scan)
    (entries : List ArchiveEntry) (order : List Role) : Prop where
  fills : List.Forall₂ (Reads catFile top) entries order
  roles : ∀ role ∈ order, role ∈ tree.roles top
  fresh : ∀ role ∈ order, role.path top ∉ s.seen
  nodup : (order.map (Role.path top)).Nodup

/-- A role that was taken is seen. -/
lemma add_seen {role : Role} : (s.add top role).seen = insert (role.path top) s.seen := by
  cases role <;> rfl

/-- An entry with a fresh role is taken before the rest. -/
lemma Taken.cons {entry : ArchiveEntry} {role : Role} (mem : role ∈ tree.roles top)
    (fills : Reads catFile top entry role) (fresh : role.path top ∉ s.seen)
    (rest : Taken tree catFile top (s.add top role) entries order) :
    Taken tree catFile top s (entry :: entries) (role :: order) where
  fills := .cons fills rest.fills
  roles := List.forall_mem_cons.mpr ⟨mem, rest.roles⟩
  fresh := by
    refine List.forall_mem_cons.mpr ⟨fresh, fun other later seen => rest.fresh other later ?_⟩
    rw [add_seen]
    exact Finset.mem_insert_of_mem seen
  nodup := by
    rw [List.map_cons, List.nodup_cons]
    refine ⟨fun again => ?_, rest.nodup⟩
    obtain ⟨other, later, same⟩ := List.mem_map.mp again
    apply rest.fresh other later
    rw [add_seen, same]
    exact Finset.mem_insert_self ..

/-- A loop that ends has found a role for each entry. -/
lemma taken_of_foldlM (topName : TopName top)
    (h : entries.foldlM (verifyEntry ⟨tree.lsTree, catFile⟩ (top ++ ['/']) tree.tracked) s =
      .ok s') :
    ∃ order, Taken tree catFile top s entries order ∧ s' = order.foldl (Scan.add top) s := by
  induction entries generalizing s with
  | nil =>
    cases h
    exact ⟨[], ⟨.nil, nofun, nofun, .nil⟩, rfl⟩
  | cons entry entries ih =>
    rw [List.foldlM_cons] at h
    cases turn : verifyEntry ⟨tree.lsTree, catFile⟩ (top ++ ['/']) tree.tracked s entry with
    | error error =>
      rw [turn] at h
      cases h
    | ok between =>
      rw [turn] at h
      obtain ⟨role, mem, fills, fresh, rfl⟩ := role_of_verifyEntry topName turn
      obtain ⟨order, rest, rfl⟩ := ih h
      exact ⟨role :: order, .cons mem fills fresh rest, rfl⟩

/-- Entries with roles of distinct paths are all taken. -/
lemma foldlM_of_taken (topName : TopName top) (header : s.HeaderSeen)
    (taken : Taken tree catFile top s entries order) :
    entries.foldlM (verifyEntry ⟨tree.lsTree, catFile⟩ (top ++ ['/']) tree.tracked) s =
      .ok (order.foldl (Scan.add top) s) := by
  obtain ⟨fills, roles, fresh, nodup⟩ := taken
  induction fills generalizing s with
  | nil => rfl
  | @cons entry role entries order fills rest ih =>
    obtain ⟨mem, roles⟩ := List.forall_mem_cons.mp roles
    obtain ⟨first, fresh⟩ := List.forall_mem_cons.mp fresh
    rw [List.map_cons, List.nodup_cons] at nodup
    have turn := verifyEntry_of_fills topName header mem fills first
    rw [List.foldlM_cons, turn]
    refine ih header.add roles (fun other later => ?_) nodup.2
    rw [add_seen, Finset.mem_insert, not_or]
    exact ⟨fun same => nodup.1 (same ▸ List.mem_map_of_mem later), fresh other later⟩

/-- The directories collected are those of the roles taken. -/
lemma mem_archivedDirectories {path : Text} :
    path ∈ (order.foldl (Scan.add top) s).archivedDirectories ↔
      path ∈ s.archivedDirectories ∨ .directory path ∈ order := by
  induction order generalizing s with
  | nil => simp
  | cons role order ih =>
    rw [List.foldl_cons, ih]
    cases role <;> simp [Scan.add, or_assoc, or_left_comm]

/-- The files collected are those of the roles taken. -/
lemma mem_archivedFiles {name : Text} :
    name ∈ (order.foldl (Scan.add top) s).archivedFiles ↔
      name ∈ s.archivedFiles ∨ ∃ blob, .member blob ∈ order ∧ name = blob.path.text := by
  induction order generalizing s with
  | nil => simp
  | cons role order ih =>
    rw [List.foldl_cons, ih]
    cases role with
    | globalHeader => simp [Scan.add]
    | directory path => simp [Scan.add]
    | member blob => simp [Scan.add, or_and_right, exists_or, or_assoc, or_left_comm]

/-- The header is seen once its role is taken. -/
lemma globalHeaderSeen_foldl :
    (order.foldl (Scan.add top) s).globalHeaderSeen = true ↔
      s.globalHeaderSeen = true ∨ .globalHeader ∈ order := by
  induction order generalizing s with
  | nil => simp
  | cons role order ih =>
    rw [List.foldl_cons, ih]
    cases role <;> simp [Scan.add]

/-- No role is missing. -/
structure Complete (tree : GitTree) (top : Text) (s : Scan) : Prop where
  header : s.globalHeaderSeen = true
  directories : s.archivedDirectories = (tree.directories top).toFinset
  files : s.archivedFiles = (tree.tracked.map Prod.fst).toFinset

/-- A tree has every role once. -/
lemma roles_nodup (tree : GitTree) (top : Text) : (tree.roles top).Nodup := by
  have directories : ((tree.directories top).map Role.directory).Nodup :=
    (List.nodup_dedup _).map fun _ _ same => by cases same; rfl
  have members : (tree.blobs.map Role.member).Nodup :=
    (List.Nodup.of_map _ tree.unique).map fun _ _ same => by cases same; rfl
  rw [GitTree.roles, List.nodup_cons]
  refine ⟨by simp, List.nodup_append.mpr ⟨directories, members, ?_⟩⟩
  intro role mem other mem' same
  obtain ⟨path, _, rfl⟩ := List.mem_map.mp mem
  obtain ⟨blob, _, rfl⟩ := List.mem_map.mp mem'
  cases same

/-- A blob is known by its path. -/
lemma blob_unique {blob other : TreeBlob} (mem : blob ∈ tree.blobs) (mem' : other ∈ tree.blobs)
    (same : blob.path.text = other.path.text) : blob = other :=
  List.inj_on_of_nodup_map tree.unique mem mem' same

/-- The sets are complete when the roles are those of the tree. -/
lemma complete_iff (taken : Taken tree catFile top .start entries order) :
    Complete tree top (order.foldl (Scan.add top) .start) ↔ order.Perm (tree.roles top) := by
  rw [List.perm_ext_iff_of_nodup (List.Nodup.of_map _ taken.nodup) (roles_nodup tree top)]
  have names {name : Text} : name ∈ (tree.tracked.map Prod.fst).toFinset ↔
      ∃ blob ∈ tree.blobs, name = blob.path.text := by
    simp only [GitTree.tracked, List.map_map, List.mem_toFinset, List.mem_map, Function.comp,
      TreeBlob.record, eq_comm]
  constructor
  · intro complete role
    refine ⟨taken.roles role, fun mem => ?_⟩
    rcases mem_roles.mp mem with rfl | ⟨path, listed, rfl⟩ | ⟨blob, listed, rfl⟩
    · exact (globalHeaderSeen_foldl.mp complete.header).resolve_left (by decide)
    · have archived := List.mem_toFinset.mpr listed
      rw [← complete.directories, mem_archivedDirectories] at archived
      exact archived.resolve_left (Finset.notMem_empty _)
    · have archived := names.mpr ⟨blob, listed, rfl⟩
      rw [← complete.files, mem_archivedFiles] at archived
      obtain ⟨other, mem, same⟩ := archived.resolve_left (Finset.notMem_empty _)
      have known : other ∈ tree.blobs := by simpa [mem_roles] using taken.roles _ mem
      rwa [blob_unique listed known same]
  · intro same
    refine ⟨?_, ?_, ?_⟩
    · exact globalHeaderSeen_foldl.mpr (.inr ((same _).mpr (mem_roles.mpr (.inl rfl))))
    · ext path
      rw [mem_archivedDirectories, List.mem_toFinset, same, mem_roles]
      simp [Scan.start]
    · ext name
      rw [mem_archivedFiles, names]
      simp [Scan.start, same, mem_roles]

/-- The names of the entries are the paths of their roles. -/
lemma Reads.all_normalized (topName : TopName top)
    (fills : List.Forall₂ (Reads catFile top) entries order)
    (roles : ∀ role ∈ order, role ∈ tree.roles top) :
    entries.map ArchiveEntry.normalized = order.map (Role.path top) := by
  induction fills with
  | nil => rfl
  | cons fills rest ih =>
    obtain ⟨mem, roles⟩ := List.forall_mem_cons.mp roles
    rw [List.map_cons, List.map_cons, fills.normalized mem topName, ih roles]

/-- The end passes when all of the tree was there and nothing trails. -/
lemma verifyEnd_ok {trailing : Bool} (topName : TopName top) :
    verifyEnd (top ++ ['/']) tree.tracked trailing s = .ok () ↔
      trailing = false ∧ Complete tree top s := by
  rw [verifyEnd, validDirectories_eq tree topName]
  constructor
  · intro h
    split_ifs at h with more missing
    simp only [Bool.or_eq_true, Bool.not_eq_true', decide_eq_true_eq, not_or,
      Bool.not_eq_false, not_not] at missing
    exact ⟨Bool.eq_false_iff.mpr more, missing.1.1, missing.1.2, missing.2⟩
  · rintro ⟨ended, header, directories, files⟩
    simp [ended, header, directories, files]

/-- The paths of an archive repeat where the texts that they are read as do. -/
lemma bare_nodup (entries : List ArchiveEntry) :
    ((entries.map ArchiveEntry.lossy).map ArchiveEntry.bare).Nodup ↔
      (entries.map ArchiveEntry.normalized).Nodup := by
  have texts : (entries.map ArchiveEntry.lossy).map ArchiveEntry.bare =
      (entries.map ArchiveEntry.normalized).map fun text => bytesOf (String.ofList text) := by
    rw [List.map_map, List.map_map]
    exact List.map_congr_left fun entry _ => bare_lossy entry
  rw [texts]
  exact List.nodup_map_iff fun _ _ => bytesOf_inj.mp

/-- The entries of an archive are taken when those that the code sees are the tree's. -/
lemma verifyEntries_ok (topName : TopName top) (archive : Archive) :
    verifyEntries ⟨tree.lsTree, catFile⟩ (top ++ ['/']) tree.tracked archive = .ok () ↔
      ArchiveMatches tree catFile top archive.lossy := by
  have fills_all {order : List Role} :
      List.Forall₂ (Fills catFile top) archive.lossy.entries order ↔
        List.Forall₂ (Reads catFile top) archive.entries order := by
    rw [Archive.lossy, List.forall₂_map_left_iff]
    simp only [fills_lossy]
  rw [verifyEntries]
  constructor
  · intro accepted
    cases folded : archive.entries.foldlM
        (verifyEntry ⟨tree.lsTree, catFile⟩ (top ++ ['/']) tree.tracked) Scan.start with
    | error error =>
      rw [folded] at accepted
      cases accepted
    | ok s =>
      rw [folded] at accepted
      obtain ⟨ended, complete⟩ := (verifyEnd_ok topName).mp accepted
      obtain ⟨order, taken, rfl⟩ := taken_of_foldlM topName folded
      refine ⟨⟨order, (complete_iff taken).mp complete, fills_all.mpr taken.fills⟩, ?_, ended⟩
      refine (bare_nodup _).mpr ?_
      rw [Reads.all_normalized topName taken.fills taken.roles]
      exact taken.nodup
  · rintro ⟨⟨order, same, fills⟩, unique, ended⟩
    have fills := fills_all.mp fills
    have roles : ∀ role ∈ order, role ∈ tree.roles top := fun role => same.mem_iff.mp
    have unique := (bare_nodup _).mp unique
    rw [Reads.all_normalized topName fills roles] at unique
    have taken : Taken tree catFile top .start archive.entries order :=
      ⟨fills, roles, fun _ _ => Finset.notMem_empty _, unique⟩
    rw [foldlM_of_taken topName (fun seen => absurd seen (by decide)) taken]
    exact (verifyEnd_ok topName).mpr ⟨ended, (complete_iff taken).mpr same⟩

end Run

section Exact
variable {tree : GitTree} {catFile : Text → List UInt8} {source : Source} {archive : Archive}

/-- An archive is accepted when the one that the code sees is the tree's, and in no other case. -/
lemma verifySourceArchive_lossy :
    verifySourceArchive ⟨tree.lsTree, catFile⟩ source archive = .ok () ↔
      ArchiveMatches tree catFile source.top archive.lossy := by
  rw [verifySourceArchive, gitTree_lsTree, source.archivePrefix_eq]
  exact verifyEntries_ok source.topName archive

/-- An archive of the tree is accepted. -/
lemma verifySourceArchive_accepts (same : ArchiveMatches tree catFile source.top archive) :
    verifySourceArchive ⟨tree.lsTree, catFile⟩ source archive = .ok () := by
  rw [verifySourceArchive_lossy, lossy_of_isText same.isText]
  exact same

end Exact

/-- The replacement character is a name. -/
lemma replacement_normal : ∀ name ∈ [['\uFFFD']], NormalName name := by
  simp [NormalName]

/-- The example's object is a hash. -/
lemma replacement_hash : lowerHex (List.replicate 40 'a') 40 = true := by decide

/-- A tree of one file, whose name is U+FFFD. -/
def replacementTree : GitTree where
  blobs := [{
    path := ⟨[['\uFFFD']], List.cons_ne_nil _ _, replacement_normal⟩
    mode := .file
    object := List.replicate 40 'a'
    hash := replacement_hash }]
  unique := List.nodup_singleton _

def replacementSource : Source := ⟨List.replicate 40 'a', replacement_hash⟩

/-- Its archive, but that the name is the byte 0xff. -/
def invalidArchive : Archive where
  entries :=
    [⟨bytesOf (String.ofList globalHeaderPath), .xGlobalHeader, 0o666, none, []⟩,
      ⟨bytesOf (String.ofList (replacementSource.top ++ ['/'])), .directory, 0o775, none, []⟩,
      ⟨bytesOf (String.ofList (replacementSource.top ++ ['/'])) ++ [0xff], .regular, 0o664, none,
        []⟩]
  trailing := false

end Promptboot.Release
