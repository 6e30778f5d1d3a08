import Promptboot.Release.Checksums

/-!
# Checksum files verify exactly

`verify_checksums` accepts a file when and only when its lines are those that `write_checksums` writes
for the same contents, in any order. Both sides come down to a list of names with their digests:
`Covers` says that it names every file once, with the digest the file has.

The helper `parseLine_ok` says which line a name and a digest come from, `collectIdentities_ok` is
the induction over the lines, and `Covers.perm` brings two coverings of one directory together.
`verifyChecksums_ok` and `writeChecksums_ok` are the two sides, and the headline
`verifyChecksums_exact` is their equivalence.
-/

namespace Promptboot.Release

section Hex

/-- A hexadecimal digit is one byte. -/
lemma hexDigit_bytes (digit : UInt8) :
    (String.utf8EncodeChar (hexDigit digit)).length = 1 ∧
      (String.utf8EncodeChar (hexDigit digit)).all isLowerHex := by
  have digits : ("0123456789abcdef".toList.all fun c =>
      (String.utf8EncodeChar c).length == 1 && (String.utf8EncodeChar c).all isLowerHex) := by
    decide
  have listed : hexDigit digit ∈ "0123456789abcdef".toList := by
    rw [hexDigit, List.getD_eq_getElem?_getD]
    cases found : "0123456789abcdef".toList[digit.toNat]? with
    | none => decide
    | some c => exact List.mem_of_getElem? found
  have both := List.all_eq_true.mp digits _ listed
  rwa [Bool.and_eq_true, beq_iff_eq] at both

/-- Two digits a byte. -/
lemma hex_bytes (bytes : List UInt8) :
    (bytesOf (hex bytes)).length = 2 * bytes.length ∧ (bytesOf (hex bytes)).all isLowerHex := by
  rw [hex, bytesOf_ofList]
  induction bytes with
  | nil => exact ⟨rfl, rfl⟩
  | cons byte bytes ih =>
    have high := hexDigit_bytes (byte >>> 4)
    have low := hexDigit_bytes (byte &&& 15)
    simp only [List.flatMap_cons, List.cons_append, List.nil_append, List.length_append,
      List.all_append, high, low, ih, List.length_cons, Bool.and_self, and_true]
    omega

end Hex

section Digest

variable {cpu : Processor} {destination : Directory} {name text : String}

/-- A digest is 64 hexadecimal digits. -/
lemma digest_bytes (h : digest cpu destination name = .ok text) :
    (bytesOf text).length = 64 ∧ (bytesOf text).all isLowerHex := by
  rw [digest] at h
  cases read : destination.read name with
  | error error =>
    rw [read] at h
    cases h
  | ok content =>
    rw [read] at h
    cases h
    have whole := hex_bytes
      (((content.toChunks 1048576).foldl (Sha256.update cpu) Sha256.new).finish cpu).toList
    rwa [Vector.length_toList] at whole

/-- A newline is not a digit. -/
lemma newline_not_mem {bytes : List UInt8} (hex : bytes.all isLowerHex) : 10 ∉ bytes := fun mem =>
  absurd (List.all_eq_true.mp hex 10 mem) (by decide)

end Digest

/-! ## Lines -/

/-- The line of a digest and a name, without its newline. -/
def line (digest name : String) : List UInt8 := bytesOf digest ++ [32, 32] ++ bytesOf name

/-- A name that `verify_checksums` takes. -/
def SafeName (name : String) : Prop :=
  name.isEmpty = false ∧ isAbsolute name.toList = false ∧ hasParentDir name.toList = false

/-- The names to be listed are safe and have no line feed. -/
lemma checksumNames_safe {name : String} (mem : name ∈ checksumNames) :
    SafeName name ∧ 10 ∉ bytesOf name := by
  revert name
  unfold SafeName
  decide

/-- A line that was written is parsed to its name and digest. -/
lemma parseLine_line {name wanted : String} (length : (bytesOf wanted).length = 64)
    (hex : (bytesOf wanted).all isLowerHex) (safe : SafeName name) :
    parseLine (line wanted name) = .ok (name, wanted) := by
  have long : ¬ (line wanted name).length < 66 := by
    simp only [line, List.length_append, length, List.length_cons, List.length_nil]
    omega
  have front : (line wanted name).take 64 = bytesOf wanted := by
    rw [line, List.append_assoc, List.take_left' length]
  have middle : ((line wanted name).drop 64).take 2 = [32, 32] := by
    rw [line, List.append_assoc, List.drop_left' length]
    rfl
  have back : (line wanted name).drop 66 = bytesOf name := by
    rw [line, List.drop_left' (by rw [List.length_append, length]; rfl)]
  obtain ⟨some, relative, below⟩ := safe
  rw [parseLine, if_neg long]
  simp only [front, middle, back, fromUtf8_bytesOf, hex, some, relative, below]
  rfl

/-- A line that is taken is the one of its name and its digest. -/
lemma parseLine_ok {bytes : List UInt8} {name wanted : String}
    (h : parseLine bytes = .ok (name, wanted)) : bytes = line wanted name := by
  rw [parseLine] at h
  split_ifs at h with short separated
  dsimp only at h
  split at h
  · rename_i name' wanted' nameRead wantedRead
    split_ifs at h
    cases h
    rw [not_not] at separated
    rw [line, bytesOf_fromUtf8 nameRead, bytesOf_fromUtf8 wantedRead, ← separated,
      ← List.drop_drop (i := 2) (j := 64)]
    rw [List.append_assoc, List.take_append_drop, List.take_append_drop]
  · cases h

/-! ## The loop over the lines -/

/-- A line is collected unless its name was there before. -/
lemma collectIdentities_cons {identities : List (String × String)} {bytes : List UInt8}
    {rest : List (List UInt8)} {name wanted : String} (parsed : parseLine bytes = .ok (name, wanted)) :
    collectIdentities identities (bytes :: rest) =
      if identities.any (·.1 == name) then .error malformedChecksums
      else collectIdentities (identities ++ [(name, wanted)]) rest := by
  rw [collectIdentities, parsed]
  rfl

/-- The search for a name among the identities. -/
lemma any_name {identities : List (String × String)} {name : String} :
    identities.any (·.1 == name) = true ↔ name ∈ identities.map Prod.fst := by
  simp only [List.any_eq_true, beq_iff_eq, List.mem_map]

/-- What is collected names nothing twice, and its lines are those that were read. -/
lemma collectIdentities_ok {identities out : List (String × String)} {lines : List (List UInt8)}
    (h : collectIdentities identities lines = .ok out) (nodup : (identities.map Prod.fst).Nodup) :
    ∃ more, out = identities ++ more ∧ (out.map Prod.fst).Nodup ∧
      lines = more.map fun pair => line pair.2 pair.1 := by
  induction lines generalizing identities with
  | nil =>
    cases h
    exact ⟨[], (List.append_nil _).symm, nodup, rfl⟩
  | cons bytes rest ih =>
    cases parsed : parseLine bytes with
    | error error =>
      rw [collectIdentities, parsed] at h
      cases h
    | ok pair =>
      obtain ⟨name, wanted⟩ := pair
      rw [collectIdentities_cons parsed] at h
      split_ifs at h with repeated
      have fresh : name ∉ identities.map Prod.fst := fun mem => repeated (any_name.mpr mem)
      have nodup' : ((identities ++ [(name, wanted)]).map Prod.fst).Nodup := by
        rw [List.map_append, List.nodup_append]
        exact ⟨nodup, List.nodup_singleton _, by rintro a mem _ (_ | ⟨_, ⟨⟩⟩) rfl; exact fresh mem⟩
      obtain ⟨more, rfl, distinct, rfl⟩ := ih h nodup'
      refine ⟨(name, wanted) :: more, by rw [List.append_assoc, List.singleton_append], distinct, ?_⟩
      rw [List.map_cons, parseLine_ok parsed]

/-- Lines of distinct safe names are collected. -/
lemma collectIdentities_lines {identities pairs : List (String × String)}
    (good : ∀ pair ∈ pairs, parseLine (line pair.2 pair.1) = .ok pair)
    (nodup : ((identities ++ pairs).map Prod.fst).Nodup) :
    collectIdentities identities (pairs.map fun pair => line pair.2 pair.1) =
      .ok (identities ++ pairs) := by
  induction pairs generalizing identities with
  | nil =>
    rw [List.append_nil]
    rfl
  | cons pair pairs ih =>
    have fresh : pair.1 ∉ identities.map Prod.fst := by
      intro mem
      rw [List.map_append, List.nodup_append] at nodup
      exact nodup.2.2 _ mem _ (List.mem_map_of_mem (List.mem_cons_self ..)) rfl
    rw [List.map_cons, collectIdentities_cons (good pair (List.mem_cons_self ..)),
      if_neg fun repeated => fresh (any_name.mp repeated)]
    have rest := @ih (identities ++ [(pair.1, pair.2)])
      (fun pair mem => good pair (List.mem_cons_of_mem _ mem))
      (by rwa [List.append_assoc, List.singleton_append])
    rwa [List.append_assoc, List.singleton_append] at rest

/-- A loop succeeds when all its turns do. -/
lemma forM_eq_ok {α ε : Type} {f : α → Except ε Unit} {items : List α} :
    items.forM f = .ok () ↔ ∀ item ∈ items, f item = .ok () := by
  induction items with
  | nil => exact ⟨nofun, fun _ => rfl⟩
  | cons item items ih =>
    show (f item >>= fun _ => items.forM f) = .ok () ↔ _
    rw [List.forall_mem_cons, ← ih]
    cases done : f item with
    | error error => simp [bind, Except.bind]
    | ok u => simp [bind, Except.bind]

/-! ## Names with their digests -/

section Covers

variable {cpu : Processor} {destination : Directory}

/-- Every file of the release once, with the digest it has. -/
structure Covers (cpu : Processor) (destination : Directory) (pairs : List (String × String)) :
    Prop where
  nodup : (pairs.map Prod.fst).Nodup
  names : (pairs.map Prod.fst).toFinset = checksumNames
  digests : ∀ pair ∈ pairs, digest cpu destination pair.1 = .ok pair.2

/-- The text of a list of names with their digests. -/
def checksumText (pairs : List (String × String)) : List UInt8 :=
  Lines.terminated 10 (pairs.map fun pair => line pair.2 pair.1)

namespace Covers

variable {pairs pairs' : List (String × String)}

/-- There is a line. -/
lemma ne_nil (covers : Covers cpu destination pairs) :
    (pairs.map fun pair => line pair.2 pair.1) ≠ [] := by
  intro nil
  rw [List.map_eq_nil_iff] at nil
  have names := covers.names
  rw [nil] at names
  exact absurd names (by decide)

/-- Every name listed is one to be listed. -/
lemma mem (covers : Covers cpu destination pairs) {pair : String × String} (mem : pair ∈ pairs) :
    pair.1 ∈ checksumNames := by
  rw [← covers.names, List.mem_toFinset]
  exact List.mem_map_of_mem mem

/-- No line has a line feed inside. -/
lemma clean (covers : Covers cpu destination pairs) :
    ∀ bytes ∈ pairs.map fun pair => line pair.2 pair.1, 10 ∉ bytes := by
  intro bytes listed newline
  obtain ⟨pair, mem, rfl⟩ := List.mem_map.mp listed
  have digits := newline_not_mem (digest_bytes (covers.digests pair mem)).2
  have name := (checksumNames_safe (covers.mem mem)).2
  simp only [line, List.mem_append, digits, name, or_false, false_or] at newline
  exact absurd newline (by decide)

/-- Every line is parsed to its name and digest. -/
lemma parses (covers : Covers cpu destination pairs) :
    ∀ pair ∈ pairs, parseLine (line pair.2 pair.1) = .ok pair := by
  intro pair mem
  obtain ⟨length, hex⟩ := digest_bytes (covers.digests pair mem)
  exact parseLine_line length hex (checksumNames_safe (covers.mem mem)).1

/-- The order of the names is free. -/
lemma of_perm (covers : Covers cpu destination pairs) (same : pairs'.Perm pairs) :
    Covers cpu destination pairs' where
  nodup := (same.map _).nodup_iff.mpr covers.nodup
  names := by rw [← covers.names, List.toFinset_eq_of_perm _ _ (same.map Prod.fst)]
  digests pair mem := covers.digests pair (same.mem_iff.mp mem)

/-- The digest of a file, for what follows the text of a failed one. -/
def digestOr (cpu : Processor) (destination : Directory) (name : String) : String :=
  match digest cpu destination name with
  | .ok digest => digest
  | .error error => error.message

/-- The identities are the names with their digests. -/
lemma eq_map (digests : ∀ pair ∈ pairs, digest cpu destination pair.1 = .ok pair.2) :
    pairs = (pairs.map Prod.fst).map fun name => (name, digestOr cpu destination name) := by
  rw [List.map_map]
  refine (List.map_id'' (fun pair => rfl) pairs).symm.trans (List.map_congr_left ?_)
  intro pair mem
  simp only [Function.comp, digestOr, digests pair mem]

/-- Two of them are the same list but for its order. -/
lemma perm (covers : Covers cpu destination pairs) (covers' : Covers cpu destination pairs') :
    pairs.Perm pairs' := by
  rw [eq_map covers.digests, eq_map covers'.digests]
  exact (List.perm_of_nodup_nodup_toFinset_eq covers.nodup covers'.nodup
    (covers.names.trans covers'.names.symm)).map _

/-- Where all files can be read, their names in order are covered. -/
lemma sorted (covers : Covers cpu destination pairs) :
    Covers cpu destination ((checksumNames.sort (· ≤ ·)).map fun name =>
      (name, digestOr cpu destination name)) := by
  have names : (checksumNames.sort (· ≤ ·)).Perm (pairs.map Prod.fst) :=
    List.perm_of_nodup_nodup_toFinset_eq (Finset.sort_nodup ..) covers.nodup
      ((Finset.sort_toFinset ..).trans covers.names.symm)
  have all := names.map fun name => (name, digestOr cpu destination name)
  rw [← eq_map covers.digests] at all
  exact covers.of_perm all

end Covers

/-- A digest passes when it is the file's. -/
lemma verifyDigest_ok {name wanted : String} :
    verifyDigest cpu destination name wanted = .ok () ↔
      digest cpu destination name = .ok wanted := by
  rw [verifyDigest]
  cases found : digest cpu destination name with
  | error error => exact ⟨nofun, nofun⟩
  | ok digest =>
    show (if _ then _ else _) = _ ↔ _
    split_ifs with other
    · exact ⟨nofun, fun same => absurd (Except.ok.inj same) other⟩
    · exact ⟨fun _ => congrArg Except.ok (not_not.mp other), fun _ => rfl⟩

/-- `verify_checksums` accepts what covers the release. -/
lemma verifyChecksums_ok :
    verifyChecksums cpu destination = .ok () ↔
      ∃ pairs, Covers cpu destination pairs ∧
        destination.read "SHA256SUMS" = .ok (checksumText pairs) := by
  rw [verifyChecksums]
  cases read : destination.read "SHA256SUMS" with
  | error error => exact ⟨nofun, fun ⟨_, _, same⟩ => nomatch same⟩
  | ok bytes =>
    show (if _ then _ else _) = _ ↔ _
    constructor
    -- what has been collected from the lines is a covering, for every check has passed
    · intro accepted
      split_ifs at accepted with malformed
      simp only [Bool.or_eq_true, not_or, bne_iff_ne, ne_eq, not_not] at malformed
      cases collected : collectIdentities [] (bytes.dropLast.splitOn 10) with
      | error error =>
        rw [collected] at accepted
        cases accepted
      | ok identities =>
        rw [collected] at accepted
        obtain ⟨pairs, same, nodup, lines⟩ := collectIdentities_ok collected List.nodup_nil
        obtain rfl : identities = pairs := same
        change (if _ then _ else _) = _ at accepted
        split_ifs at accepted with other
        rw [not_not] at other
        refine ⟨identities, ⟨nodup, other, fun pair mem => ?_⟩, ?_⟩
        · have checked := forM_eq_ok.mp accepted pair (List.mem_mergeSort.mpr mem)
          exact verifyDigest_ok.mp checked
        · rw [checksumText, ← lines, Lines.terminated_splitOn malformed.2]
    -- lines that were written from a covering list are read back as that list
    · rintro ⟨pairs, covers, same⟩
      obtain rfl : bytes = checksumText pairs := Except.ok.inj same
      have ends : (checksumText pairs).getLast? = some 10 := Lines.getLast?_terminated covers.ne_nil
      have some : (checksumText pairs).isEmpty = false := by
        cases text : checksumText pairs with
        | nil =>
          rw [text] at ends
          cases ends
        | cons _ _ => rfl
      have collected : collectIdentities [] (pairs.map fun pair => line pair.2 pair.1) =
          .ok ([] ++ pairs) :=
        collectIdentities_lines covers.parses covers.nodup
      rw [if_neg (by simp [some, ends]), checksumText,
        Lines.splitOn_terminated covers.ne_nil covers.clean, collected]
      change (if _ then _ else _) = _
      rw [List.nil_append, if_neg (not_not.mpr covers.names), forM_eq_ok]
      intro pair mem
      exact verifyDigest_ok.mpr (covers.digests pair (List.mem_mergeSort.mp mem))

/-- The bytes of a line that is written. -/
lemma bytesOf_line (digest name : String) :
    bytesOf s!"{digest}  {name}\n" = line digest name ++ [10] := by
  have spaces : bytesOf "  " = [32, 32] := by decide
  have newline : bytesOf "\n" = [10] := by decide
  simp only [bytesOf_append, toString, spaces, newline, line]

/-- A line is written behind the others. -/
lemma writeLine_ok {output name digest : String}
    (found : Release.digest cpu destination name = .ok digest) :
    writeLine cpu destination output name = .ok (output ++ s!"{digest}  {name}\n") := by
  rw [writeLine, found]
  rfl

/-- The text is its first line and the rest. -/
lemma checksumText_cons (pair : String × String) (pairs : List (String × String)) :
    checksumText (pair :: pairs) = line pair.2 pair.1 ++ [10] ++ checksumText pairs := rfl

/-- What is written has a line for each name. -/
lemma pairs_of_foldlM {names : List String} {output final : String}
    (h : names.foldlM (writeLine cpu destination) output = .ok final) :
    ∃ pairs : List (String × String), pairs.map Prod.fst = names ∧
      (∀ pair ∈ pairs, digest cpu destination pair.1 = .ok pair.2) ∧
      bytesOf final = bytesOf output ++ checksumText pairs := by
  induction names generalizing output with
  | nil =>
    cases h
    exact ⟨[], rfl, nofun, (List.append_nil _).symm⟩
  | cons name names ih =>
    rw [List.foldlM_cons] at h
    cases found : digest cpu destination name with
    | error error =>
      rw [writeLine, found] at h
      cases h
    | ok digest =>
      rw [writeLine_ok found] at h
      obtain ⟨pairs, rfl, digests, text⟩ := ih h
      refine ⟨(name, digest) :: pairs, rfl, List.forall_mem_cons.mpr ⟨found, digests⟩, ?_⟩
      rw [text, bytesOf_append, bytesOf_line, checksumText_cons, List.append_assoc]

/-- Where every digest is found, all lines are written. -/
lemma foldlM_of_pairs {pairs : List (String × String)} {output : String}
    (digests : ∀ pair ∈ pairs, digest cpu destination pair.1 = .ok pair.2) :
    ∃ final, (pairs.map Prod.fst).foldlM (writeLine cpu destination) output = .ok final ∧
      bytesOf final = bytesOf output ++ checksumText pairs := by
  induction pairs generalizing output with
  | nil => exact ⟨output, rfl, (List.append_nil _).symm⟩
  | cons pair pairs ih =>
    obtain ⟨found, digests⟩ := List.forall_mem_cons.mp digests
    rw [List.map_cons, List.foldlM_cons, writeLine_ok found]
    obtain ⟨final, folded, text⟩ := ih digests
    refine ⟨final, folded, ?_⟩
    rw [text, bytesOf_append, bytesOf_line, checksumText_cons, List.append_assoc]

/-- `write_checksums` writes the names in order. -/
lemma writeChecksums_ok {written : List UInt8} :
    writeChecksums cpu destination = .ok written ↔
      ∃ pairs, Covers cpu destination pairs ∧
        pairs.map Prod.fst = checksumNames.sort (· ≤ ·) ∧ written = checksumText pairs := by
  have empty : bytesOf "" = [] := rfl
  have loop : writeChecksums cpu destination =
      ((checksumNames.sort (· ≤ ·)).foldlM (writeLine cpu destination) "").map bytesOf := rfl
  rw [loop]
  constructor
  · intro wrote
    cases folded : (checksumNames.sort (· ≤ ·)).foldlM (writeLine cpu destination) "" with
    | error error =>
      rw [folded] at wrote
      cases wrote
    | ok output =>
      rw [folded] at wrote
      cases wrote
      obtain ⟨pairs, names, digests, text⟩ := pairs_of_foldlM folded
      refine ⟨pairs, ⟨?_, ?_, digests⟩, names, ?_⟩
      · rw [names]
        exact Finset.sort_nodup ..
      · rw [names, Finset.sort_toFinset]
      · rw [text, empty, List.nil_append]
  · rintro ⟨pairs, covers, names, rfl⟩
    obtain ⟨final, folded, text⟩ :
        ∃ final, (pairs.map Prod.fst).foldlM (writeLine cpu destination) "" = .ok final ∧
          bytesOf final = bytesOf "" ++ checksumText pairs :=
      foldlM_of_pairs covers.digests
    rw [← names, folded, Except.map, text, empty, List.nil_append]

/-- The text is split into its lines. -/
lemma terminatedLines_checksumText {pairs : List (String × String)}
    (covers : Covers cpu destination pairs) :
    terminatedLines (checksumText pairs) =
      pairs.map fun pair => line pair.2 pair.1 ++ [10] := by
  rw [terminatedLines, checksumText, Lines.splitOn_terminated covers.ne_nil covers.clean,
    List.map_map]
  rfl

/-- The text is its lines, one behind the other. -/
lemma checksumText_eq (pairs : List (String × String)) :
    checksumText pairs = (pairs.map fun pair => line pair.2 pair.1 ++ [10]).flatten := by
  rw [checksumText, Lines.terminated, List.map_map]
  rfl

end Covers

/-- Whatever the directory holds: its checksum file is accepted when it is the lines that would be
written for it, in some order, and in no other case. -/
theorem verifyChecksums_exact (cpu : Processor) (destination : Directory) :
    verifyChecksums cpu destination = .ok () ↔
      ∃ bytes written, destination.read "SHA256SUMS" = .ok bytes ∧
        writeChecksums cpu destination = .ok written ∧
        ∃ lines : List (List UInt8), lines.Perm (terminatedLines written) ∧ bytes = lines.flatten := by
  rw [verifyChecksums_ok]
  constructor
  · rintro ⟨pairs, covers, read⟩
    have sorted := covers.sorted
    refine ⟨_, _, read, writeChecksums_ok.mpr ⟨_, sorted, ?_, rfl⟩, _, ?_, checksumText_eq pairs⟩
    · rw [List.map_map]
      exact List.map_id' _
    · rw [terminatedLines_checksumText sorted]
      exact (covers.perm sorted).map _
  · rintro ⟨bytes, written, read, wrote, lines, same, rfl⟩
    obtain ⟨pairs, covers, -, rfl⟩ := writeChecksums_ok.mp wrote
    rw [terminatedLines_checksumText covers] at same
    have reordered : Relation.Comp (· = List.map (fun pair => line pair.2 pair.1 ++ [10]) ·)
        List.Perm lines pairs := by
      rw [List.eq_map_comp_perm]
      exact same
    obtain ⟨pairs', rfl, perm⟩ := reordered
    exact ⟨pairs', covers.of_perm perm, by rw [read, checksumText_eq]⟩

end Promptboot.Release
