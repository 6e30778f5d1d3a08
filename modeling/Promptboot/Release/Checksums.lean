import Promptboot.Hash.Sha256
import Promptboot.Release.Path
import Mathlib.Data.Finset.Sort
import Mathlib.Data.List.Defs
import Promptboot.Lib.Lines

/-!
# Checksum files

`write_checksums` and `verify_checksums` of a release directory (`release.rs`), over the directory's
contents. A set or a map of the source that is walked in order is walked in the order of its keys.

`verifyChecksums` reads what `writeChecksums` writes. The two walk the directory on their own: the
one by the table of expected names, the other by the lines of the file.
-/

namespace Promptboot.Release

def malformedChecksums : ReleaseError := validation "malformed SHA256SUMS"

/-- A directory: what reading a file below it returns, its bytes or the error of the system. -/
structure Directory where
  path : String
  read : String → Except String (List UInt8)

def imageMembers : List String :=
  ["BOOTX64.EFI", "BUILD.JSN", "MODEL.PBT", "promptboot.img", "promptboot-media-inspection.json"]

/-- `TRACKED_DISTRIBUTION`: the source of each file and its target. -/
def trackedDistribution : List (String × String) :=
  [("LICENSE", "LICENSE"),
    ("THIRD_PARTY_NOTICES.md", "THIRD_PARTY_NOTICES.md"),
    ("LICENSES/QWEN-APACHE-2.0.txt", "LICENSES/QWEN-APACHE-2.0.txt"),
    ("LICENSES/LLAMA-MIT.txt", "LICENSES/LLAMA-MIT.txt"),
    ("LICENSES/libm-0.2.11.txt", "LICENSES/libm-0.2.11.txt"),
    ("LICENSES/RUST-1.97.1-COPYRIGHT-library.html", "LICENSES/RUST-1.97.1-COPYRIGHT-library.html"),
    ("LICENSES/compiler-builtins-0.1.160.txt", "LICENSES/compiler-builtins-0.1.160.txt")]

def expectedReleaseFiles : Finset String :=
  (imageMembers ++ trackedDistribution.map Prod.snd ++
    ["SOURCE.TGZ", "RUN.md", "release.json", "SHA256SUMS"]).toFinset

/-- `DIGITS[digit]` -/
def hexDigit (digit : UInt8) : Char := "0123456789abcdef".toList.getD digit.toNat '0'

def hex (bytes : List UInt8) : String :=
  String.ofList (bytes.flatMap fun (byte : UInt8) => [hexDigit (byte >>> 4), hexDigit (byte &&& 15)])

section Directory

variable (cpu : Processor) (destination : Directory)

/-- `digest` of a file, read in pieces of a mebibyte. -/
def digest (name : String) : Except ReleaseError String :=
  match destination.read name with
  | .error error =>
    let path := destination.path
    .error (validation s!"cannot open {path}/{name}: {error}")
  | .ok content =>
    let state := (content.toChunks 1048576).foldl (Sha256.update cpu) Sha256.new
    .ok (hex (state.finish cpu).toList)

/-- The names of the files with a checksum. -/
def checksumNames : Finset String := expectedReleaseFiles.erase "SHA256SUMS"

/-- A turn of `write_checksums`. -/
def writeLine (output name : String) : Except ReleaseError String := do
  let digest ← digest cpu destination name
  .ok (output ++ s!"{digest}  {name}\n")

/-- `write_checksums`, the bytes it writes. -/
def writeChecksums : Except ReleaseError (List UInt8) := do
  let output ← (checksumNames.sort (· ≤ ·)).foldlM (writeLine cpu destination) ""
  .ok (bytesOf output)

/-- `byte.is_ascii_digit() || (b'a'..=b'f').contains(byte)` -/
def isLowerHex (byte : UInt8) : Bool := 48 ≤ byte && byte ≤ 57 || 97 ≤ byte && byte ≤ 102

/-- A line's name with the digest it wants. -/
def parseLine (line : List UInt8) : Except ReleaseError (String × String) :=
  if line.length < 66 then .error malformedChecksums
  else
    let wanted := line.take 64
    if (line.drop 64).take 2 ≠ [32, 32] then .error malformedChecksums
    else
      match fromUtf8 (line.drop 66), fromUtf8 wanted with
      | some name, some wantedText =>
        if !wanted.all isLowerHex || name.isEmpty || isAbsolute name.toList || hasParentDir name.toList then
          .error malformedChecksums
        else
          .ok (name, wantedText)
      | _, _ => .error malformedChecksums

/-- The loop over the lines; a name that is there already is malformed. -/
def collectIdentities (identities : List (String × String)) :
    List (List UInt8) → Except ReleaseError (List (String × String))
  | [] => .ok identities
  | line :: rest => do
    let (name, wanted) ← parseLine line
    if identities.any (·.1 == name) then .error malformedChecksums
    else collectIdentities (identities ++ [(name, wanted)]) rest

/-- The last loop of `verify_checksums` on one file. -/
def verifyDigest (name wanted : String) : Except ReleaseError Unit := do
  let digest ← digest cpu destination name
  if digest ≠ wanted then .error (validation "release checksum mismatch") else .ok ()

/-- `verify_checksums` -/
def verifyChecksums : Except ReleaseError Unit := do
  let bytes ← (destination.read "SHA256SUMS").mapError fun error =>
    validation s!"cannot read SHA256SUMS: {error}"
  if bytes.isEmpty || bytes.getLast? != some 10 then .error malformedChecksums
  else
    let identities ← collectIdentities [] (bytes.dropLast.splitOn 10)
    if (identities.map Prod.fst).toFinset ≠ checksumNames then
      .error (validation "SHA256SUMS does not cover release exactly")
    else
      (identities.mergeSort fun left right => left.1 ≤ right.1).forM fun (name, wanted) =>
        verifyDigest cpu destination name wanted

end Directory

/-- The lines of a file, each with its newline. -/
def terminatedLines (bytes : List UInt8) : List (List UInt8) :=
  (bytes.dropLast.splitOn 10).map (· ++ [10])

end Promptboot.Release
