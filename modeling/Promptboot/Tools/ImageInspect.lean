import Promptboot.Tools.Image

/-!
# The image inspector

`inspect_image` (`image.rs`) with everything it calls that looks at the image. The external files
are their bytes, and what is asked of the manifest and of digests are predicates. The state is the
image; the report is left out, and with it the digests that are only reported.

The stages are definitions of their own, in the order of the source: the tables, the root directory,
the directories and files of the boot path, the model, the distribution, and what has to be zero.
`inspectImage` runs them.
-/

namespace Promptboot.Image

/-- What the image is compared with. -/
structure External where
  manifest : List UInt8
  efi : List UInt8
  model : List UInt8
  distribution : Option (String → Option (List UInt8))
  /-- The manifest is JSON and `validate_manifest` accepts it. -/
  manifestValid : List UInt8 → Bool
  /-- The manifest lists the size and the digest of the external EFI file. -/
  efiListed : List UInt8 → Nat → List UInt8 → Bool
  /-- The manifest lists the model's digest, and the external model has it. -/
  modelListed : List UInt8 → List UInt8 → Bool
  /-- The embedded model has the model's digest. -/
  modelDigest : List UInt8 → Bool

structure DirEntry where
  name : List UInt8
  attributes : UInt8
  first : Nat
  size : Nat
  raw : List UInt8

def readAt (offset length : Nat) : Make (List UInt8) := fun image =>
  if offset + length ≤ image.length then (.ok (image.slice offset length), image)
  else (.error (.error s!"image read at {offset} failed"), image)

/-- `u16::from_le_bytes(bytes[offset..offset + 2].try_into().unwrap())` -/
def le16At (bytes : List UInt8) (offset : Nat) : Make Nat :=
  if offset + 2 ≤ bytes.length then
    pure ((bytes.getD offset 0).toNat + 2 ^ 8 * (bytes.getD (offset + 1) 0).toNat)
  else .fail .fault

def parseEntry (offset : Nat) : Make DirEntry := do
  let bytes ← readAt offset 32
  let first ← le16At bytes 26
  let low ← le16At bytes 28
  let high ← le16At bytes 30
  pure ⟨bytes.take 11, bytes.getD 11 0, first, low + 2 ^ 16 * high, bytes⟩

def requireEntry (actual : DirEntry) (name : List UInt8) (attributes : UInt8) (first size : Nat)
    (label : String) : Make Unit := do
  let expected ← entry name attributes first size
  require (actual.raw = expected) s!"{label} directory entry mismatch"

/-- The loop of `require_zero`, a piece of at most a mebibyte at a time. -/
def zeroLoop (label : String) (position remaining : Nat) : Make Unit :=
  if remaining = 0 then pure ()
  else do
    let wanted := min remaining (1024 * 1024)
    let buffer ← readAt position wanted
    require (buffer.all (· = 0)) s!"nonzero bytes in {label}"
    zeroLoop label (position + wanted) (remaining - wanted)
termination_by remaining

def requireZero (start stop : Nat) (label : String) : Make Unit := do
  require (start ≤ stop) s!"{label} range is inverted"
  zeroLoop label start (stop - start)

/-- The loop of `range_matches_path`, a piece of at most a mebibyte at a time. -/
def matchLoop (position : Nat) (external : List UInt8) (remaining : Nat) : Make Bool :=
  if remaining = 0 then pure true
  else do
    let wanted := min remaining (1024 * 1024)
    let left ← readAt position wanted
    if left ≠ external.take wanted then pure false
    else matchLoop (position + wanted) (external.drop wanted) (remaining - wanted)
termination_by remaining

def rangeMatchesPath (offset length : Nat) (external : List UInt8) : Make Bool :=
  if external.length ≠ length then pure false else matchLoop offset external length

/-- What the entry of a chain's cluster has to be. -/
def wantedEntry (count index current : Nat) (label : String) : Make Nat :=
  if index + 1 = count then pure 0xffff
  else checkedAdd16 current 1 s!"{label} FAT next cluster overflow"

/-- The loop of `file_chain`, `left` turns before its end. -/
def chainLoop (fat : List UInt8) (count : Nat) (label : String) : Nat → Nat → Nat → Make (List Nat)
  | 0, _, _ => pure []
  | left + 1, index, current => do
    require (2 ≤ current ∧ current ≤ 65535) s!"{label} FAT cluster out of range"
    let following ← le16At fat (current * 2)
    let wanted ← wantedEntry count index current label
    require (following = wanted) s!"{label} FAT chain mismatch cluster={current}"
    let chain ← chainLoop fat count label left (index + 1) following
    pure (current :: chain)

def inspectChain (fat : List UInt8) (first size : Nat) (label : String) : Make (List Nat) := do
  let count ← clusters size
  chainLoop fat count label count 0 first

/-- `a + b` in 16 bits, unchecked. -/
def add16 (a b : Nat) : Make Nat :=
  if a + b < 2 ^ 16 then pure (a + b) else .fail .fault

/-- `*chain.last().unwrap() + 1` -/
def afterChain (chain : List Nat) : Make Nat :=
  match chain.getLast? with
  | some last => add16 last 1
  | none => .fail .fault

/-- The loop of `distribution_external`. -/
def externalRows (root : String → Option (List UInt8)) :
    List (String × List UInt8) → Make (List (List UInt8))
  | [] => pure []
  | (name, _) :: names =>
    match root name with
    | none => fileError s!"distribution payload missing/empty: {name}"
    | some payload => do
      require (payload.length ≠ 0) s!"distribution payload missing/empty: {name}"
      let payloads ← externalRows root names
      pure (payload :: payloads)

def distributionExternal (root : Option (String → Option (List UInt8))) :
    Make (List (List UInt8)) :=
  match root with
  | none => pure []
  | some root => externalRows root distributionNames

/-- The boot sector and the two tables; the table is the result. -/
def checkTables : Make (List UInt8) := do
  let bootSector ← readAt 0 512
  require (bootSector = boot) "BPB mismatch"
  let fat ← readAt sector (sectorsPerFat * sector)
  let fat2 ← readAt ((1 + sectorsPerFat) * sector) (sectorsPerFat * sector)
  require (fat = fat2) "FAT copies differ"
  require (fat.take 8 = reserved) "reserved/directory FAT entries mismatch"
  pure fat

/-- The root directory; the model's entry is the result. -/
def checkRoot (external : External) : Make (DirEntry × List (List UInt8)) := do
  let volume ← parseEntry root
  let efiRoot ← parseEntry (root + 32)
  let modelRoot ← parseEntry (root + 64)
  requireEntry volume (ascii "PROMPTBOOT ") 0x08 0 0 "volume"
  requireEntry efiRoot (ascii "EFI        ") 0x10 2 0 "EFI"
  require (modelRoot.name = ascii "MODEL   PBT" ∧ modelRoot.attributes = 0x20)
    "MODEL.PBT root entry mismatch"
  let distribution ← distributionExternal external.distribution
  let rootUsed := if distribution.isEmpty then 96 else 192
  requireZero (root + rootUsed) (root + rootSectors * sector) "root directory slack"
  pure (modelRoot, distribution)

/-- One entry of a directory that is fixed. -/
def checkEntry (offset : Nat) (name : List UInt8) (first : Nat) (label : String) : Make Unit := do
  let actual ← parseEntry offset
  requireEntry actual name 0x10 first 0 label

/-- The directories of the EFI file; its entry and the manifest's are the result. -/
def checkEfiDirectories : Make (DirEntry × DirEntry) := do
  let efiDir ← clusterOffset 2
  checkEntry efiDir (ascii ".          ") 2 "EFI directory"
  checkEntry (efiDir + 32) (ascii "..         ") 0 "EFI directory"
  checkEntry (efiDir + 64) (ascii "BOOT       ") 3 "EFI directory"
  requireZero (efiDir + 96) (efiDir + clusterBytes) "EFI directory slack"
  let bootDir ← clusterOffset 3
  let dot ← parseEntry bootDir
  let dotdot ← parseEntry (bootDir + 32)
  requireEntry dot (ascii ".          ") 0x10 3 0 "BOOT dot"
  requireEntry dotdot (ascii "..         ") 0x10 2 0 "BOOT dotdot"
  let efiEntry ← parseEntry (bootDir + 64)
  let manifestEntry ← parseEntry (bootDir + 96)
  require (efiEntry.name = ascii "BOOTX64 EFI" ∧ efiEntry.attributes = 0x20 ∧
    manifestEntry.name = ascii "BUILD   JSN" ∧ manifestEntry.attributes = 0x20)
    "BOOT file order mismatch"
  requireEntry efiEntry (ascii "BOOTX64 EFI") 0x20 efiEntry.first efiEntry.size "BOOTX64.EFI"
  requireEntry manifestEntry (ascii "BUILD   JSN") 0x20 manifestEntry.first manifestEntry.size
    "BUILD.JSN"
  requireZero (bootDir + 128) (bootDir + clusterBytes) "BOOT directory slack"
  pure (efiEntry, manifestEntry)

/-- The EFI file and the manifest; their chains are the result. -/
def checkEfiFiles (external : External) (fat : List UInt8) (efiEntry manifestEntry : DirEntry) :
    Make (List Nat × List Nat) := do
  let efiChain ← inspectChain fat efiEntry.first efiEntry.size "BOOTX64.EFI"
  let manifestChain ← inspectChain fat manifestEntry.first manifestEntry.size "BUILD.JSN"
  let after := efiChain.getLast?.bind fun last => if last + 1 < 2 ^ 16 then some (last + 1) else none
  require (efiChain.head? = some 4 ∧ manifestChain.head? = after)
    "canonical EFI/BUILD allocation order mismatch"
  let efiOffset ← clusterOffset efiEntry.first
  let manifestOffset ← clusterOffset manifestEntry.first
  requireZero (efiOffset + efiEntry.size) (efiOffset + efiChain.length * clusterBytes)
    "EFI file slack"
  requireZero (manifestOffset + manifestEntry.size)
    (manifestOffset + manifestChain.length * clusterBytes) "BUILD file slack"
  let embeddedManifest ← readAt manifestOffset manifestEntry.size
  require (embeddedManifest = external.manifest)
    "external manifest does not match embedded BUILD.JSN"
  require (external.manifestValid external.manifest) "BUILD.JSN invalid"
  require (external.efiListed external.manifest efiEntry.size external.efi)
    "embedded EFI does not match external artifact/BUILD.JSN"
  let same ← rangeMatchesPath efiOffset efiEntry.size external.efi
  require same "embedded EFI does not match external artifact/BUILD.JSN"
  pure (efiChain, manifestChain)

/-- The model; its chain is the result. -/
def checkModel (external : External) (fat : List UInt8) (modelRoot : DirEntry)
    (manifestChain : List Nat) : Make (List Nat) := do
  require (modelRoot.size = modelBytes) "MODEL.PBT identity/allocation mismatch"
  let after ← afterChain manifestChain
  require (modelRoot.first = after) "MODEL.PBT identity/allocation mismatch"
  require (external.modelListed external.manifest external.model)
    "MODEL.PBT identity/allocation mismatch"
  let modelChain ← inspectChain fat modelRoot.first modelBytes "MODEL.PBT"
  require (modelChain.length = modelClusters) "MODEL.PBT cluster count mismatch"
  let modelOffset ← clusterOffset modelRoot.first
  let same ← rangeMatchesPath modelOffset modelBytes external.model
  require same "embedded MODEL.PBT differs from external artifact"
  let embedded ← readAt modelOffset modelBytes
  require (external.modelDigest embedded) "embedded MODEL.PBT hash mismatch"
  requireZero (modelOffset + modelBytes) (modelOffset + modelChain.length * clusterBytes)
    "model file slack"
  pure modelChain

/-- A file of the distribution: its names, its entry and the external file. -/
structure InspectedRow where
  name : String
  short : List UInt8
  item : DirEntry
  payload : List UInt8

/-- The loop over the entries of the licenses directory. -/
def checkLicenseEntries (directory : Nat) :
    Nat → List (String × List UInt8) → List (List UInt8) → Make (List InspectedRow)
  | index, (name, short) :: names, payload :: payloads => do
    let item ← parseEntry (directory + (index + 2) * 32)
    require (item.name = short ∧ item.attributes = 0x20)
      s!"distribution directory entry mismatch: {name}"
    let rows ← checkLicenseEntries directory (index + 1) names payloads
    pure (⟨name, short, item, payload⟩ :: rows)
  | _, _, _ => pure []

/-- Before the third file a cluster is left for the licenses directory. -/
def skipLicenses (index next : Nat) : Make Nat :=
  if index = 2 then add16 next 1 else pure next

/-- The loop over the files of the distribution; their chains are the result. -/
def checkRows (fat : List UInt8) : Nat → List InspectedRow → Nat → Make (List Nat)
  | _, [], _ => pure []
  | index, row :: rows, next => do
    let next ← skipLicenses index next
    requireEntry row.item row.short 0x20 next row.item.size row.name
    let chain ← inspectChain fat row.item.first row.item.size row.name
    let offset ← clusterOffset row.item.first
    let same ← rangeMatchesPath offset row.item.size row.payload
    require same s!"distribution payload mismatch: {row.name}"
    requireZero (offset + row.item.size) (offset + chain.length * clusterBytes)
      s!"{row.name} file slack"
    let next ← afterChain chain
    let chains ← checkRows fat (index + 1) rows next
    pure (chain ++ chains)

/-- The directory of the licenses; its first cluster is the result. -/
def checkLicenses (after : Nat) (licenseRoot sourceRoot : DirEntry) : Make Nat := do
  let licensesRoot ← parseEntry (root + 160)
  let licenseCount ← clusters licenseRoot.size
  let expected ← add16 after (licenseCount % 2 ^ 16)
  let sourceCount ← clusters sourceRoot.size
  let expected ← add16 expected (sourceCount % 2 ^ 16)
  require (licensesRoot.name = ascii "LICENSES   " ∧ licensesRoot.attributes = 0x10 ∧
    licensesRoot.first = expected) "LICENSES directory allocation mismatch"
  let licensesDir ← clusterOffset licensesRoot.first
  let current ← parseEntry licensesDir
  let parent ← parseEntry (licensesDir + 32)
  requireEntry current (ascii ".          ") 0x10 licensesRoot.first 0 "LICENSES dot"
  requireEntry parent (ascii "..         ") 0x10 0 0 "LICENSES dotdot"
  pure licensesRoot.first

/-- The files of the distribution; the clusters of all of it are the result. -/
def checkDistributionFiles (fat : List UInt8) (modelChain : List Nat)
    (license source : String × List UInt8) (names : List (String × List UInt8))
    (licensePayload sourcePayload : List UInt8) (payloads : List (List UInt8)) :
    Make (List Nat) := do
  let licenseRoot ← parseEntry (root + 96)
  let sourceRoot ← parseEntry (root + 128)
  let after ← afterChain modelChain
  let licensesFirst ← checkLicenses after licenseRoot sourceRoot
  let licensesDir ← clusterOffset licensesFirst
  let rows ← checkLicenseEntries licensesDir 0 names payloads
  requireZero (licensesDir + (2 + distributionNames.length - 2) * 32) (licensesDir + clusterBytes)
    "LICENSES directory slack"
  let chains ← checkRows fat 0 (⟨license.1, license.2, licenseRoot, licensePayload⟩ ::
    ⟨source.1, source.2, sourceRoot, sourcePayload⟩ :: rows) after
  pure (licensesFirst :: chains)

def checkDistribution (fat : List UInt8) (modelChain : List Nat)
    (distribution : List (List UInt8)) : Make (List Nat) :=
  match distributionNames, distribution with
  | license :: source :: names, licensePayload :: sourcePayload :: payloads =>
    checkDistributionFiles fat modelChain license source names licensePayload sourcePayload payloads
  | _, _ => pure []

/-- The loop over the table for entries of clusters that nothing has. -/
def checkOrphans (fat : List UInt8) (allocated : List Nat) : Nat → Nat → Make Unit
  | 0, _ => pure ()
  | left + 1, cluster => do
    let value ← le16At fat (cluster * 2)
    require (allocated.contains cluster || value = 0)
      s!"orphan FAT entry cluster={cluster} value={value}"
    checkOrphans fat allocated left (cluster + 1)

/-- What lies between the cursor and the next allocated cluster. -/
def checkGap (cursor offset : Nat) : Make Unit :=
  if cursor < offset then requireZero cursor offset "unallocated data" else pure ()

/-- The loop over the allocated clusters, in order, for what lies between them. -/
def checkGaps : List Nat → Nat → Make Nat
  | [], cursor => pure cursor
  | cluster :: rest, cursor => do
    let offset ← clusterOffset cluster
    checkGap cursor offset
    checkGaps rest (max cursor (offset + clusterBytes))

/-- A set of 16-bit numbers in order. -/
def ordered (allocated : List Nat) : List Nat :=
  (List.range (2 ^ 16)).filter allocated.contains

def inspectImage (external : External) : Make Unit := do
  let image ← .get
  require (image.length = imageBytes) s!"image bytes {image.length} != {imageBytes}"
  let fat ← checkTables
  let (modelRoot, distribution) ← checkRoot external
  let (efiEntry, manifestEntry) ← checkEfiDirectories
  let (efiChain, manifestChain) ← checkEfiFiles external fat efiEntry manifestEntry
  let modelChain ← checkModel external fat modelRoot manifestChain
  let licenses ← checkDistribution fat modelChain distribution
  let allocated := [2, 3] ++ efiChain ++ manifestChain ++ modelChain ++ licenses
  checkOrphans fat allocated (2 ^ 16 - 4) 4
  let cursor ← checkGaps (ordered allocated) (dataStart * sector)
  requireZero cursor imageBytes "trailing unallocated data"

end Promptboot.Image
