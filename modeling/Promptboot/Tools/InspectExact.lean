import Promptboot.Tools.InspectPasses

/-!
# The image inspector with exact arithmetic

The inspector once more, with every number computed in the width that the source gives it: a sum, a
product or a narrowing that does not fit stops it with a panic. Sums of constants are left as they
are.

Only the stages in which a number can overflow are written again, under the names that they have in
the inspector; the others are the inspector's own.
-/

namespace Promptboot.Image.Exact

/-- A number computed in so many bits. -/
def fit (bits value : Nat) : Make Nat := if value < 2 ^ bits then pure value else .fail .fault

def clusterOffset (cluster : Nat) : Make Nat :=
  if cluster < 2 then fileError s!"invalid data cluster {cluster}"
  else do
    let behind ← fit 64 ((cluster - 2) * clusterBytes)
    fit 64 (dataStart * sector + behind)

/-- The entry of a cluster in the table. -/
def tableEntry (fat : List UInt8) (cluster : Nat) : Make Nat := do
  let offset ← fit 64 (cluster * 2)
  let _ ← fit 64 (offset + 2)
  le16At fat offset

def chainLoop (fat : List UInt8) (count : Nat) (label : String) : Nat → Nat → Nat → Make (List Nat)
  | 0, _, _ => pure []
  | left + 1, index, current => do
    require (2 ≤ current ∧ current ≤ 65535) s!"{label} FAT cluster out of range"
    let following ← tableEntry fat current
    let _ ← fit 64 (index + 1)
    let wanted ← wantedEntry count index current label
    require (following = wanted) s!"{label} FAT chain mismatch cluster={current}"
    let chain ← chainLoop fat count label left (index + 1) following
    pure (current :: chain)

def inspectChain (fat : List UInt8) (first size : Nat) (label : String) : Make (List Nat) := do
  let count ← clusters size
  chainLoop fat count label count 0 first

/-- The zeros behind a file in the last of its clusters. -/
def requireSlack (offset size count : Nat) (label : String) : Make Unit := do
  let start ← fit 64 (offset + size)
  let length ← fit 64 (count * clusterBytes)
  let stop ← fit 64 (offset + length)
  requireZero start stop label

def checkEfiFiles (external : External) (fat : List UInt8) (efiEntry manifestEntry : DirEntry) :
    Make (List Nat × List Nat) := do
  let efiChain ← inspectChain fat efiEntry.first efiEntry.size "BOOTX64.EFI"
  let manifestChain ← inspectChain fat manifestEntry.first manifestEntry.size "BUILD.JSN"
  let after := efiChain.getLast?.bind fun last =>
    if last + 1 < 2 ^ 16 then some (last + 1) else none
  require (efiChain.head? = some 4 ∧ manifestChain.head? = after)
    "canonical EFI/BUILD allocation order mismatch"
  let efiOffset ← clusterOffset efiEntry.first
  let manifestOffset ← clusterOffset manifestEntry.first
  requireSlack efiOffset efiEntry.size efiChain.length "EFI file slack"
  requireSlack manifestOffset manifestEntry.size manifestChain.length "BUILD file slack"
  let embeddedManifest ← readAt manifestOffset manifestEntry.size
  require (embeddedManifest = external.manifest)
    "external manifest does not match embedded BUILD.JSN"
  require (external.manifestValid external.manifest) "BUILD.JSN invalid"
  require (external.efiListed external.manifest efiEntry.size external.efi)
    "embedded EFI does not match external artifact/BUILD.JSN"
  let same ← rangeMatchesPath efiOffset efiEntry.size external.efi
  require same "embedded EFI does not match external artifact/BUILD.JSN"
  pure (efiChain, manifestChain)

def checkModel (external : External) (fat : List UInt8) (modelRoot : DirEntry)
    (manifestChain : List Nat) : Make (List Nat) := do
  require (modelRoot.size = modelBytes) "MODEL.PBT identity/allocation mismatch"
  let after ← afterChain manifestChain
  require (modelRoot.first = after) "MODEL.PBT identity/allocation mismatch"
  require (external.modelListed external.manifest external.model)
    "MODEL.PBT identity/allocation mismatch"
  let modelChain ← inspectChain fat modelRoot.first modelBytes "MODEL.PBT"
  require (modelChain.length = modelClusters) "MODEL.PBT cluster count mismatch"
  let modelOffset ← clusterOffset modelRoot.first
  let same ← rangeMatchesPath modelOffset modelBytes external.model
  require same "embedded MODEL.PBT differs from external artifact"
  let embedded ← readAt modelOffset modelBytes
  require (external.modelDigest embedded) "embedded MODEL.PBT hash mismatch"
  requireSlack modelOffset modelBytes modelChain.length "model file slack"
  pure modelChain

def checkLicenseEntries (directory : Nat) :
    Nat → List (String × List UInt8) → List (List UInt8) → Make (List InspectedRow)
  | index, (name, short) :: names, payload :: payloads => do
    let behind ← fit 64 ((index + 2) * 32)
    let place ← fit 64 (directory + behind)
    let item ← parseEntry place
    require (item.name = short ∧ item.attributes = 0x20)
      s!"distribution directory entry mismatch: {name}"
    let rows ← checkLicenseEntries directory (index + 1) names payloads
    pure (⟨name, short, item, payload⟩ :: rows)
  | _, _, _ => pure []

def checkRows (fat : List UInt8) : Nat → List InspectedRow → Nat → Make (List Nat)
  | _, [], _ => pure []
  | index, row :: rows, next => do
    let next ← skipLicenses index next
    requireEntry row.item row.short 0x20 next row.item.size row.name
    let chain ← inspectChain fat row.item.first row.item.size row.name
    let offset ← clusterOffset row.item.first
    let same ← rangeMatchesPath offset row.item.size row.payload
    require same s!"distribution payload mismatch: {row.name}"
    requireSlack offset row.item.size chain.length s!"{row.name} file slack"
    let next ← afterChain chain
    let chains ← checkRows fat (index + 1) rows next
    pure (chain ++ chains)

/-- The numbers of clusters are narrowed to 16 bits. -/
def checkLicenses (after : Nat) (licenseRoot sourceRoot : DirEntry) : Make Nat := do
  let licensesRoot ← parseEntry (root + 160)
  let licenseCount ← clusters licenseRoot.size
  let licenseCount ← fit 16 licenseCount
  let expected ← add16 after licenseCount
  let sourceCount ← clusters sourceRoot.size
  let sourceCount ← fit 16 sourceCount
  let expected ← add16 expected sourceCount
  require (licensesRoot.name = ascii "LICENSES   " ∧ licensesRoot.attributes = 0x10 ∧
    licensesRoot.first = expected) "LICENSES directory allocation mismatch"
  let licensesDir ← clusterOffset licensesRoot.first
  let current ← parseEntry licensesDir
  let behind ← fit 64 (licensesDir + 32)
  let parent ← parseEntry behind
  requireEntry current (ascii ".          ") 0x10 licensesRoot.first 0 "LICENSES dot"
  requireEntry parent (ascii "..         ") 0x10 0 0 "LICENSES dotdot"
  pure licensesRoot.first

def checkDistributionFiles (fat : List UInt8) (modelChain : List Nat)
    (license source : String × List UInt8) (names : List (String × List UInt8))
    (licensePayload sourcePayload : List UInt8) (payloads : List (List UInt8)) :
    Make (List Nat) := do
  let licenseRoot ← parseEntry (root + 96)
  let sourceRoot ← parseEntry (root + 128)
  let after ← afterChain modelChain
  let licensesFirst ← checkLicenses after licenseRoot sourceRoot
  let licensesDir ← clusterOffset licensesFirst
  let rows ← checkLicenseEntries licensesDir 0 names payloads
  let start ← fit 64 (licensesDir + (2 + distributionNames.length - 2) * 32)
  let stop ← fit 64 (licensesDir + clusterBytes)
  requireZero start stop "LICENSES directory slack"
  let chains ← checkRows fat 0 (⟨license.1, license.2, licenseRoot, licensePayload⟩ ::
    ⟨source.1, source.2, sourceRoot, sourcePayload⟩ :: rows) after
  pure (licensesFirst :: chains)

def checkDistribution (fat : List UInt8) (modelChain : List Nat)
    (distribution : List (List UInt8)) : Make (List Nat) :=
  match distributionNames, distribution with
  | license :: source :: names, licensePayload :: sourcePayload :: payloads =>
    checkDistributionFiles fat modelChain license source names licensePayload sourcePayload payloads
  | _, _ => pure []

def checkOrphans (fat : List UInt8) (allocated : List Nat) : Nat → Nat → Make Unit
  | 0, _ => pure ()
  | left + 1, cluster => do
    let value ← tableEntry fat cluster
    require (allocated.contains cluster || value = 0)
      s!"orphan FAT entry cluster={cluster} value={value}"
    checkOrphans fat allocated left (cluster + 1)

def checkGaps : List Nat → Nat → Make Nat
  | [], cursor => pure cursor
  | cluster :: rest, cursor => do
    let offset ← clusterOffset cluster
    checkGap cursor offset
    let stop ← fit 64 (offset + clusterBytes)
    checkGaps rest (max cursor stop)

/-- The checks up to the model: the table, the distribution's files, the clusters before the
model's, and the model's. -/
def checkFiles (external : External) :
    Make (List UInt8 × List (List UInt8) × List Nat × List Nat) := do
  let image ← .get
  require (image.length = imageBytes) s!"image bytes {image.length} != {imageBytes}"
  let fat ← checkTables
  let (modelRoot, distribution) ← checkRoot external
  let (efiEntry, manifestEntry) ← checkEfiDirectories
  let (efiChain, manifestChain) ← checkEfiFiles external fat efiEntry manifestEntry
  let modelChain ← checkModel external fat modelRoot manifestChain
  pure (fat, distribution, [2, 3] ++ efiChain ++ manifestChain, modelChain)

def inspectImage (external : External) : Make Unit := do
  let (fat, distribution, before, modelChain) ← checkFiles external
  let licenses ← checkDistribution fat modelChain distribution
  let allocated := before ++ modelChain ++ licenses
  checkOrphans fat allocated (2 ^ 16 - 4) 4
  let cursor ← checkGaps (ordered allocated) (dataStart * sector)
  requireZero cursor imageBytes "trailing unallocated data"

end Promptboot.Image.Exact
