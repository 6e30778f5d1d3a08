import Promptboot.Tools.Stop
import Promptboot.Lib.Buffer

/-!
# The FAT16 image builder

`build_fat_image` (`image.rs`) with everything it calls. The state is the image file; a payload is
its bytes, with a size that does not change while the image is built. The operating system's own
errors (a file that cannot be opened, a full disk) are left out.

`Make` is the computation over the image file. The allocation (`allocate`) is done before the first
byte is written, so that `buildFat`, `root` and `writeDistribution` are given the clusters.
-/

namespace Promptboot.Image

def sector : Nat := 512
def sectors : Nat := 1048576
def sectorsPerCluster : Nat := 16
def sectorsPerFat : Nat := 256
def rootEntries : Nat := 512
def rootSectors : Nat := 32
def dataStart : Nat := 545
def clusterBytes : Nat := 8192
def imageBytes : Nat := 536870912
def modelBytes : Nat := 426762944
def modelClusters : Nat := 52096
def volumeId : Nat := 0x544f4250

/-- A computation that works on the image file. -/
abbrev Make := Fallible Buffer Stop

/-- The bytes of a byte string literal. -/
def ascii (text : String) : List UInt8 := text.toList.map fun c => UInt8.ofNat c.toNat

def le16 (value : Nat) : List UInt8 := [UInt8.ofNat value, UInt8.ofNat (value / 2 ^ 8)]

def le32 (value : Nat) : List UInt8 :=
  [UInt8.ofNat value, UInt8.ofNat (value / 2 ^ 8), UInt8.ofNat (value / 2 ^ 16),
    UInt8.ofNat (value / 2 ^ 24)]

def distributionNames : List (String × List UInt8) :=
  [("LICENSE", ascii "LICENSE    "),
    ("SOURCE.TGZ", ascii "SOURCE  TGZ"),
    ("LICENSES/3RDPARTY.TXT", ascii "3RDPARTYTXT"),
    ("LICENSES/QWEN.TXT", ascii "QWEN    TXT"),
    ("LICENSES/LLAMA.TXT", ascii "LLAMA   TXT"),
    ("LICENSES/LIBM.TXT", ascii "LIBM    TXT"),
    ("LICENSES/RUSTCORE.HTM", ascii "RUSTCOREHTM"),
    ("LICENSES/RUSTCB.TXT", ascii "RUSTCB  TXT")]

structure DistributionRow where
  short : List UInt8
  payload : List UInt8
  first : Nat
  size : Nat

/-- `checked_add` on 16 bits, with its error. -/
def checkedAdd16 (a b : Nat) (message : String) : Make Nat :=
  if a + b < 2 ^ 16 then pure (a + b) else fileError message

/-- `u16::try_from`, with its error. -/
def toU16 (value : Nat) (message : String) : Make Nat :=
  if value < 2 ^ 16 then pure value else fileError message

def clusters (size : Nat) : Make Nat :=
  if size = 0 then fileError "files embedded in the image must be nonempty"
  else if size + (clusterBytes - 1) < 2 ^ 64 then pure ((size + (clusterBytes - 1)) / clusterBytes)
  else fileError "cluster count overflow"

/-- `unwrap` -/
def unwrap {α : Type} (c : Make α) : Make α := fun image =>
  match c image with
  | (.ok value, image) => (.ok value, image)
  | (.error _, image) => (.error .fault, image)

def clusterOffset (cluster : Nat) : Make Nat :=
  if cluster < 2 then fileError s!"invalid data cluster {cluster}"
  else pure (dataStart * sector + (cluster - 2) * clusterBytes)

/-- The bytes of a directory entry. -/
def entryBytes (name : List UInt8) (attributes : UInt8) (first size : Nat) : List UInt8 :=
  name ++ [attributes, 0, 0] ++ le16 0 ++ le16 0x21 ++ le16 0x21 ++ [0, 0] ++ le16 0 ++
    le16 0x21 ++ le16 first ++ le32 size

def entry (name : List UInt8) (attributes : UInt8) (first size : Nat) : Make (List UInt8) :=
  if size < 2 ^ 32 then pure (entryBytes name attributes first size)
  else fileError "directory file size exceeds u32"

def writeAt (offset : Nat) (bytes : List UInt8) : Make Unit := .modify (·.put offset bytes)

def copyInto (payload : List UInt8) (first size : Nat) : Make Unit := do
  require (payload.length = size) "payload size changed"
  let offset ← clusterOffset first
  writeAt offset payload

/-- `slice[offset..offset + bytes.len()].copy_from_slice(bytes)` -/
def copySlice (buffer : Buffer) (offset : Nat) (bytes : List UInt8) : Make Buffer :=
  if offset + bytes.length ≤ buffer.length then pure (buffer.put offset bytes) else .fail .fault

/-- The loop of `chain_fat` from `index` on, `left` turns before its end. -/
def chainFrom (fat : Buffer) (first count : Nat) : Nat → Nat → Make Buffer
  | 0, _ => pure fat
  | left + 1, index => do
    let cluster ← checkedAdd first index "FAT cluster overflow"
    require (cluster < 65536) "FAT allocation exceeds table"
    let value := if index + 1 = count then 0xffff else cluster + 1
    let fat ← copySlice fat (cluster * 2) (le16 value)
    chainFrom fat first count left (index + 1)

def chainFat (fat : Buffer) (first count : Nat) : Make Buffer :=
  chainFrom fat first count count 0

/-- Before the third file a cluster is left for the licenses directory. -/
def skipDirectory (index first : Nat) : Make Nat :=
  if index = 2 then checkedAdd16 first 1 "distribution allocation overflow" else pure first

/-- The loop of `distribution_rows`. -/
def distributionLoop (root : String → Option (List UInt8)) :
    Nat → List (String × List UInt8) → Nat → Make (List DistributionRow)
  | _, [], _ => pure []
  | index, (name, short) :: names, first => do
    let first ← skipDirectory index first
    match root name with
    | none => fileError s!"distribution payload missing {name}"
    | some payload => do
      let size := payload.length
      require (size ≠ 0) s!"distribution payload is empty: {name}"
      let count ← clusters size
      let count ← toU16 count "distribution cluster overflow"
      let next ← checkedAdd16 first count "distribution allocation overflow"
      let rows ← distributionLoop root (index + 1) names next
      pure (⟨short, payload, first, size⟩ :: rows)

def distributionRows (root : Option (String → Option (List UInt8))) (first : Nat) :
    Make (List DistributionRow × Nat) :=
  match root with
  | none => pure ([], 0)
  | some root => do
    let rows ← distributionLoop root 0 distributionNames first
    match rows[2]? with
    | none => .fail .fault
    | some row => if row.first = 0 then .fail .fault else pure (rows, row.first - 1)

/-- Where everything goes. -/
structure Layout where
  efiFirst : Nat
  manifestFirst : Nat
  modelFirst : Nat
  distribution : List DistributionRow
  licensesFirst : Nat

def allocationEnd (distribution : List DistributionRow) (afterModel : Nat) : Make Nat :=
  match distribution.getLast? with
  | some row => do
    let count ← unwrap (clusters row.size)
    pure (row.first + count)
  | none => pure afterModel

/-- The allocation, before the image file is created. -/
def allocate (efiSize manifestSize modelSize : Nat)
    (root : Option (String → Option (List UInt8))) : Make Layout := do
  require (modelSize = modelBytes) s!"packed model size {modelSize} != {modelBytes}"
  let efiFirst := 4
  let count ← clusters efiSize
  let count ← toU16 count "EFI allocation overflow"
  let manifestFirst ← checkedAdd16 efiFirst count "EFI allocation overflow"
  let count ← clusters manifestSize
  let count ← toU16 count "manifest allocation overflow"
  let modelFirst ← checkedAdd16 manifestFirst count "manifest allocation overflow"
  let count ← clusters modelSize
  require (count = modelClusters) "model cluster count changed"
  let afterModel ← checkedAdd16 modelFirst modelClusters "model allocation overflow"
  let (distribution, licensesFirst) ← distributionRows root afterModel
  let stop ← allocationEnd distribution afterModel
  require (stop ≤ 65503) "image allocation exceeds fixed FAT16 geometry"
  pure ⟨efiFirst, manifestFirst, modelFirst, distribution, licensesFirst⟩

def boot : List UInt8 :=
  [0xeb, 0x3c, 0x90] ++ ascii "PRMPTBOT" ++ le16 sector ++ [UInt8.ofNat sectorsPerCluster] ++
    le16 1 ++ [2] ++ le16 rootEntries ++ [0, 0] ++ [0xf8] ++ le16 sectorsPerFat ++ le16 63 ++
    le16 255 ++ [0, 0, 0, 0] ++ le32 sectors ++ [0x80, 0, 0x29] ++ le32 volumeId ++
    ascii "PROMPTBOOT " ++ ascii "FAT16   " ++ List.replicate 448 0 ++ [0x55, 0xaa]

/-- The first four entries: the two reserved ones and the ends of the two directories. -/
def reserved : List UInt8 := [0xf8, 0xff, 0xff, 0xff, 0xff, 0xff, 0xff, 0xff]

/-- The loop that chains the distribution's files. -/
def chainRows (fat : Buffer) : List DistributionRow → Make Buffer
  | [] => pure fat
  | row :: rows => do
    let count ← clusters row.size
    let fat ← chainFat fat row.first count
    chainRows fat rows

def buildFat (layout : Layout) (efiSize manifestSize : Nat) : Make Buffer := do
  let fat := (Buffer.zeros (sectorsPerFat * sector)).put 0 reserved
  let count ← clusters efiSize
  let fat ← chainFat fat layout.efiFirst count
  let count ← clusters manifestSize
  let fat ← chainFat fat layout.manifestFirst count
  let fat ← chainFat fat layout.modelFirst modelClusters
  if layout.distribution.isEmpty then pure fat
  else do
    let fat ← copySlice fat (layout.licensesFirst * 2) (le16 0xffff)
    chainRows fat layout.distribution

def writeEntry (offset : Nat) (name : List UInt8) (attributes : UInt8) (first size : Nat) :
    Make Unit := do
  let row ← entry name attributes first size
  writeAt offset row

def root : Nat := (1 + 2 * sectorsPerFat) * sector

/-- The loop over the files in the licenses directory. -/
def writeLicenses (directory : Nat) : Nat → List DistributionRow → Make Unit
  | _, [] => pure ()
  | index, row :: rows => do
    writeEntry (directory + (index + 2) * 32) row.short 0x20 row.first row.size
    writeLicenses directory (index + 1) rows

/-- The loop that copies the distribution's files. -/
def copyRows : List DistributionRow → Make Unit
  | [] => pure ()
  | row :: rows => do
    copyInto row.payload row.first row.size
    copyRows rows

/-- The root entries of the distribution. -/
def writeDistributionRoot (layout : Layout) : Make Unit :=
  match layout.distribution with
  | [] => pure ()
  | license :: source :: _ => do
    writeEntry (root + 96) license.short 0x20 license.first license.size
    writeEntry (root + 128) source.short 0x20 source.first source.size
    writeEntry (root + 160) (ascii "LICENSES   ") 0x10 layout.licensesFirst 0
  | _ => .fail .fault

/-- The licenses directory and the files of the distribution. -/
def writeDistribution (layout : Layout) : Make Unit :=
  if layout.distribution.isEmpty then pure ()
  else do
    let directory ← clusterOffset layout.licensesFirst
    writeEntry directory (ascii ".          ") 0x10 layout.licensesFirst 0
    writeEntry (directory + 32) (ascii "..         ") 0x10 0 0
    writeLicenses directory 0 (layout.distribution.drop 2)
    copyRows layout.distribution

def buildFatImage (efi manifest model : List UInt8)
    (distributionRoot : Option (String → Option (List UInt8))) : Make Unit := do
  let layout ← allocate efi.length manifest.length model.length distributionRoot
  .modify fun _ => Buffer.zeros imageBytes
  writeAt 0 boot
  let fat ← buildFat layout efi.length manifest.length
  writeAt sector (fat.slice 0 fat.length)
  writeAt ((1 + sectorsPerFat) * sector) (fat.slice 0 fat.length)
  writeEntry root (ascii "PROMPTBOOT ") 0x08 0 0
  writeEntry (root + 32) (ascii "EFI        ") 0x10 2 0
  writeEntry (root + 64) (ascii "MODEL   PBT") 0x20 layout.modelFirst model.length
  writeDistributionRoot layout
  let efiDir ← clusterOffset 2
  writeEntry efiDir (ascii ".          ") 0x10 2 0
  writeEntry (efiDir + 32) (ascii "..         ") 0x10 0 0
  writeEntry (efiDir + 64) (ascii "BOOT       ") 0x10 3 0
  let bootDir ← clusterOffset 3
  writeEntry bootDir (ascii ".          ") 0x10 3 0
  writeEntry (bootDir + 32) (ascii "..         ") 0x10 2 0
  writeEntry (bootDir + 64) (ascii "BOOTX64 EFI") 0x20 layout.efiFirst efi.length
  writeEntry (bootDir + 96) (ascii "BUILD   JSN") 0x20 layout.manifestFirst manifest.length
  copyInto efi layout.efiFirst efi.length
  copyInto manifest layout.manifestFirst manifest.length
  copyInto model layout.modelFirst model.length
  writeDistribution layout

end Promptboot.Image
