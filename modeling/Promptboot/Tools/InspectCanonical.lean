import Promptboot.Tools.InspectAccept

/-!
# Accepted images are the builder's

An accepted image is compared with the image that the builder makes of the payloads in it. They
differ at most in what no check looks at: fourteen bytes of the model's root entry and, with a
distribution, some of the root entry of the licenses directory and its end mark in the tables.

`Accepted.holds_root` and `Accepted.holds_distribution` are the writes of the builder that an
accepted image has in it, one directory at a time, and `stamp` names the bytes of an entry that no
check looks at. The headline is `Accepted.holds`.
-/

namespace Promptboot.Image
open Buffer

section Entries
variable {image : Buffer}

/-- The attributes' neighbours and the dates in an entry of the builder. -/
def stamp : List UInt8 := [0, 0, 0, 0, 0x21, 0, 0x21, 0, 0, 0, 0, 0, 0x21, 0]

/-- Two bytes, one by one. -/
lemma slice_two (offset : Nat) :
    image.slice offset 2 = [image.byte offset, image.byte (offset + 1)] := rfl

/-- A half word has its bytes. -/
lemma le16_u16At (offset : Nat) : le16 (u16At image offset) = image.slice offset 2 := by
  have low := (image.byte offset).toNat_lt
  have high := (image.byte (offset + 1)).toNat_lt
  have first : UInt8.ofNat (u16At image offset) = image.byte offset := by
    apply UInt8.toNat_inj.1
    rw [UInt8.toNat_ofNat', u16At]
    omega
  have second : UInt8.ofNat (u16At image offset / 2 ^ 8) = image.byte (offset + 1) := by
    apply UInt8.toNat_inj.1
    rw [UInt8.toNat_ofNat', u16At]
    omega
  rw [slice_two, le16, first, second]

/-- The size of an entry has its bytes. -/
lemma le32_sizeAt (place : Nat) :
    le32 (sizeAt image place) = image.slice (place + 28) 4 := by
  have split : image.slice (place + 28) 4 = image.slice (place + 28) 2 ++ image.slice (place + 30) 2 :=
    rfl
  have b0 := (image.byte (place + 28)).toNat_lt
  have b1 := (image.byte (place + 28 + 1)).toNat_lt
  have b2 := (image.byte (place + 30)).toNat_lt
  have b3 := (image.byte (place + 30 + 1)).toNat_lt
  have low : sizeAt image place % 2 ^ 16 = u16At image (place + 28) := by
    simp only [sizeAt, u16At]
    omega
  have high : sizeAt image place / 2 ^ 16 = u16At image (place + 30) := by
    simp only [sizeAt, u16At]
    omega
  have first : UInt8.ofNat (sizeAt image place) = UInt8.ofNat (u16At image (place + 28)) := by
    apply UInt8.toNat_inj.1
    rw [UInt8.toNat_ofNat', UInt8.toNat_ofNat', ← low]
    omega
  have second : UInt8.ofNat (sizeAt image place / 2 ^ 8) =
      UInt8.ofNat (u16At image (place + 28) / 2 ^ 8) := by
    apply UInt8.toNat_inj.1
    rw [UInt8.toNat_ofNat', UInt8.toNat_ofNat', ← low]
    omega
  have fourth : sizeAt image place / 2 ^ 24 = u16At image (place + 30) / 2 ^ 8 := by
    rw [← high]
    omega
  rw [split, ← le16_u16At, ← le16_u16At, le16, le16, le32, first, second, high, fourth]
  rfl

/-- An entry is its name, its attributes, its stamp and what it says of the file. -/
lemma slice_entry {place : Nat} {name : List UInt8} {attributes : UInt8}
    (name_eq : (image.slice place 32).take 11 = name)
    (attributes_eq : image.byte (place + 11) = attributes)
    (stamp_eq : image.slice (place + 12) 14 = stamp) :
    image.slice place 32 = entryBytes name attributes (firstAt image place) (sizeAt image place) := by
  rw [take_slice _ (by decide)] at name_eq
  have one : image.slice (place + 11) 1 = [attributes] := by
    rw [← attributes_eq]
    rfl
  have split : image.slice place 32 = image.slice place 11 ++ (image.slice (place + 11) 1 ++
      (image.slice (place + 12) 14 ++ (image.slice (place + 26) 2 ++
        image.slice (place + 28) 4))) := by
    rw [← slice_add, ← slice_add, ← slice_add, ← slice_add]
  rw [split, name_eq, one, stamp_eq, ← le32_sizeAt, ← le16_u16At, entryBytes]
  simp only [List.append_assoc]
  rfl

/-- The builder's entries carry the stamp. -/
lemma stamp_of_entry {place first size : Nat} {name : List UInt8} {attributes : UInt8}
    (eleven : name.length = 11)
    (h : image.slice place (entryBytes name attributes first size).length =
      entryBytes name attributes first size) : image.slice (place + 12) 14 = stamp := by
  have length : stamp.length = 14 := rfl
  rw [← length]
  refine slice_eq_iff.2 fun i lt => ?_
  rw [length] at lt
  have there := byte_entry eleven h (i + 1) (by omega)
  rw [show place + (11 + (i + 1)) = place + 12 + i by omega] at there
  have split : [attributes, 0, 0] ++ le16 0 ++ le16 0x21 ++ le16 0x21 ++ [0, 0] ++ le16 0 ++
      le16 0x21 ++ le16 first ++ le32 size = attributes :: (stamp ++ (le16 first ++ le32 size)) :=
    rfl
  rw [there, split, List.getD_cons_succ, List.getD_append _ _ _ _ (by rw [length]; exact lt)]

end Entries

section Embedded
variable {image : Buffer}

/-- The payload that an entry of the image leads to. -/
def embeddedAt (image : Buffer) (place : Nat) : List UInt8 :=
  image.slice (offsetOf (firstAt image place)) (sizeAt image place)

/-- The distribution that is in the image, by name. -/
def embeddedRoot (image : Buffer) (spread : Bool) : Option (String → Option (List UInt8)) :=
  if spread then
    some fun name =>
      ((distributionNames.zip (imageRows image)).find? fun pair => pair.1.1 = name).map fun pair =>
        pair.2.payload
  else none

/-- What no check of the inspector looks at is as the builder makes it. -/
structure Canonical (image : Buffer) (spread : Bool) : Prop where
  model : image.slice 262732 14 = stamp
  licenses : spread = true → image.slice 262828 14 = stamp
  licenses_size : spread = true → sizeAt image 262816 = 0
  licenses_end : spread = true → fatAt image (firstAt image 262816) = 0xffff

/-- The rows of an image have the names of the distribution. -/
lemma imageRows_named : (imageRows image).map (fun row => (row.short, some row.payload)) =
    distributionNames.map fun name => (name.2,
      ((distributionNames.zip (imageRows image)).find? fun pair => pair.1.1 = name.1).map
        fun pair => pair.2.payload) := by
  simp [imageRows, distributionNames, rowAt, List.find?]

/-- The builder's layout of what is in an accepted image. -/
def layoutOf (image : Buffer) (spread : Bool) : Layout where
  efiFirst := 4
  manifestFirst := 4 + clusterCount (sizeAt image 287296)
  modelFirst := 4 + clusterCount (sizeAt image 287296) + clusterCount (sizeAt image 287328)
  distribution := if spread then imageRows image else []
  licensesFirst := if spread then firstAt image 262816 else 0

/-- An accepted image is allocated as the builder does. -/
lemma Accepted.allocate {spread : Bool} {p : Buffer} (h : Accepted image spread) :
    allocate (embeddedAt image 287296).length (embeddedAt image 287328).length
      (embeddedAt image 262720).length (embeddedRoot image spread) p =
      (.ok (layoutOf image spread), p) := by
  have after : firstAt image 262720 + modelClusters = 4 + clusterCount (sizeAt image 287296) +
      clusterCount (sizeAt image 287328) + modelClusters := by
    rw [h.model_first, h.manifest_first]
  simp only [embeddedAt, length_slice, h.model_size]
  cases spread with
  | false =>
    have stop := h.model.stop
    have model_count : clusterCount modelBytes = modelClusters := rfl
    have none : Placed 0 (firstAt image 262720 + modelClusters) [] _ := Eq.refl _
    exact allocate_ok h.efi.pos h.manifest.pos after none (model_count ▸ stop) rfl
  | true =>
    have there := h.distribution rfl
    obtain ⟨stop, small, placed⟩ := there.placed
    obtain ⟨row, third, first⟩ := there.licenses
    have spread : distributionRows (embeddedRoot image true) _ p = _ :=
      distributionRows_ok placed small imageRows_named third (by omega)
    rw [first, Nat.add_sub_cancel] at spread
    exact allocate_ok h.efi.pos h.manifest.pos after placed small spread

end Embedded

section Writes
variable {image : Buffer} {spread : Bool}

/-- An entry that stands in the image is that write. -/
lemma entry_slice {place first size : Nat} {name : List UInt8} {attributes : UInt8}
    (eleven : name.length = 11)
    (h : image.slice place 32 = entryBytes name attributes first size) :
    image.slice place (entryBytes name attributes first size).length =
      entryBytes name attributes first size := by
  rw [length_entryBytes eleven, h]

/-- A write of the licenses directory is a row's entry. -/
lemma of_mem_licenseWrites {directory index : Nat} {rows : List DistributionRow} {w : Write}
    (mem : w ∈ licenseWrites directory index rows) :
    ∃ i row, rows[i]? = some row ∧
      w = (directory + (index + i + 2) * 32, entryBytes row.short 0x20 row.first row.size) := by
  induction rows generalizing index with
  | nil => cases mem
  | cons head rows ih =>
    rcases List.mem_cons.1 mem with rfl | later
    · exact ⟨0, head, rfl, rfl⟩
    · obtain ⟨i, row, at_i, rfl⟩ := ih later
      refine ⟨i + 1, row, at_i, ?_⟩
      rw [show index + 1 + i + 2 = index + (i + 1) + 2 by omega]

/-- The names of the rows have eleven bytes. -/
lemma imageRows_eleven : ∀ row ∈ imageRows image, row.short.length = 11 := by
  intro row mem
  obtain ⟨⟨name, index⟩, known, rfl⟩ := List.mem_map.1 mem
  exact names_eleven name (List.fst_mem_of_mem_zipIdx known)

/-- The payload of a row is what stands in its clusters. -/
lemma imageRows_payload : ∀ row ∈ imageRows image,
    row.payload = image.slice (offsetOf row.first) row.size := by
  intro row mem
  obtain ⟨⟨name, index⟩, known, rfl⟩ := List.mem_map.1 mem
  rfl

/-- A write that the image already holds. -/
abbrev Holds (image : Buffer) (w : Write) : Prop := image.slice w.1 w.2.length = w.2

/-- Every row has its entry in the image. -/
lemma DistributionAt.row_entry {first index : Nat} {row : DistributionRow}
    (h : DistributionAt image first) (at_index : (imageRows image)[index]? = some row) :
    Holds image (distributionEntry (firstAt image 262816) index,
      entryBytes row.short 0x20 row.first row.size) :=
  entry_slice (imageRows_eleven row (List.mem_of_getElem? at_index)) (h.raw index row at_index)

/-- A canonical image holds the entries of the root. -/
lemma Accepted.holds_root (h : Accepted image spread) (c : Canonical image spread) :
    ∀ w ∈ rootWrites (layoutOf image spread), Holds image w := by
  cases spread with
  | false => exact fun w mem => absurd mem List.not_mem_nil
  | true =>
    have there := h.distribution rfl
    have licenses : image.slice 262816 32 =
        entryBytes (ascii "LICENSES   ") 0x10 (firstAt image 262816) 0 := by
      have raw := slice_entry there.name there.attributes (c.licenses rfl)
      rwa [c.licenses_size rfl] at raw
    rcases rows : imageRows image with _ | ⟨license, _ | ⟨source, rest⟩⟩
    · have nil : (layoutOf image true).distribution = [] := rows
      rw [rootWrites, nil]
      exact fun w mem => absurd mem List.not_mem_nil
    · have one : (layoutOf image true).distribution = [license] := rows
      rw [rootWrites, one]
      exact fun w mem => absurd mem List.not_mem_nil
    · have several : (layoutOf image true).distribution = license :: source :: rest := rows
      rw [rootWrites, several]
      intro w mem
      simp only [List.mem_cons, List.not_mem_nil, or_false] at mem
      rcases mem with rfl | rfl | rfl
      · have at_zero : (imageRows image)[0]? = some license := by rw [rows]; rfl
        exact there.row_entry at_zero
      · have at_one : (imageRows image)[1]? = some source := by rw [rows]; rfl
        exact there.row_entry at_one
      · exact entry_slice (by decide) licenses

/-- An accepted image holds the distribution. -/
lemma Accepted.holds_distribution (h : Accepted image spread) :
    ∀ w ∈ distributionWrites (layoutOf image spread), Holds image w := by
  cases spread with
  | false => exact fun w mem => absurd mem List.not_mem_nil
  | true =>
    have there := h.distribution rfl
    have all : (layoutOf image true).distribution = imageRows image := rfl
    intro w mem
    rw [distributionWrites] at mem
    split at mem
    case isTrue _ => cases mem
    case isFalse _ =>
      rcases List.mem_append.1 mem with directory | payload
      · rcases List.mem_append.1 directory with dots | entry
        · simp only [List.mem_cons, List.not_mem_nil, or_false] at dots
          rcases dots with rfl | rfl
          · exact entry_slice (by decide) there.dot
          · exact entry_slice (by decide) there.dotdot
        · rw [all] at entry
          obtain ⟨i, row, at_i, rfl⟩ := of_mem_licenseWrites entry
          rw [List.getElem?_drop] at at_i
          have place := there.row_entry at_i
          rw [distributionEntry, if_neg (by omega)] at place
          rw [show 0 + i + 2 = 2 + i by omega]
          exact place
      · rw [all] at payload
        obtain ⟨row, known, rfl⟩ := List.mem_map.1 payload
        have bytes := imageRows_payload row known
        simp only [Holds]
        rw [bytes, length_slice]

/-- An accepted image holds all that the builder writes for it, its tables being what they are. -/
lemma Accepted.holds (h : Accepted image spread) (c : Canonical image spread) :
    ∀ w ∈ imageWrites (layoutOf image spread) (tableOf image) (embeddedAt image 287296)
      (embeddedAt image 287328) (embeddedAt image 262720), Holds image w := by
  have model_first : (layoutOf image spread).modelFirst = firstAt image 262720 := by
    rw [h.model_first, h.manifest_first]
    rfl
  have manifest_first : (layoutOf image spread).manifestFirst = firstAt image 287328 :=
    h.manifest_first.symm
  have efi_first : (layoutOf image spread).efiFirst = firstAt image 287296 := h.efi_first.symm
  have length (place : Nat) : (embeddedAt image place).length = sizeAt image place :=
    length_slice _ _ _
  -- in the order of the builder: head, root directory, boot path, files, distribution
  intro w mem
  rcases List.mem_append.1 mem with head | mem
  · simp only [headWrites, List.mem_cons, List.not_mem_nil, or_false] at head
    rcases head with rfl | rfl | rfl | rfl | rfl | rfl
    · simp only [Holds, length_boot]
      exact h.boot
    · simp only [Holds, length_slice]
    · simp only [Holds, length_slice]
      exact h.copy
    · exact entry_slice (by decide) h.volume
    · exact entry_slice (by decide) h.efi_root
    · rw [model_first, length]
      exact entry_slice (by decide) (slice_entry h.model_name h.model_attributes c.model)
  rcases List.mem_append.1 mem with root | mem
  · exact h.holds_root c w root
  rcases List.mem_append.1 mem with efi_dir | mem
  · exact h.directories.entries w efi_dir
  rcases List.mem_append.1 mem with boot_dir | mem
  · simp only [bootDirWrites, List.mem_cons, List.not_mem_nil, or_false] at boot_dir
    rcases boot_dir with rfl | rfl | rfl | rfl
    · exact entry_slice (by decide) h.directories.boot_dot
    · exact entry_slice (by decide) h.directories.boot_dotdot
    · rw [efi_first, length]
      exact entry_slice (by decide) h.directories.efi
    · rw [manifest_first, length]
      exact entry_slice (by decide) h.directories.manifest
  rcases List.mem_append.1 mem with file | other
  · simp only [fileWrites, List.mem_cons, List.not_mem_nil, or_false] at file
    rcases file with rfl | rfl | rfl
    · rw [efi_first]
      simp only [Holds, embeddedAt, length_slice]
    · rw [manifest_first]
      simp only [Holds, embeddedAt, length_slice]
    · rw [model_first]
      simp only [Holds, embeddedAt, length_slice]
  · exact h.holds_distribution w other

end Writes

end Promptboot.Image
