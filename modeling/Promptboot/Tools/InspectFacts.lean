import Promptboot.Tools.ImageInspect
import Promptboot.Tools.ImageSound

/-!
# What the image inspector's checks say

Each check that passes says something about the bytes of the image, and none of them changes it.

The lemmas are named after the checks. `chainLoop_eq_ok` and `inspectChain_eq_ok` are the
inductions: a chain that passes has its clusters in a row and the end mark behind them.
-/

namespace Promptboot.Image
open Buffer

section Reads
variable {p q : Buffer}

/-- A byte of a slice is a byte of the buffer. -/
lemma getD_slice {offset count i : Nat} (lt : i < count) :
    (p.slice offset count).getD i 0 = p.byte (offset + i) := by
  rw [List.getD_eq_getElem _ _ (by simpa using lt)]
  simp [Buffer.slice]

/-- A read that succeeds is within the image. -/
lemma readAt_eq_ok {offset length : Nat} {bytes : List UInt8}
    (h : readAt offset length p = (.ok bytes, q)) :
    offset + length ≤ p.length ∧ bytes = p.slice offset length ∧ q = p := by
  rw [readAt] at h
  split at h
  case isTrue fits =>
    cases h
    exact ⟨fits, rfl, rfl⟩
  case isFalse _ => cases h

/-- A half word that is read is within the bytes. -/
lemma le16At_eq_ok {bytes : List UInt8} {offset value : Nat}
    (h : le16At bytes offset p = (.ok value, q)) :
    offset + 2 ≤ bytes.length ∧
      value = (bytes.getD offset 0).toNat + 2 ^ 8 * (bytes.getD (offset + 1) 0).toNat ∧ q = p := by
  rw [le16At] at h
  split at h
  case isTrue fits =>
    cases h
    exact ⟨fits, rfl, rfl⟩
  case isFalse _ => cases h

/-- A word of what was read is that word of the image. -/
lemma le16At_slice {start count offset value : Nat}
    (h : le16At (p.slice start count) offset p = (.ok value, q)) :
    offset + 2 ≤ count ∧ value = u16At p (start + offset) ∧ q = p := by
  obtain ⟨fits, rfl, same⟩ := le16At_eq_ok h
  rw [length_slice] at fits
  refine ⟨fits, ?_, same⟩
  rw [getD_slice (by omega), getD_slice (by omega), u16At, Nat.add_assoc]

/-- The directory entry that the image holds somewhere. -/
def entryAt (image : Buffer) (offset : Nat) : DirEntry :=
  ⟨(image.slice offset 32).take 11, image.byte (offset + 11), firstAt image offset,
    sizeAt image offset, image.slice offset 32⟩

/-- An entry that is parsed is the one that stands there. -/
lemma parseEntry_eq_ok {offset : Nat} {e : DirEntry} (h : parseEntry offset p = (.ok e, q)) :
    offset + 32 ≤ p.length ∧ e = entryAt p offset ∧ q = p := by
  obtain ⟨bytes, r, got, h1⟩ := Fallible.bind_eq_ok h
  obtain ⟨fits, rfl, rfl⟩ := readAt_eq_ok got
  obtain ⟨first, r, read_first, h2⟩ := Fallible.bind_eq_ok h1
  obtain ⟨_, rfl, rfl⟩ := le16At_slice read_first
  obtain ⟨low, r, read_low, h3⟩ := Fallible.bind_eq_ok h2
  obtain ⟨_, rfl, rfl⟩ := le16At_slice read_low
  obtain ⟨high, r, read_high, h4⟩ := Fallible.bind_eq_ok h3
  obtain ⟨_, rfl, rfl⟩ := le16At_slice read_high
  cases h4
  rw [getD_slice (by omega)]
  exact ⟨fits, rfl, rfl⟩

/-- An entry that passes has the bytes required. -/
lemma requireEntry_eq_ok {actual : DirEntry} {name : List UInt8} {attributes : UInt8}
    {first size : Nat} {label : String} {u : Unit}
    (h : requireEntry actual name attributes first size label p = (.ok u, q)) :
    size < 2 ^ 32 ∧ actual.raw = entryBytes name attributes first size ∧ q = p := by
  rw [requireEntry, entry] at h
  split at h
  case isTrue fits =>
    rw [Fallible.pure_bind] at h
    obtain ⟨same, rfl⟩ := require_eq_ok h
    exact ⟨fits, of_decide_eq_true same, rfl⟩
  case isFalse _ => cases h

/-- The bytes of a range are there and zero. -/
def ZeroRange (image : Buffer) (start stop : Nat) : Prop :=
  ∀ i, start ≤ i → i < stop → i < image.length ∧ image.byte i = 0

/-- A range that passes is zero. -/
lemma zeroLoop_eq_ok {label : String} {position remaining : Nat} {u : Unit}
    (h : zeroLoop label position remaining p = (.ok u, q)) :
    ZeroRange p position (position + remaining) ∧ q = p := by
  induction remaining using Nat.strongRecOn generalizing position with
  | ind remaining ih =>
    rw [zeroLoop] at h
    split at h
    case isTrue zero =>
      cases h
      exact ⟨fun i above below => absurd below (by omega), rfl⟩
    case isFalse more =>
      obtain ⟨buffer, r, got, h1⟩ := Fallible.bind_eq_ok h
      obtain ⟨fits, rfl, rfl⟩ := readAt_eq_ok got
      obtain ⟨zero, h2⟩ := require_bind_eq_ok h1
      obtain ⟨rest, same⟩ := ih _ (by omega) h2
      refine ⟨fun i above below => ?_, same⟩
      by_cases here : i < position + min remaining (1024 * 1024)
      · refine ⟨by omega, ?_⟩
        have member : r.byte i ∈ r.slice position (min remaining (1024 * 1024)) := by
          rw [Buffer.slice, List.mem_map]
          refine ⟨i - position, List.mem_range.2 (by omega), ?_⟩
          rw [Nat.add_sub_cancel' above]
        exact of_decide_eq_true (List.all_eq_true.1 zero _ member)
      · exact rest i (by omega) (by omega)

/-- A range required to be zero is in order and zero. -/
lemma requireZero_eq_ok {start stop : Nat} {label : String} {u : Unit}
    (h : requireZero start stop label p = (.ok u, q)) :
    start ≤ stop ∧ ZeroRange p start stop ∧ q = p := by
  obtain ⟨order, h1⟩ := require_bind_eq_ok h
  have order := of_decide_eq_true order
  obtain ⟨zero, same⟩ := zeroLoop_eq_ok h1
  rw [Nat.add_sub_cancel' order] at zero
  exact ⟨order, zero, same⟩

/-- A range that matches is the external bytes. -/
lemma matchLoop_eq_ok {position remaining : Nat} {external : List UInt8}
    (whole : external.length = remaining)
    (h : matchLoop position external remaining p = (.ok true, q)) :
    (0 < remaining → position + remaining ≤ p.length) ∧ p.slice position remaining = external ∧
      q = p := by
  induction remaining using Nat.strongRecOn generalizing position external with
  | ind remaining ih =>
    rw [matchLoop] at h
    split at h
    case isTrue zero =>
      cases h
      subst zero
      rw [List.length_eq_zero_iff.1 whole]
      exact ⟨fun pos => absurd pos (by omega), rfl, rfl⟩
    case isFalse more =>
      obtain ⟨left, r, got, h1⟩ := Fallible.bind_eq_ok h
      obtain ⟨fits, rfl, rfl⟩ := readAt_eq_ok got
      split at h1
      case isTrue _ => cases h1
      case isFalse same_piece =>
        have piece := Decidable.not_not.1 same_piece
        have shorter : (external.drop (min remaining (1024 * 1024))).length =
            remaining - min remaining (1024 * 1024) := by
          rw [List.length_drop, whole]
        obtain ⟨inside, rest, same⟩ := ih _ (by omega) shorter h1
        refine ⟨fun _ => by omega, ?_, same⟩
        have split : remaining =
            min remaining (1024 * 1024) + (remaining - min remaining (1024 * 1024)) := by
          omega
        rw [split, slice_add, rest, piece, List.take_append_drop]

/-- A range that matches a file is the file. -/
lemma rangeMatchesPath_eq_ok {offset length : Nat} {external : List UInt8}
    (h : rangeMatchesPath offset length external p = (.ok true, q)) :
    (0 < length → offset + length ≤ p.length) ∧ p.slice offset length = external ∧ q = p := by
  rw [rangeMatchesPath] at h
  split at h
  case isTrue _ => cases h
  case isFalse whole => exact matchLoop_eq_ok (Decidable.not_not.1 whole) h

/-- A cluster with an offset is in the data area. -/
lemma clusterOffset_eq_ok {cluster offset : Nat} (h : clusterOffset cluster p = (.ok offset, q)) :
    2 ≤ cluster ∧ offset = offsetOf cluster ∧ q = p := by
  rw [clusterOffset] at h
  split at h
  case isTrue _ => cases h
  case isFalse le =>
    cases h
    exact ⟨by omega, rfl, rfl⟩

/-- A sum that was taken fits. -/
lemma add16_eq_ok {a b c : Nat} (h : add16 a b p = (.ok c, q)) :
    a + b < 65536 ∧ c = a + b ∧ q = p := by
  rw [add16] at h
  split at h
  case isTrue fits =>
    cases h
    exact ⟨fits, rfl, rfl⟩
  case isFalse _ => cases h

end Reads

section Chains
variable {p q : Buffer}

/-- The table as it was read. -/
abbrev tableOf (image : Buffer) : List UInt8 := image.slice 512 131072

/-- An entry that is read is that of the table. -/
lemma le16At_table {cluster value : Nat}
    (h : le16At (tableOf p) (cluster * 2) p = (.ok value, q)) :
    value = fatAt p cluster ∧ q = p := by
  obtain ⟨_, eq, same⟩ := le16At_slice h
  exact ⟨eq, same⟩

/-- The entry wanted is the next cluster, or the end. -/
lemma wantedEntry_eq_ok {count index current wanted : Nat} {label : String}
    (h : wantedEntry count index current label p = (.ok wanted, q)) :
    wanted = (if index + 1 = count then 0xffff else current + 1) ∧ q = p := by
  rw [wantedEntry] at h
  split at h
  case isTrue last =>
    cases h
    rw [if_pos last]
    exact ⟨rfl, rfl⟩
  case isFalse more =>
    obtain ⟨_, rfl, rfl⟩ := checkedAdd16_eq_ok h
    rw [if_neg more]
    exact ⟨rfl, rfl⟩

/-- The turns that are left go through the clusters that are left. -/
lemma chainLoop_eq_ok {count left index first : Nat} {label : String} {chain : List Nat}
    (total : index + left = count)
    (h : chainLoop (tableOf p) count label left index (first + index) p = (.ok chain, q)) :
    chain = List.range' (first + index) left ∧ q = p ∧
      (0 < left → 2 ≤ first + index ∧ first + count ≤ 65536) ∧
      ∀ cluster, Within (first + index, left) cluster →
        fatAt p cluster = link (first, count) cluster := by
  -- on the clusters that are left: an entry that passes links to the next one
  induction left generalizing index chain with
  | zero =>
    cases h
    refine ⟨rfl, rfl, fun pos => absurd pos (by omega), fun cluster inside => ?_⟩
    simp only [Within] at inside
    omega
  | succ left ih =>
    obtain ⟨range, h1⟩ := require_bind_eq_ok h
    have range := of_decide_eq_true range
    obtain ⟨following, r, got, h2⟩ := Fallible.bind_eq_ok h1
    obtain ⟨rfl, rfl⟩ := le16At_table got
    obtain ⟨wanted, r, want, h3⟩ := Fallible.bind_eq_ok h2
    obtain ⟨wanted_eq, rfl⟩ := wantedEntry_eq_ok want
    obtain ⟨same, h4⟩ := require_bind_eq_ok h3
    have same := of_decide_eq_true same
    obtain ⟨rest, s, later, h5⟩ := Fallible.bind_eq_ok h4
    cases h5
    have here : fatAt r (first + index) = link (first, count) (first + index) := by
      rw [same, wanted_eq, link]
      simp only
      split_ifs <;> omega
    rcases Nat.eq_zero_or_pos left with rfl | more
    · cases later
      refine ⟨rfl, rfl, fun _ => ⟨range.1, by omega⟩, fun cluster inside => ?_⟩
      have only : cluster = first + index := by
        simp only [Within] at inside
        omega
      rw [only, here]
    · have next : fatAt r (first + index) = first + (index + 1) := by
        rw [same, wanted_eq, if_neg (by omega), Nat.add_assoc]
      rw [next] at later
      obtain ⟨rfl, rfl, bounds, linked⟩ := ih (by omega) later
      refine ⟨by rw [List.range'_succ]; rfl, rfl, fun _ => ⟨range.1, (bounds more).2⟩,
        fun cluster inside => ?_⟩
      by_cases first_one : cluster = first + index
      · rw [first_one, here]
      · refine linked cluster ?_
        simp only [Within] at inside ⊢
        omega

/-- A chain that passes is consecutive clusters of its file. -/
lemma inspectChain_eq_ok {first size : Nat} {label : String} {chain : List Nat}
    (h : inspectChain (tableOf p) first size label p = (.ok chain, q)) :
    q = p ∧ 0 < size ∧ chain = List.range' first (clusterCount size) ∧ 2 ≤ first ∧
      first + clusterCount size ≤ 65536 ∧
      ∀ cluster, Within (first, clusterCount size) cluster →
        fatAt p cluster = link (first, clusterCount size) cluster := by
  obtain ⟨count, r, counted, h1⟩ := Fallible.bind_eq_ok h
  obtain ⟨pos, rfl, rfl⟩ := clusters_eq_ok counted
  obtain ⟨chain_eq, same, bounds, linked⟩ := chainLoop_eq_ok (Nat.zero_add _) h1
  have more : 0 < clusterCount size := by
    unfold clusterCount
    omega
  exact ⟨same, pos, chain_eq, (bounds more).1, (bounds more).2, linked⟩

/-- Behind a chain is the cluster after its last. -/
lemma afterChain_eq_ok {first count after : Nat} (pos : 0 < count)
    (h : afterChain (List.range' first count) p = (.ok after, q)) :
    after = first + count ∧ after < 65536 ∧ q = p := by
  obtain ⟨n, rfl⟩ : ∃ n, count = n + 1 := ⟨count - 1, by omega⟩
  have last : (List.range' first (n + 1)).getLast? = some (first + n) := by
    rw [List.range'_1_concat, List.getLast?_concat]
  rw [afterChain, last] at h
  obtain ⟨fits, rfl, rfl⟩ := add16_eq_ok h
  exact ⟨rfl, fits, rfl⟩

end Chains

end Promptboot.Image
