import Mathlib.Data.String.Basic

/-!
# Texts and paths

What the release tools use of strings and of Unix paths. A string is Lean's, whose bytes are its
UTF-8 encoding, or the list of its characters where it is taken apart; a path has its components
between slashes.

`bytesOf_fromUtf8` and `fromUtf8_bytesOf` say that texts and the byte strings that are UTF-8 are the
same. `toStringLossy_bytesOf` leaves a text alone; on other bytes `toStringLossy` puts U+FFFD for
each maximal invalid part, as the standard library documents it.
-/

namespace Promptboot.Release

inductive ReleaseCategory where
  | source | build | output | validation
  deriving DecidableEq

structure ReleaseError where
  category : ReleaseCategory
  message : String
  deriving DecidableEq

def validation (message : String) : ReleaseError := ⟨.validation, message⟩

/-- `as_bytes` -/
def bytesOf (text : String) : List UInt8 := text.toByteArray.data.toList

/-- `str::from_utf8` -/
def fromUtf8 (bytes : List UInt8) : Option String := String.fromUTF8? bytes.toByteArray

abbrev Text := List Char

/-- `Path::is_absolute` -/
def isAbsolute (path : Text) : Bool := path.head? == some '/'

/-- One of `Path::components` is `..`. -/
def hasParentDir (path : Text) : Bool := (path.splitOn '/').any (· == ['.', '.'])

/-- The path of these components. -/
def joinPath (components : List Text) : Text := ['/'].intercalate components

/-- `Path::parent` of a relative path whose components are all names. -/
def pathParent (path : Text) : Option Text :=
  if path.isEmpty then none else some (joinPath (path.splitOn '/').dropLast)

/-- How many bytes `from_utf8_lossy` replaces at once: a first byte with the continuation bytes that
it could have, all but the last. -/
def invalidLength : List UInt8 → Nat
  | [] => 0
  | first :: rest =>
    let more := if first < 0xc2 || 0xf4 < first then 0 else if first < 0xe0 then 1
      else if first < 0xf0 then 2 else 3
    let low : UInt8 := if first = 0xe0 then 0xa0 else if first = 0xf0 then 0x90 else 0x80
    let high : UInt8 := if first = 0xed then 0x9f else if first = 0xf4 then 0x8f else 0xbf
    match rest.take more with
    | [] => 1
    | second :: rest =>
      if low ≤ second && second ≤ high then
        2 + (rest.takeWhile fun byte => 0x80 ≤ byte && byte ≤ 0xbf).length
      else
        1

/-- The characters of at most `fuel` bytes; what is no character is replaced. -/
def lossyChars : (fuel : Nat) → List UInt8 → Text
  | 0, _ => []
  | fuel + 1, bytes =>
    if bytes.isEmpty then []
    else match bytes.toByteArray.utf8DecodeChar? 0 with
    | some c => c :: lossyChars fuel (bytes.drop c.utf8Size)
    | none => '\uFFFD' :: lossyChars fuel (bytes.drop (invalidLength bytes))

/-- `to_string_lossy` -/
def toStringLossy (bytes : List UInt8) : Text := lossyChars bytes.length bytes

section Bytes

/-- The bytes of two texts, one behind the other. -/
lemma bytesOf_append (s t : String) : bytesOf (s ++ t) = bytesOf s ++ bytesOf t := by
  rw [bytesOf, String.toByteArray_append, ByteArray.toList_data_append]
  rfl

/-- The bytes of a text are read as the text. -/
lemma fromUtf8_bytesOf (text : String) : fromUtf8 (bytesOf text) = some text := by
  have whole : (bytesOf text).toByteArray = text.toByteArray :=
    ByteArray.ext (Array.toList_inj.mp List.toList_data_toByteArray)
  rw [fromUtf8, String.fromUTF8?, dif_pos (whole ▸ text.isValidUTF8)]
  exact congrArg some (String.toByteArray_inj.mp whole)

/-- Bytes that are read as a text are its bytes. -/
lemma bytesOf_fromUtf8 {bytes : List UInt8} {text : String} (h : fromUtf8 bytes = some text) :
    bytesOf text = bytes := by
  rw [fromUtf8, String.fromUTF8?] at h
  split_ifs at h
  cases h
  exact List.toList_data_toByteArray

/-- The bytes of a text are those of its characters. -/
lemma bytesOf_ofList (text : Text) :
    bytesOf (String.ofList text) = text.flatMap String.utf8EncodeChar := by
  rw [bytesOf, String.toByteArray_ofList, List.utf8Encode, List.toList_data_toByteArray]

/-- A text is read as itself. -/
lemma toStringLossy_bytesOf (text : Text) : toStringLossy (bytesOf (String.ofList text)) = text := by
  have read (fuel : Nat) (rest : Text)
      (room : (rest.flatMap String.utf8EncodeChar).length ≤ fuel) :
      lossyChars fuel (rest.flatMap String.utf8EncodeChar) = rest := by
    induction rest generalizing fuel with
    | nil => cases fuel <;> rfl
    | cons c rest ih =>
      have size : 0 < c.utf8Size := Char.utf8Size_pos c
      have length : (String.utf8EncodeChar c).length = c.utf8Size := String.length_utf8EncodeChar c
      rw [List.flatMap_cons, List.length_append, length] at room
      obtain ⟨fuel, rfl⟩ : ∃ n, fuel = n + 1 := ⟨fuel - 1, by omega⟩
      have decoded : ((c :: rest).flatMap String.utf8EncodeChar).toByteArray.utf8DecodeChar? 0 =
          some c := List.utf8DecodeChar?_utf8Encode_cons
      have nonempty : ((c :: rest).flatMap String.utf8EncodeChar).isEmpty = false := by
        rw [List.flatMap_cons, List.isEmpty_eq_false_iff]
        exact List.append_ne_nil_of_left_ne_nil String.utf8EncodeChar_ne_nil _
      rw [lossyChars, nonempty, if_neg Bool.false_ne_true, decoded]
      dsimp only
      rw [List.flatMap_cons, List.drop_left' length, ih fuel (by omega)]
  rw [bytesOf_ofList]
  exact read _ text (Nat.le_refl _)

end Bytes

end Promptboot.Release
