import Mathlib.Data.List.Basic

/-!
# Percent encoding and doubled separators

A text is written byte by byte: a safe byte stands for itself and every other byte is
written as two hexadecimal digits behind a percent sign.  Reading undoes this for every
text.  Segments that do not hold a separator can be joined by two of them and split again.
-/

namespace Ironclaw.Lib

open List UInt8

/-! ## Bytes of a text -/

def bytesOf (text : List Char) : List UInt8 := text.flatMap String.utf8EncodeChar

/-- `String::from_utf8`. -/
def fromBytes (bytes : List UInt8) : Option String := String.fromUTF8? bytes.toByteArray

theorem fromBytes_bytesOf (text : String) : fromBytes (bytesOf text.toList) = some text := by
  have same : (bytesOf text.toList).toByteArray = text.toByteArray := String.utf8Encode_toList
  unfold fromBytes String.fromUTF8?
  rw [same, dif_pos text.isValidUTF8]
  rfl

theorem bytesOf_append (first second : List Char) :
    bytesOf (first ++ second) = bytesOf first ++ bytesOf second :=
  flatMap_append

variable {α : Type} {byte : UInt8} {separator : α} {segment : List α} {safe : UInt8 → Bool}

/-- A byte below 128 is written as the letter with its number. -/
theorem bytesOf_ascii (ascii : byte.toNat < 128) : bytesOf [Char.ofNat byte.toNat] = [byte] := by
  have small : ∀ number : Fin 128,
      bytesOf [Char.ofNat number.val] = [ofNat number.val] := by decide +kernel
  have written := small ⟨byte.toNat, ascii⟩
  simpa using written

/-! ## Hexadecimal digits -/

/-- The upper-case digit of a number below sixteen. -/
def hexDigit (value : Nat) : Char :=
  if value < 10 then Char.ofNat (48 + value) else Char.ofNat (55 + value)

def hexValue (byte : UInt8) : Option Nat :=
  if 48 ≤ byte ∧ byte ≤ 57 then some (byte.toNat - 48)
  else if 65 ≤ byte ∧ byte ≤ 70 then some (byte.toNat - 55)
  else if 97 ≤ byte ∧ byte ≤ 102 then some (byte.toNat - 87)
  else none

/-- `u8::from_str_radix` of two bytes; a sign in front of one digit is accepted. -/
def fromHex (high low : UInt8) : Option UInt8 :=
  match hexValue high, hexValue low with
  | some first, some second => some (ofNat (16 * first + second))
  | none, some second => if high = 43 then some (ofNat second) else none
  | _, none => none

def percentByte (byte : UInt8) : List Char :=
  ['%', hexDigit (byte.toNat / 16), hexDigit (byte.toNat % 16)]

theorem percentByte_read (byte : UInt8) :
    ∃ high low, bytesOf (percentByte byte) = [37, high, low] ∧ fromHex high low = some byte := by
  have all : ∀ number : Fin 256, bytesOf (percentByte (ofNat number.val)) =
        37 :: (bytesOf (percentByte (ofNat number.val))).tail ∧
      (match (bytesOf (percentByte (ofNat number.val))).tail with
        | [high, low] => fromHex high low
        | _ => none) = some (ofNat number.val) := by decide +kernel
  obtain ⟨shape, reads⟩ := all ⟨byte.toNat, byte.toNat_lt⟩
  simp only [UInt8.ofNat_toNat] at shape reads
  generalize (bytesOf (percentByte byte)).tail = digits at shape reads
  match digits, reads with
  | [high, low], reads => exact ⟨high, low, shape, reads⟩

/-! ## Percent encoding -/

/-- Every byte that is not safe is written with a percent sign. -/
def percentEncode (safe : UInt8 → Bool) (bytes : List UInt8) : List Char :=
  bytes.flatMap fun byte => if safe byte then [Char.ofNat byte.toNat] else percentByte byte

/-- A percent sign in front of two digits is a byte; everything else stands for itself. -/
def percentDecode : List UInt8 → List UInt8
  | [] => []
  | [first] => [first]
  | [first, second] => [first, second]
  | first :: high :: low :: rest =>
    if first = 37 then
      match fromHex high low with
      | some byte => byte :: percentDecode rest
      | none => first :: percentDecode (high :: low :: rest)
    else first :: percentDecode (high :: low :: rest)

theorem percentDecode_cons (plain : byte ≠ 37) (rest : List UInt8) :
    percentDecode (byte :: rest) = byte :: percentDecode rest := by
  match rest with
  | [] => rfl
  | [_] => rfl
  | _ :: _ :: _ => rw [percentDecode, if_neg plain]

/-- Safe bytes are letters, and the percent sign is none of them. -/
structure SafeBytes (safe : UInt8 → Bool) : Prop where
  ascii : ∀ byte, safe byte = true → byte.toNat < 128
  percent : safe 37 = false

theorem percentDecode_percentEncode (sound : SafeBytes safe) (bytes : List UInt8) :
    percentDecode (bytesOf (percentEncode safe bytes)) = bytes := by
  induction bytes with
  | nil => rfl
  | cons byte rest ih =>
    have shape : percentEncode safe (byte :: rest) =
        (if safe byte then [Char.ofNat byte.toNat] else percentByte byte) ++
          percentEncode safe rest := rfl
    rw [shape, bytesOf_append]
    split
    next isSafe =>
      have plain : byte ≠ 37 := by
        intro same
        rw [same, sound.percent] at isSafe
        cases isSafe
      rw [bytesOf_ascii (sound.ascii byte isSafe), singleton_append, percentDecode_cons plain, ih]
    · obtain ⟨_, _, written, reads⟩ := percentByte_read byte
      rw [written, cons_append, cons_append, cons_append, nil_append,
        percentDecode, if_pos rfl, reads]
      exact congrArg (byte :: ·) ih

theorem mem_percentEncode {bytes : List UInt8} {letter : Char}
    (written : letter ∈ percentEncode safe bytes) :
    letter = '%' ∨ (∃ value < 16, letter = hexDigit value) ∨
      ∃ byte, safe byte = true ∧ letter = Char.ofNat byte.toNat := by
  obtain ⟨byte, _, inside⟩ := mem_flatMap.mp written
  split at inside
  next isSafe => exact .inr (.inr ⟨byte, isSafe, mem_singleton.mp inside⟩)
  · simp only [percentByte, mem_cons, not_mem_nil, or_false] at inside
    have bound := byte.toNat_lt
    rcases inside with percent | high | low
    · exact .inl percent
    · exact .inr (.inl ⟨byte.toNat / 16, by omega, high⟩)
    · exact .inr (.inl ⟨byte.toNat % 16, by omega, low⟩)

/-! ## Doubled separators -/

/-- `split` at two separators in a row. -/
def splitDoubled {α : Type} [DecidableEq α] (separator : α) : List α → List (List α)
  | first :: second :: rest =>
    if first = separator ∧ second = separator then [] :: splitDoubled separator rest
    else (splitDoubled separator (second :: rest)).modifyHead (first :: ·)
  | [last] => [[last]]
  | [] => [[]]

theorem splitDoubled_of_free [DecidableEq α] (free : separator ∉ segment) :
    splitDoubled separator segment = [segment] := by
  induction segment with
  | nil => rfl
  | cons letter rest ih =>
    have different : letter ≠ separator := fun same => free (same ▸ mem_cons_self)
    have later := ih fun inside => free (mem_cons_of_mem _ inside)
    cases rest with
    | nil => rfl
    | cons =>
      rw [splitDoubled, if_neg fun both => different both.1, later]
      rfl

theorem splitDoubled_append [DecidableEq α] (free : separator ∉ segment) (rest : List α) :
    splitDoubled separator (segment ++ separator :: separator :: rest) =
      segment :: splitDoubled separator rest := by
  induction segment with
  | nil => rw [nil_append, splitDoubled, if_pos ⟨rfl, rfl⟩]
  | cons letter others ih =>
    have different : letter ≠ separator := fun same => free (same ▸ mem_cons_self)
    have later := ih fun inside => free (mem_cons_of_mem _ inside)
    cases others with
    | nil =>
      rw [nil_append] at later
      rw [singleton_append, splitDoubled, if_neg fun both => different both.1, later]
      rfl
    | cons =>
      rw [cons_append] at later
      rw [cons_append, cons_append, splitDoubled, if_neg fun both => different both.1, later]
      rfl

end Ironclaw.Lib
