/-!
# Bytes

Byte strings as lists, and their hexadecimal form: two lower-case digits a byte.
-/

namespace PageScript

abbrev Bytes := List UInt8

namespace Bytes

def hexDigit (n : Nat) : Char := Nat.digitChar (n % 16)

def hexOfByte (b : UInt8) : List Char := [hexDigit (b.toNat / 16), hexDigit b.toNat]

def toHex (bytes : Bytes) : String := String.ofList (bytes.flatMap hexOfByte)

def hexValue? (c : Char) : Option Nat :=
  if '0' ≤ c ∧ c ≤ '9' then some (c.toNat - '0'.toNat)
  else if 'a' ≤ c ∧ c ≤ 'f' then some (c.toNat - 'a'.toNat + 10)
  else if 'A' ≤ c ∧ c ≤ 'F' then some (c.toNat - 'A'.toNat + 10)
  else none

def ofHexDigits? : List Char → Option Bytes
  | [] => some []
  | high :: low :: rest => do
    let h ← hexValue? high
    let l ← hexValue? low
    let bytes ← ofHexDigits? rest
    return UInt8.ofNat (16 * h + l) :: bytes
  | [_] => none

def ofHex? (text : String) : Option Bytes := ofHexDigits? text.toList

theorem hexValue?_digitChar : ∀ n < 16, hexValue? (Nat.digitChar n) = some n := by
  decide

/-- A digit stands for a number up to multiples of 16. -/
theorem hexValue?_hexDigit (n : Nat) : hexValue? (hexDigit n) = some (n % 16) :=
  hexValue?_digitChar _ (Nat.mod_lt n (by decide))

/-- Two digits are read back as the byte they were written for. -/
theorem ofHexDigits?_hexOfByte (b : UInt8) (rest : List Char) :
    ofHexDigits? (hexOfByte b ++ rest) = (ofHexDigits? rest).map (b :: ·) := by
  have hvalue : 16 * (b.toNat / 16 % 16) + b.toNat % 16 = b.toNat := by
    have hlt := b.toNat_lt
    omega
  simp only [hexOfByte, List.cons_append, List.nil_append, ofHexDigits?, hexValue?_hexDigit,
    Option.bind_eq_bind, Option.bind_some, hvalue, UInt8.ofNat_toNat]
  cases ofHexDigits? rest <;> rfl

/-- Two digits a byte lose nothing. -/
theorem ofHexDigits?_flatMap (bytes : Bytes) :
    ofHexDigits? (bytes.flatMap hexOfByte) = some bytes := by
  induction bytes with
  | nil => rfl
  | cons b bytes ih => rw [List.flatMap_cons, ofHexDigits?_hexOfByte, ih, Option.map_some]

theorem length_flatMap_hexOfByte (bytes : Bytes) :
    (bytes.flatMap hexOfByte).length = 2 * bytes.length := by
  simp [List.length_flatMap, hexOfByte, List.map_const', Nat.mul_comm]

end Bytes

end PageScript
