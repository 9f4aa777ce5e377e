/-!
# Words and hexadecimal digits

A word of a given width is the list of its base-256 digits, least significant digit first.
Hexadecimal text has two lower-case digits for each byte, high digit first.
-/

namespace MatchTape

namespace Word

/-- The low `width` base-256 digits of a number, least significant first. -/
def toBytes : Nat → Nat → List UInt8
  | 0, _ => []
  | width + 1, value => UInt8.ofNat value :: toBytes width (value / 256)

def ofBytes : List UInt8 → Nat
  | [] => 0
  | byte :: rest => byte.toNat + 256 * ofBytes rest

@[simp] theorem length_toBytes (width value : Nat) :
    (toBytes width value).length = width := by
  induction width generalizing value with
  | zero => rfl
  | succ width ih => simp [toBytes, ih]

theorem toBytes_ofBytes (bytes : List UInt8) :
    toBytes bytes.length (ofBytes bytes) = bytes := by
  induction bytes with
  | nil => rfl
  | cons byte rest ih =>
      have small := byte.toNat_lt
      have quotient : (byte.toNat + 256 * ofBytes rest) / 256 = ofBytes rest := by omega
      have digit : UInt8.ofNat (byte.toNat + 256 * ofBytes rest) = byte := by
        apply UInt8.toNat_inj.mp
        rw [UInt8.toNat_ofNat']
        omega
      simp [toBytes, ofBytes, quotient, digit, ih]

end Word

namespace Hex

def digit (value : Nat) : Char :=
  if value < 10 then Char.ofNat (48 + value) else Char.ofNat (87 + value)

def byte (value : UInt8) : List Char :=
  [digit (value.toNat / 16), digit (value.toNat % 16)]

def ofBytes (bytes : List UInt8) : String :=
  String.ofList (bytes.flatMap byte)

def value? (char : Char) : Option Nat :=
  if '0' ≤ char ∧ char ≤ '9' then some (char.toNat - 48)
  else if 'a' ≤ char ∧ char ≤ 'f' then some (char.toNat - 87)
  else none

def ofDigits? : List Char → Option (List UInt8)
  | [] => some []
  | high :: low :: rest => do
      return UInt8.ofNat (16 * (← value? high) + (← value? low)) :: (← ofDigits? rest)
  | [_] => none

def toBytes? (text : String) : Option (List UInt8) :=
  ofDigits? text.toList

end Hex

end MatchTape
