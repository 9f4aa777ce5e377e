/-!
# Single-precision numbers by their bits

A number is kept as its 32 bits, so that copying one never changes it: payloads
and signs of NaNs and the sign of zero stay as they are.  Arithmetic goes
through `Float32`.
-/

namespace MatchTape

/-- A single-precision number, given by its bit pattern. -/
structure Binary32 where
  bits : UInt32
  deriving DecidableEq, Repr, Inhabited

namespace Binary32

def zero : Binary32 := ⟨0⟩

def value (number : Binary32) : Float32 :=
  Float32.ofBits number.bits

def ofValue (value : Float32) : Binary32 :=
  ⟨value.toBits⟩

def ofNat (number : Nat) : Binary32 :=
  ofValue (Float32.ofNat number)

def magnitude (number : Binary32) : Nat :=
  number.bits.toNat % 0x80000000

/-- All exponent bits set and a fraction that is not zero. -/
def isNaN (number : Binary32) : Bool :=
  0x7f800000 < number.magnitude

def isZero (number : Binary32) : Bool :=
  number.magnitude == 0

/-- The bits that stand for a number in checksums: one pattern for all NaNs and
one for both zeros. -/
def canonicalBits (number : Binary32) : UInt32 :=
  if number.isNaN then 0x7fc00000
  else if number.isZero then 0
  else number.bits

/-- Numeric equality: a NaN equals nothing, and the two zeros are equal. -/
def numericallyEqual (left right : Binary32) : Bool :=
  !left.isNaN && !right.isNaN &&
    (left.bits == right.bits || (left.isZero && right.isZero))

end Binary32

end MatchTape
