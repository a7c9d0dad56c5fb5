/-!
# Double-precision numbers

A number is kept as its 64-bit pattern, so that boxing and reading back loses
nothing: not the sign of a zero and not the payload of a pattern that is no
number.  Conversion to and from 32-bit integers is exact arithmetic on the
sign, the exponent and the fraction of the pattern.
-/

namespace ManagedHeap

structure Binary64 where
  bits : UInt64
deriving DecidableEq

namespace Binary64

/-- Two to the power 52, the place of the leading bit of a significand. -/
def leadingPlace : Nat := 4503599627370496

/-- The exponent field, 1023 more than the exponent of a normal number. -/
def exponent (x : Binary64) : Nat := x.bits.toNat / leadingPlace % 2048

def fraction (x : Binary64) : Nat := x.bits.toNat % leadingPlace

def isNegative (x : Binary64) : Bool := decide (2048 ≤ x.bits.toNat / leadingPlace)

/-- The exponent field that marks infinities and patterns that are no number. -/
def specialExponent : Nat := 2047

def isNaN (x : Binary64) : Bool :=
  decide (x.exponent = specialExponent ∧ x.fraction ≠ 0)

def isZero (x : Binary64) : Bool :=
  decide (x.exponent = 0 ∧ x.fraction = 0)

/-- The fraction with the leading bit that normal numbers leave out. -/
def significand (x : Binary64) : Nat :=
  if x.exponent = 0 then x.fraction else leadingPlace + x.fraction

/-- A finite number is its significand times two to the power `scale - 1075`. -/
def scale (x : Binary64) : Nat := max x.exponent 1

/-- The finite number `x` is exactly the integer `n`. -/
def HasValue (x : Binary64) (n : Int) : Prop :=
  x.exponent ≠ specialExponent ∧
    (if x.isNegative then -1 else 1) * (x.significand <<< x.scale : Nat) =
      n * (1 <<< 1075 : Nat)

/-- The integer part of the absolute value of a finite number. -/
def integerPart (x : Binary64) : Nat :=
  if 1075 ≤ x.scale then x.significand <<< (x.scale - 1075)
  else x.significand >>> (1075 - x.scale)

/-- Drops the fractional part.  Numbers beyond the 32-bit range go to its nearer
end and a pattern that is no number goes to zero. -/
def truncate (x : Binary64) : Int32 :=
  if x.isNaN then 0
  else
    let magnitude := if x.exponent = specialExponent then 2147483648 else x.integerPart
    if x.isNegative then Int32.ofInt (-(min magnitude 2147483648 : Nat))
    else Int32.ofInt (min magnitude 2147483647 : Nat)

/-- The pattern of an integer.  Zero gets the positive sign. -/
def ofInt32 (n : Int32) : Binary64 :=
  let magnitude := n.toInt.natAbs
  if magnitude = 0 then ⟨0⟩
  else
    let place := magnitude.log2
    let sign := if n.toInt < 0 then 2048 else 0
    let fraction := (magnitude <<< (52 - place)) - leadingPlace
    ⟨UInt64.ofNat ((sign + place + 1023) * leadingPlace + fraction)⟩

/-- Numerical equality: the two zeros are equal, and a pattern that is no number
equals nothing. -/
def equals (x y : Binary64) : Bool :=
  !x.isNaN && !y.isNaN && (decide (x = y) || x.isZero && y.isZero)

/-- The integer that a number can be replaced with, if there is one.  The
negative zero has none, because its sign would be lost. -/
def toInt32? (x : Binary64) : Option Int32 :=
  if (ofInt32 x.truncate).equals x && !(x.isZero && x.isNegative) then
    some x.truncate
  else none

/-- Addition, rounded to the nearest number. -/
def add (x y : Binary64) : Binary64 :=
  ⟨(Float.ofBits x.bits + Float.ofBits y.bits).toBits⟩

end Binary64

end ManagedHeap
