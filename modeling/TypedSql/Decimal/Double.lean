import TypedSql.Decimal.Binary
import TypedSql.Text.Numeral

/-!
# Double-precision numbers

A double-precision number is a whole count of `2 ^ -1074` with at most 53 significant bits.

A number in base ten is read in two steps. Its digits are taken as long as they fit into 64 bits
and rounded to 53; the others only count for the place of the point. The result is multiplied or
divided by a power of ten that is rounded to 53 bits as well. With up to 15 digits and a small
exponent this is the nearest number; in general it is one close by.
-/

namespace TypedSql

namespace BinaryFormat

def double : BinaryFormat := ⟨53, 1074, 2098, ⟨16, -5⟩⟩

end BinaryFormat

/-- A finite double-precision number. -/
structure Double where
  negative : Bool
  /-- How often `2 ^ -1074` goes into it. -/
  units : Nat
  deriving DecidableEq

namespace Double

/-- A power of ten, rounded. -/
def tenPower (n : Nat) : Nat := roundBits 53 (Nat.pow 10 n) 1

/-- Scale by a power of ten; none when the result is too large. Far down this takes more than one
division, each of which is rounded. -/
def scale? (units : Nat) (exponent : Int) : Option Nat :=
  if units = 0 then some 0
  else if 308 < exponent then none
  else if 0 ≤ exponent then
    let product := roundBits 53 (units * tenPower exponent.toNat) 1
    if product < Nat.pow 2 BinaryFormat.double.bound then some product else none
  else if -308 ≤ exponent then some (roundBits 53 units (tenPower (-exponent).toNat))
  else scale? (roundBits 53 units (tenPower 308)) (exponent + 308)
termination_by (-exponent).toNat
decreasing_by omega

/-- Write digits behind a number as long as it stays below `2 ^ 64`. The digits behind those are
left. -/
def appendDigits (n : Nat) : List Char → Nat × List Char
  | [] => (n, [])
  | c :: cs =>
    let next := 10 * n + (c.toNat - 48)
    if next < 18446744073709551616 then appendDigits next cs else (n, c :: cs)

/-- The number with these digits before and behind its point, times a power of ten; none when it
is too large. -/
def ofDigits? (negative : Bool) (whole fraction : List Char) (exponent : Int) : Option Double :=
  let (n, leftWhole) := appendDigits 0 whole
  let (n, leftFraction) := appendDigits n fraction
  let places : Int := fraction.length - leftFraction.length
  let units := roundBits 53 (n * Nat.pow 2 BinaryFormat.double.places) 1
  (scale? units (exponent + leftWhole.length - places)).map fun units => ⟨negative, units⟩

/-- The number in the fewest digits. -/
def text (d : Double) : List Char :=
  BinaryFormat.double.text d.negative d.units

end Double

end TypedSql
