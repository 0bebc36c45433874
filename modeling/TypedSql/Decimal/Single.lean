import TypedSql.Decimal.Double

/-!
# Single-precision numbers

Enum labels are ordered by single-precision numbers. Such a number is a whole count of
`2 ^ -149` with at most 24 significant bits, or infinite. It comes from an integer or from a
double-precision number by rounding to the nearest, with ties to even.
-/

namespace TypedSql

namespace BinaryFormat

def single : BinaryFormat := ⟨24, 149, 277, ⟨13, -6⟩⟩

end BinaryFormat

/-- A single-precision number that is not a NaN. -/
structure Single where
  negative : Bool
  /-- How often `2 ^ -149` goes into it; none for infinity. -/
  units : Option Nat
  deriving DecidableEq

namespace Single

/-- The nearest number to an integer. -/
def ofInt (n : Int) : Single :=
  ⟨n < 0, BinaryFormat.single.nearest? n.natAbs 1⟩

/-- The nearest number to one of double precision. -/
def ofDouble (d : Double) : Single :=
  ⟨d.negative, BinaryFormat.single.nearest? d.units (Nat.pow 2 BinaryFormat.double.places)⟩

/-- A finite number in the fewest digits; none for infinity. -/
def text? (s : Single) : Option (List Char) :=
  s.units.map (BinaryFormat.single.text s.negative)

end Single

end TypedSql
