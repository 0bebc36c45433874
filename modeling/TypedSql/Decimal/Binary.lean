import TypedSql.Decimal

/-!
# Binary numbers

Every finite number of a binary format is a whole count of the smallest one, and has a bounded
number of significant bits; the counts stay below a bound. Everything is exact integer
arithmetic: the nearest number to a quotient, with ties to even, and the decimal with the fewest
digits that is nearest to no other number.
-/

namespace TypedSql

/-- The natural number with at most `precision` significant bits nearest to `num / den`; a tie
goes to the even one. -/
def roundBits (precision num den : Nat) : Nat :=
  let shift := (num / den).log2 + 1 - precision
  let unit := den * Nat.pow 2 shift
  let low := num / unit
  let twice := 2 * (num % unit)
  let up := unit < twice || (unit == twice && low % 2 == 1)
  (if up then low + 1 else low) * Nat.pow 2 shift

/-- A format of binary numbers. -/
structure BinaryFormat where
  /-- How many significant bits a number has at most. -/
  precision : Nat
  /-- The smallest number is `2 ^ -places`. -/
  places : Nat
  /-- The counts of the smallest number stay below `2 ^ bound`. -/
  bound : Nat
  /-- How numbers are laid out. -/
  layout : Decimal.Layout

namespace BinaryFormat

/-- The number nearest to `num / den`, as a count of the smallest one; none from the bound on. -/
def nearest? (f : BinaryFormat) (num den : Nat) : Option Nat :=
  let units := roundBits f.precision (num * Nat.pow 2 f.places) den
  if units < Nat.pow 2 f.bound then some units else none

/-- The number nearest to a decimal, without the sign. Far outside of the format this is decided
by the count of digits alone. -/
def ofDecimal? (f : BinaryFormat) (d : Decimal) : Option Nat :=
  let magnitude : Int := Decimal.digitCount d.digits + d.exponent
  if d.digits = 0 || magnitude < -400 then some 0
  else if 400 < magnitude then none
  else if 0 ≤ d.exponent then f.nearest? (d.digits * Nat.pow 10 d.exponent.toNat) 1
  else f.nearest? d.digits (Nat.pow 10 (-d.exponent).toNat)

/-- The two decimals with `count` digits around `digits / 10 ^ f.places`, the nearer one first
and the even one first in a tie. -/
def neighbours (f : BinaryFormat) (digits total count : Nat) : List Decimal :=
  let drop := total - count
  let unit := Nat.pow 10 drop
  let low := digits / unit
  let twice := 2 * (digits % unit)
  let exponent : Int := drop - f.places
  let below := (Decimal.mk false low exponent).normal
  let above := (Decimal.mk false (low + 1) exponent).normal
  if twice < unit || (twice == unit && low % 2 == 0) then [below, above] else [above, below]

/-- The decimal with the fewest digits that is read as this count of the smallest number. No
format here needs more than 17 digits; the exact decimal, where `2 ^ -places` is
`5 ^ places · 10 ^ -places`, stands behind them. -/
def shortest (f : BinaryFormat) (units : Nat) : Decimal :=
  if units = 0 then ⟨false, 0, 0⟩
  else
    let digits := units * Nat.pow 5 f.places
    let total := Decimal.digitCount digits
    let found := (List.range' 1 17).findSome? fun count =>
      (f.neighbours digits total count).find? fun d => f.ofDecimal? d == some units
    match found with
    | some d => d
    | none => (Decimal.mk false digits (-f.places)).normal

/-- The text of a number with a sign. -/
def text (f : BinaryFormat) (negative : Bool) (units : Nat) : List Char :=
  { f.shortest units with negative }.textIn f.layout

end BinaryFormat

end TypedSql
