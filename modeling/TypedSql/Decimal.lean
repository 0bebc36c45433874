/-!
# Decimal numbers

A decimal number is a sign, digits and a power of ten. The normal form has no zero at the end of
its digits, so two normal numbers are the same text exactly when they are the same number with
the same sign; zero keeps its sign.

The layout of a number always shows a point or an exponent, so that it cannot be taken for an
integer.
-/

namespace TypedSql

/-- The number `± digits · 10 ^ exponent`. -/
structure Decimal where
  negative : Bool
  digits : Nat
  exponent : Int
  deriving DecidableEq

namespace Decimal

/-- Move zeros at the end of `digits` into the exponent; `fuel` bounds how many. -/
def stripZeros (fuel digits : Nat) (exponent : Int) : Nat × Int :=
  match fuel with
  | 0 => (digits, exponent)
  | fuel + 1 =>
    if digits % 10 = 0 then stripZeros fuel (digits / 10) (exponent + 1) else (digits, exponent)

/-- The same number without zeros at the end of its digits. -/
def normal (d : Decimal) : Decimal :=
  if d.digits = 0 then ⟨d.negative, 0, 0⟩
  else
    let (digits, exponent) := stripZeros d.digits d.digits d.exponent
    ⟨d.negative, digits, exponent⟩

/-- How many digits are written. -/
def digitCount (n : Nat) : Nat :=
  (Nat.toDigits 10 n).length

/-- How a number is laid out: positional while its decimal point stays near its digits, with an
exponent otherwise. -/
structure Layout where
  /-- The largest place of the point, counted from the first digit, for positional text. -/
  maxPoint : Int
  /-- Positional text begins above this place. -/
  minPoint : Int

/-- The text of a number in normal form. -/
def textIn (layout : Layout) (d : Decimal) : List Char :=
  let sign := if d.negative then ['-'] else []
  if d.digits = 0 then sign ++ ['0', '.', '0']
  else
    let ds := Nat.toDigits 10 d.digits
    let point : Int := ds.length + d.exponent
    sign ++
      if 0 ≤ d.exponent && point ≤ layout.maxPoint then
        ds ++ List.replicate d.exponent.toNat '0' ++ ['.', '0']
      else if 0 < point && point ≤ layout.maxPoint then
        ds.take point.toNat ++ '.' :: ds.drop point.toNat
      else if layout.minPoint < point && point ≤ 0 then
        ['0', '.'] ++ List.replicate (-point).toNat '0' ++ ds
      else
        let power := point - 1
        let tail := 'e' :: (if power < 0 then '-' else '+') :: Nat.toDigits 10 power.natAbs
        match ds with
        | [c] => c :: tail
        | c :: cs => c :: '.' :: cs ++ tail
        | [] => tail

end Decimal

end TypedSql
