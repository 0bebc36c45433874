/-!
# Numbers written by digits

Digits are the ten ASCII digits, and in other bases also ASCII letters of either case. The
readers of whole texts take one sign in front where the kind of number has a sign; a plus sign
is taken for every kind.
-/

namespace TypedSql

namespace Text

/-- The decimal digits in front, and what is behind them. -/
def takeDigits (s : List Char) : List Char × List Char :=
  (s.takeWhile Char.isDigit, s.dropWhile Char.isDigit)

/-- The number written by decimal digits. -/
def digitsValue (ds : List Char) : Nat :=
  ds.foldl (fun n c => 10 * n + (c.toNat - 48)) 0

/-- The value of a hexadecimal digit. -/
def hexValue? (c : Char) : Option Nat :=
  if '0' ≤ c ∧ c ≤ '9' then some (c.toNat - 48)
  else if 'a' ≤ c ∧ c ≤ 'f' then some (c.toNat - 87)
  else if 'A' ≤ c ∧ c ≤ 'F' then some (c.toNat - 55)
  else none

/-- A natural number of decimal digits only. -/
def digits? (s : List Char) : Option Nat :=
  if !s.isEmpty && s.all Char.isDigit then some (digitsValue s) else none

/-- A natural number up to `high`. -/
def natural? (high : Nat) (s : List Char) : Option Nat :=
  let digits := match s with
    | '+' :: rest => rest
    | s => s
  (digits? digits).filter (· ≤ high)

/-- An integer from `low` to `high`. -/
def integer? (low high : Int) (s : List Char) : Option Int :=
  let value : Option Int := match s with
    | '-' :: rest => (digits? rest).map fun n => -(n : Int)
    | '+' :: rest => (digits? rest).map fun n => (n : Int)
    | s => (digits? s).map fun n => (n : Int)
  value.filter fun n => low ≤ n ∧ n ≤ high

end Text

end TypedSql
