import TypedSql.Decimal.Double
import TypedSql.Toml
import TypedSql.Toml.Text

/-!
# Numbers and moments in TOML

An underscore may stand between two digits. Integers have 64 bits and may be written in base
two, eight or sixteen, then without a sign; in base ten no zero stands in front of other digits.
A number with a point or an exponent must not be too large for double precision. Dates have to
exist in the calendar.
-/

namespace TypedSql

namespace Toml

/-- Digits with underscores between them, and what is behind them. -/
def digitRun (isDigit : Char → Bool) : List Char → List Char × List Char
  | c :: rest =>
    if isDigit c then
      match rest with
      | '_' :: d :: rest' =>
        if isDigit d then
          let (ds, rest) := digitRun isDigit (d :: rest')
          (c :: ds, rest)
        else ([c], '_' :: d :: rest')
      | rest =>
        let (ds, rest) := digitRun isDigit rest
        (c :: ds, rest)
    else ([], c :: rest)
  | [] => ([], [])
termination_by s => s.length

/-- The digits of a base, and what is behind them; none if there are no digits. -/
def digitsOf? (base : Nat) (s : List Char) : Option (List Char × List Char) :=
  let isDigit (c : Char) : Bool := ((Text.hexValue? c).any (· < base))
  match digitRun isDigit s with
  | ([], _) => none
  | found => some found

/-- The largest integer. -/
def maxInt : Nat := 9223372036854775807

/-- An integer in one of the other bases behind its mark, and what is behind it. -/
def based? (base : Nat) (s : List Char) : Option (Toml × List Char) := do
  let (ds, rest) ← digitsOf? base s
  let n := ds.foldl (fun n c => base * n + (Text.hexValue? c).getD 0) 0
  if n ≤ maxInt then some (.int n, rest) else none

/-- A sign, if there is one, and what is behind it. -/
def sign : List Char → Bool × List Char
  | '-' :: rest => (true, rest)
  | '+' :: rest => (false, rest)
  | s => (false, s)

/-- The digits in front of a point: a zero stands alone. -/
def whole? : List Char → Option (List Char × List Char)
  | '0' :: rest => some (['0'], rest)
  | s => digitsOf? 10 s

/-- The digits behind a point; no digits if there is no point. -/
def fraction? : List Char → Option (List Char × List Char)
  | '.' :: rest => digitsOf? 10 rest
  | s => some ([], s)

/-- The exponent, if there is one. -/
def exponent? : List Char → Option (Option Int × List Char)
  | e :: rest =>
    if e == 'e' || e == 'E' then do
      let (negative, rest) := sign rest
      let (ds, rest) ← digitsOf? 10 rest
      let n : Int := Text.digitsValue ds
      some (some (if negative then -n else n), rest)
    else some (none, e :: rest)
  | [] => some (none, [])

/-- The characters of `s` in front of its end `rest`. -/
def written (s rest : List Char) : List Char := s.take (s.length - rest.length)

/-- A number in base ten, and what is behind it. -/
def decimal? (s : List Char) : Option (Toml × List Char) := do
  let (negative, unsigned) := sign s
  let (whole, rest) ← whole? unsigned
  let (fraction, rest) ← fraction? rest
  let (exponent, rest) ← exponent? rest
  if fraction.isEmpty && exponent.isNone then
    let n := Text.digitsValue whole
    if n ≤ (if negative then maxInt + 1 else maxInt) then
      some (.int (if negative then -(n : Int) else n), rest)
    else none
  else
    let value : Decimal :=
      ⟨negative, Text.digitsValue (whole ++ fraction), exponent.getD 0 - fraction.length⟩
    if !negative && (BinaryFormat.double.ofDecimal? value).isNone then none
    else some (.float (written s rest), rest)

/-- An infinite number or one that is none, and what is behind it. -/
def special? (s : List Char) : Option (Toml × List Char) :=
  match (sign s).2 with
  | 'i' :: 'n' :: 'f' :: rest => some (.float (written s rest), rest)
  | 'n' :: 'a' :: 'n' :: rest => some (.float (written s rest), rest)
  | _ => none

/-- A number of just `count` digits from `low` to `high`, and what is behind it. -/
def part? (count low high : Nat) (s : List Char) : Option (Nat × List Char) := do
  let ds := s.take count
  if ds.length < count then none
  let n ← Text.digits? ds
  if low ≤ n ∧ n ≤ high then some (n, s.drop count) else none

/-- What is behind a character. -/
def behind? (c : Char) : List Char → Option (List Char)
  | d :: rest => if c = d then some rest else none
  | [] => none

def isLeapYear (year : Nat) : Bool :=
  year % 4 == 0 && (year % 100 != 0 || year % 400 == 0)

/-- The number of days of a month. -/
def daysIn (year month : Nat) : Nat :=
  if month = 2 then (if isLeapYear year then 29 else 28)
  else if [4, 6, 9, 11].contains month then 30
  else 31

/-- What is behind a date. -/
def date? (s : List Char) : Option (List Char) := do
  let (year, s) ← part? 4 0 9999 s
  let (month, s) ← part? 2 1 12 (← behind? '-' s)
  let (_, s) ← part? 2 1 (daysIn year month) (← behind? '-' s)
  some s

/-- What is behind a time of day. -/
def time? (s : List Char) : Option (List Char) := do
  let (_, s) ← part? 2 0 23 s
  let (_, s) ← part? 2 0 59 (← behind? ':' s)
  let (_, s) ← part? 2 0 60 (← behind? ':' s)
  match s with
  | '.' :: rest =>
    let (ds, rest) := Text.takeDigits rest
    some (if ds.isEmpty then s else rest)
  | s => some s

/-- What is behind a time zone, if there is one. -/
def zone? (s : List Char) : Option (List Char) :=
  match s with
  | 'Z' :: rest | 'z' :: rest => some rest
  | '+' :: rest | '-' :: rest => do
    let (_, s) ← part? 2 0 23 rest
    let (_, s) ← part? 2 0 59 (← behind? ':' s)
    some s
  | _ => none

/-- What is behind a time on a date, with or without a zone, if there is one. -/
def timeBehindDate? : List Char → Option (List Char)
  | c :: rest =>
    if c == 'T' || c == 't' || c == ' ' then (time? rest).map fun rest => (zone? rest).getD rest
    else none
  | [] => none

/-- A moment, and what is behind it. -/
def moment? (s : List Char) : Option (Toml × List Char) :=
  let rest := match date? s with
    | some rest => some ((timeBehindDate? rest).getD rest)
    | none => time? s
  rest.map fun rest => (.moment (written s rest), rest)

/-- A value that holds no other, and what is behind it. -/
def scalar? (s : List Char) : Option (Toml × List Char) :=
  match s with
  | 't' :: 'r' :: 'u' :: 'e' :: rest => some (.bool true, rest)
  | 'f' :: 'a' :: 'l' :: 's' :: 'e' :: rest => some (.bool false, rest)
  | '0' :: 'x' :: rest => based? 16 rest
  | '0' :: 'o' :: rest => based? 8 rest
  | '0' :: 'b' :: rest => based? 2 rest
  | s =>
    if s.head? = some '"' || s.head? = some '\'' then
      (text? s).map fun (text, rest) => (.string text, rest)
    else ((moment? s).or (special? s)).or (decimal? s)

end Toml

end TypedSql
