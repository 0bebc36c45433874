import TypedSql.Connection.Target

/-!
# Connection strings of pairs

A connection string is a row of keys and values, with an equals sign between them and blanks
around them as one likes. A backslash makes the character behind it part of the value. A value
between single quotes may be empty and may hold blanks. The row ends where no key follows.
-/

namespace TypedSql

namespace ConnectionTarget

/-- A value without quotes, and what is behind it. -/
def bareValue : List Char → List Char × List Char
  | [] => ([], [])
  | ['\\'] => ([], [])
  | '\\' :: c :: rest => let (value, rest) := bareValue rest; (c :: value, rest)
  | c :: rest =>
    if Text.isBlank c then ([], c :: rest)
    else let (value, rest) := bareValue rest; (c :: value, rest)

/-- A value up to its closing quote, and what is behind that. -/
def quotedValue? : List Char → Option (List Char × List Char)
  | [] => none
  | '\'' :: rest => some ([], rest)
  | ['\\'] => none
  | '\\' :: c :: rest => (quotedValue? rest).map fun (value, rest) => (c :: value, rest)
  | c :: rest => (quotedValue? rest).map fun (value, rest) => (c :: value, rest)

/-- A value, and what is behind it. -/
def value? : List Char → Option (List Char × List Char)
  | '\'' :: rest => quotedValue? rest
  | s =>
    match bareValue s with
    | ([], _) => none
    | found => some found

/-- A character of a key. -/
def isKeyChar (c : Char) : Bool :=
  !Text.isBlank c && c != '='

/-- The equals sign behind a key, and the value behind it. -/
def valueBehind? (s : List Char) : Option (List Char × List Char) :=
  match Text.trimStart s with
  | '=' :: rest => value? (Text.trimStart rest)
  | _ => none

/-- Add the first `fuel` pairs of a row. -/
def ofPairsWithin? : (fuel : Nat) → List Char → ConnectionTarget → Option ConnectionTarget
  | 0, _, t => some t
  | fuel + 1, s, t =>
    let s := Text.trimStart s
    match s.takeWhile isKeyChar with
    | [] => some t
    | key => do
      let (value, rest) ← valueBehind? (s.dropWhile isKeyChar)
      ofPairsWithin? fuel rest (← t.set? (String.ofList key) (String.ofList value))

/-- Read a row of pairs. -/
def ofPairs? (s : List Char) : Option ConnectionTarget :=
  ofPairsWithin? s.length s empty

end ConnectionTarget

end TypedSql
