import TypedSql.Token.Scan

/-!
# Numbered parameters

A placeholder call names a parameter; the database knows parameters by number only. Numbering
replaces each call by a marker `$1`, `$2`, … and lists the names in the order of their numbers.
The first call of a name takes the next number and later calls repeat it. All other text stays
as it is, also text that already looks like a marker.
-/

namespace TypedSql

/-- A statement with numbered parameters. -/
structure Prepared where
  sql : String
  /-- The parameter with number `i + 1` is `names[i]`. -/
  names : List String
  deriving DecidableEq

namespace Prepared

/-- The number of a name, and the names once it has one. -/
def number (names : List String) (name : String) : Nat × List String :=
  match names.idxOf? name with
  | some i => (i + 1, names)
  | none => (names.length + 1, names ++ [name])

/-- The pieces of the numbered text, and all names, when `names` have numbers already. -/
def pieces (names : List String) : List Token → List String × List String
  | [] => ([], names)
  | t :: ts =>
    match t.placeholderName with
    | some name =>
      let (n, names) := number names name
      let (rest, names) := pieces names ts
      (s!"${n}" :: rest, names)
    | none =>
      let (rest, names) := pieces names ts
      (t.literal :: rest, names)

/-- Number the placeholder calls among `tokens`. -/
def ofTokens (tokens : List Token) : Prepared :=
  let (parts, names) := pieces [] tokens
  ⟨String.join parts, names⟩

/-- Number the placeholder calls of a text. -/
def ofText (sql ns : String) : Prepared :=
  ofTokens (tokenize sql ns)

end Prepared

end TypedSql
