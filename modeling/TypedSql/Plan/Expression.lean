import TypedSql.Text.Blank

/-!
# Output expressions

An output expression is SQL text that the database wrote. Two forms of it matter for
nullability: a string or number, perhaps cast to a type, and a bare column, perhaps with its
table in front. Both are recognised by their characters, with blanks around the expression
ignored.
-/

namespace TypedSql

namespace Expression

/-- A character of the type behind a cast. -/
def isCastChar (c : Char) : Bool :=
  Text.isWord c || c == ' ' || c == '.' || c == '"' || c == '[' || c == ']' || c == '(' || c == ')'

/-- Nothing, or one cast. -/
def isCast : List Char → Bool
  | [] => true
  | ':' :: ':' :: c :: cs => Text.isIdentStart c && cs.all isCastChar
  | _ => false

/-- The text behind a string or quoted identifier whose opening quote was read. -/
def afterQuoted (quote : Char) : List Char → Option (List Char)
  | [] => none
  | [c] => if c = quote then some [] else none
  | c :: d :: cs =>
    if c = quote then
      if d = quote then afterQuoted quote cs else some (d :: cs)
    else afterQuoted quote (d :: cs)

/-- A character of a number. -/
def isNumberChar (c : Char) : Bool :=
  c.isDigit || c == '.' || c == 'e' || c == 'E' || c == '+' || c == '-'

/-- A string with perhaps a cast behind it. -/
def isString : List Char → Bool
  | '\'' :: cs => (afterQuoted '\'' cs).any isCast
  | _ => false

/-- A number with perhaps a cast behind it. -/
def isNumber : List Char → Bool
  | c :: cs => c.isDigit && isCast (cs.dropWhile isNumberChar)
  | [] => false

/-- Whether an expression is a string or a number, perhaps with a cast. -/
def isLiteral (expr : String) : Bool :=
  let s := Text.trim expr.toList
  isString s || isNumber s

/-- A character inside an unquoted identifier. -/
def isIdentChar (c : Char) : Bool :=
  Text.isWord c || c == '$'

/-- The text behind an identifier, quoted or not. -/
def afterIdent : List Char → Option (List Char)
  | '"' :: '"' :: '"' :: cs => afterQuoted '"' cs
  | '"' :: '"' :: _ => none
  | '"' :: cs => afterQuoted '"' cs
  | c :: cs => if Text.isIdentStart c then some (cs.dropWhile isIdentChar) else none
  | [] => none

/-- Whether an expression is a column, perhaps with its table in front. -/
def isColumn (expr : String) : Bool :=
  match afterIdent (Text.trim expr.toList) with
  | some [] => true
  | some ('.' :: rest) => afterIdent rest == some []
  | _ => false

end Expression

end TypedSql
