import TypedSql.Json

/-!
# Writing JSON

There are two layouts: compact, without any blank, and indented, with two blanks for each level
and one entry on each line. Both write texts the same way: a backslash before a double quote and
a backslash, short escapes for backspace, tab, line feed, form feed and carriage return, four
hexadecimal digits for other control characters, and every other character as it is.
-/

namespace TypedSql

namespace Json

/-- A hexadecimal digit in lower case. -/
def hexDigit (n : Nat) : Char :=
  Nat.digitChar n

/-- One character of a written text. -/
def escape (c : Char) : List Char :=
  match c with
  | '"' => ['\\', '"']
  | '\\' => ['\\', '\\']
  | '\x08' => ['\\', 'b']
  | '\t' => ['\\', 't']
  | '\n' => ['\\', 'n']
  | '\x0c' => ['\\', 'f']
  | '\r' => ['\\', 'r']
  | c =>
    if c.toNat < 0x20 then ['\\', 'u', '0', '0', hexDigit (c.toNat / 16), hexDigit (c.toNat % 16)]
    else [c]

/-- A text between double quotes. -/
def writeString (s : String) : List Char :=
  '"' :: s.toList.flatMap escape ++ ['"']

/-- A value that holds no other. What has no value is null, an infinite number included. -/
def writeScalar : Json → List Char
  | .bool true => ['t', 'r', 'u', 'e']
  | .bool false => ['f', 'a', 'l', 's', 'e']
  | .int n => (toString n).toList
  | .single x => x.text?.getD ['n', 'u', 'l', 'l']
  | .double x => x.text
  | .string s => writeString s
  | _ => ['n', 'u', 'l', 'l']

mutual

/-- The compact layout. -/
def compact : Json → List Char
  | .array [] => ['[', ']']
  | .array (item :: items) => '[' :: compact item ++ compactItems items
  | .object [] => ['\x7b', '\x7d']
  | .object ((key, value) :: members) =>
    '\x7b' :: writeString key ++ ':' :: compact value ++ compactMembers members
  | scalar => writeScalar scalar

/-- The items behind the first, and the end of the array. -/
def compactItems : List Json → List Char
  | [] => [']']
  | item :: items => ',' :: compact item ++ compactItems items

/-- The members behind the first, and the end of the object. -/
def compactMembers : List (String × Json) → List Char
  | [] => ['\x7d']
  | (key, value) :: members =>
    ',' :: writeString key ++ ':' :: compact value ++ compactMembers members

end

/-- A new line, indented by `depth` levels. -/
def newLine (depth : Nat) : List Char :=
  '\n' :: List.replicate (2 * depth) ' '

mutual

/-- The indented layout of a value that stands `depth` levels deep. -/
def indented (depth : Nat) : Json → List Char
  | .array [] => ['[', ']']
  | .array (item :: items) =>
    '[' :: newLine (depth + 1) ++ indented (depth + 1) item ++ indentedItems depth items
  | .object [] => ['\x7b', '\x7d']
  | .object ((key, value) :: members) =>
    '\x7b' :: newLine (depth + 1) ++ writeString key ++ [':', ' '] ++
      indented (depth + 1) value ++ indentedMembers depth members
  | scalar => writeScalar scalar

/-- The items behind the first, and the end of the array. -/
def indentedItems (depth : Nat) : List Json → List Char
  | [] => newLine depth ++ [']']
  | item :: items =>
    ',' :: newLine (depth + 1) ++ indented (depth + 1) item ++ indentedItems depth items

/-- The members behind the first, and the end of the object. -/
def indentedMembers (depth : Nat) : List (String × Json) → List Char
  | [] => newLine depth ++ ['\x7d']
  | (key, value) :: members =>
    ',' :: newLine (depth + 1) ++ writeString key ++ [':', ' '] ++
      indented (depth + 1) value ++ indentedMembers depth members

end

/-- The text of a value on one line. -/
def text (j : Json) : String :=
  String.ofList j.compact

/-- The text of a value on indented lines. -/
def indentedText (j : Json) : String :=
  String.ofList (j.indented 0)

end Json

end TypedSql
