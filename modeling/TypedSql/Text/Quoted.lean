import TypedSql.Text.Numbered

/-!
# Quoted text

The form of a text in messages: between double quotes, with a backslash before a double quote
and a backslash, short escapes for NUL, tab, line feed and carriage return, and the code point
in lower-case hexadecimal for every other character that is shown by number.
-/

namespace TypedSql

namespace Text

/-- The lower-case hexadecimal digits of a number, at least one. -/
def hex (n : Nat) : List Char :=
  Nat.toDigits 16 n

/-- One character of a quoted text. -/
def quotedChar (c : Char) : List Char :=
  match c with
  | '\x00' => ['\\', '0']
  | '\t' => ['\\', 't']
  | '\n' => ['\\', 'n']
  | '\r' => ['\\', 'r']
  | '"' => ['\\', '"']
  | '\\' => ['\\', '\\']
  | c => if isNumbered c then ['\\', 'u', '\x7b'] ++ hex c.toNat ++ ['\x7d'] else [c]

/-- A text between double quotes, readable on one line. -/
def quoted (s : String) : String :=
  String.ofList ('"' :: s.toList.flatMap quotedChar ++ ['"'])

end Text

end TypedSql
