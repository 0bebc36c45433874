import TypedSql.Text.Numeral

/-!
# Blanks, texts and keys in TOML

A text stands between double quotes, with escapes, or between single quotes, without; between
three quotes of a kind it may go over several lines. A line ends at a line feed, with or without
a carriage return before it, and ends in a text are line feeds. Control characters other than
the tab may stand nowhere.
-/

namespace TypedSql

namespace Toml

def isSpace (c : Char) : Bool := c == ' ' || c == '\t'

/-- A character that may stand in a comment and, but for quotes, in a text. -/
def isPlain (c : Char) : Bool :=
  c == '\t' || (0x20 ≤ c.toNat && c.toNat != 0x7F)

def skipSpaces (s : List Char) : List Char := s.dropWhile isSpace

/-- What is behind the end of a line. -/
def newline? : List Char → Option (List Char)
  | '\n' :: rest => some rest
  | '\r' :: '\n' :: rest => some rest
  | _ => none

/-- What is behind a comment, if there is one. -/
def skipComment : List Char → List Char
  | '#' :: rest => rest.dropWhile isPlain
  | s => s

/-- What is behind blanks, a comment and the end of the line or of the document. -/
def endLine? (s : List Char) : Option (List Char) :=
  match skipComment (skipSpaces s) with
  | [] => some []
  | s => newline? s

/-- What is behind blanks, comments and ends of lines, of which there are at most `fuel`. -/
def skipLines : (fuel : Nat) → List Char → List Char
  | 0, s => s
  | fuel + 1, s =>
    let s := skipSpaces s
    match newline? (skipComment s) with
    | some rest => skipLines fuel rest
    | none => s

/-- The character with `count` hexadecimal digits, and what is behind it. -/
def codePoint? (count : Nat) (s : List Char) : Option (Char × List Char) := do
  let digits := s.take count
  if digits.length < count then none
  let values ← digits.mapM Text.hexValue?
  let n := values.foldl (fun n d => 16 * n + d) 0
  if h : n.isValidChar then some (Char.ofNatAux n h, s.drop count) else none

/-- The character of an escape behind its backslash, and what is behind it. -/
def escape? : List Char → Option (Char × List Char)
  | 'b' :: rest => some ('\x08', rest)
  | 't' :: rest => some ('\t', rest)
  | 'n' :: rest => some ('\n', rest)
  | 'f' :: rest => some ('\x0c', rest)
  | 'r' :: rest => some ('\r', rest)
  | '"' :: rest => some ('"', rest)
  | '\\' :: rest => some ('\\', rest)
  | 'u' :: rest => codePoint? 4 rest
  | 'U' :: rest => codePoint? 8 rest
  | _ => none

/-- A text up to its closing double quote, and what is behind that. -/
def basicText? : (fuel : Nat) → List Char → Option (List Char × List Char)
  | _, '"' :: rest => some ([], rest)
  | fuel + 1, '\\' :: rest => do
    let (c, rest) ← escape? rest
    let (text, rest) ← basicText? fuel rest
    some (c :: text, rest)
  | fuel + 1, c :: rest =>
    if isPlain c then (basicText? fuel rest).map fun (text, rest) => (c :: text, rest) else none
  | _, _ => none

/-- A text up to its closing single quote, and what is behind that. -/
def literalText? : List Char → Option (List Char × List Char)
  | '\'' :: rest => some ([], rest)
  | c :: rest =>
    if isPlain c then (literalText? rest).map fun (text, rest) => (c :: text, rest) else none
  | [] => none

/-- A text up to three closing quotes, and what is behind them. Up to two more quotes in front
of them belong to the text. -/
def closing? (quote : Char) (s : List Char) : Option (List Char × List Char) :=
  let count := (s.takeWhile (· == quote)).length
  if count < 3 then none
  else
    let kept := min (count - 3) 2
    some (List.replicate kept quote, s.drop (kept + 3))

/-- What is behind blanks and ends of lines. -/
def skipBlankLines : List Char → List Char
  | '\n' :: rest => skipBlankLines rest
  | '\r' :: '\n' :: rest => skipBlankLines rest
  | c :: rest => if isSpace c then skipBlankLines rest else c :: rest
  | [] => []

/-- What is behind the blanks and ends of lines that a backslash joins, if it is the last mark of
its line. -/
def joinLines? (s : List Char) : Option (List Char) :=
  (newline? (skipSpaces s)).map skipBlankLines

/-- A text over several lines between double quotes. -/
def basicLines? : (fuel : Nat) → List Char → Option (List Char × List Char)
  | 0, _ => none
  | fuel + 1, s =>
    match closing? '"' s, s with
    | some found, _ => some found
    | none, '\\' :: rest =>
      match joinLines? rest with
      | some rest => basicLines? fuel rest
      | none => do
        let (c, rest) ← escape? rest
        let (text, rest) ← basicLines? fuel rest
        some (c :: text, rest)
    | none, s =>
      match newline? s, s with
      | some rest, _ => (basicLines? fuel rest).map fun (text, rest) => ('\n' :: text, rest)
      | none, c :: rest =>
        if isPlain c then (basicLines? fuel rest).map fun (text, rest) => (c :: text, rest)
        else none
      | none, [] => none

/-- A text over several lines between single quotes. -/
def literalLines? : (fuel : Nat) → List Char → Option (List Char × List Char)
  | 0, _ => none
  | fuel + 1, s =>
    match closing? '\'' s with
    | some found => some found
    | none =>
      match newline? s, s with
      | some rest, _ => (literalLines? fuel rest).map fun (text, rest) => ('\n' :: text, rest)
      | none, c :: rest =>
        if isPlain c then (literalLines? fuel rest).map fun (text, rest) => (c :: text, rest)
        else none
      | none, [] => none

/-- What is behind the end of a line right at the start of a text over several lines. -/
def dropNewline (s : List Char) : List Char := (newline? s).getD s

/-- A text of any kind, and what is behind it. -/
def text? (s : List Char) : Option (String × List Char) :=
  let fuel := s.length
  let found := match s with
    | '"' :: '"' :: '"' :: rest => basicLines? fuel (dropNewline rest)
    | '\'' :: '\'' :: '\'' :: rest => literalLines? fuel (dropNewline rest)
    | '"' :: rest => basicText? fuel rest
    | '\'' :: rest => literalText? rest
    | _ => none
  found.map fun (text, rest) => (String.ofList text, rest)

/-- A character of a key without quotes. -/
def isKeyChar (c : Char) : Bool := c.isAlphanum || c == '_' || c == '-'

/-- One key, and what is behind it. -/
def simpleKey? (s : List Char) : Option (String × List Char) :=
  match s with
  | '"' :: rest => (basicText? s.length rest).map fun (text, rest) => (String.ofList text, rest)
  | '\'' :: rest => (literalText? rest).map fun (text, rest) => (String.ofList text, rest)
  | s =>
    match s.takeWhile isKeyChar with
    | [] => none
    | key => some (String.ofList key, s.dropWhile isKeyChar)

/-- At most `fuel` keys with points between them, and what is behind the blanks behind them. -/
def keys? : (fuel : Nat) → List Char → Option (List String × List Char)
  | 0, _ => none
  | fuel + 1, s => do
    let (key, rest) ← simpleKey? (skipSpaces s)
    match skipSpaces rest with
    | '.' :: rest => (keys? fuel rest).map fun (keys, rest) => (key :: keys, rest)
    | rest => some ([key], rest)

/-- Values and keys may nest less deep than this. -/
def maxDepth : Nat := 80

/-- The way to a value: the keys of the tables on it, and its own key. -/
def path? (s : List Char) : Option (List String × String × List Char) := do
  let (keys, rest) ← keys? (maxDepth - 1) s
  match keys.getLast? with
  | some key => some (keys.dropLast, key, rest)
  | none => none

end Toml

end TypedSql
