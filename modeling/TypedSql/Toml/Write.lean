import TypedSql.Toml.Text

/-!
# Writing TOML

A text is written in the first of four forms that shows it without an escape: between double
quotes, between single quotes, between three double quotes, between three single quotes. If each
of them would need one, the text stands between double quotes with escapes, three of them on a
side if it has line ends. A text with line ends starts on a line of its own. An array of two or
more items has each of them on a line.
-/

namespace TypedSql

namespace Toml

/-- The length of the longest run of a character. -/
def longestRun (quote : Char) (s : List Char) : Nat :=
  (s.foldl (fun (longest, run) c =>
    if c = quote then (max longest (run + 1), run + 1) else (longest, 0)) (0, 0)).1

/-- How a text is quoted. -/
inductive TextForm where
  | basic
  | literal
  | basicLines
  | literalLines
  deriving DecidableEq

namespace TextForm

/-- The quotes on either side. -/
def quotes : TextForm → List Char
  | .basic => ['"']
  | .literal => ['\'']
  | .basicLines => ['"', '"', '"']
  | .literalLines => ['\'', '\'', '\'']

/-- Whether the text stands as it is. -/
def isLiteral : TextForm → Bool
  | .literal | .literalLines => true
  | _ => false

/-- Whether the text may go over several lines. -/
def isLines : TextForm → Bool
  | .basicLines | .literalLines => true
  | _ => false

/-- The form that a text is written in. -/
def of (s : List Char) : TextForm :=
  let isShown := s.all fun c => c == '\n' || isPlain c
  let hasLines := s.contains '\n'
  let hasEscapes := s.contains '\\'
  if isShown && !hasLines && !hasEscapes && !s.contains '"' then .basic
  else if isShown && !hasLines && !s.contains '\'' then .literal
  else if isShown && !hasEscapes && longestRun '"' s ≤ 2 then .basicLines
  else if isShown && longestRun '\'' s ≤ 2 then .literalLines
  else if hasLines then .basicLines
  else .basic

end TextForm

/-- A character of a text between one double quote on either side. -/
def writeChar (c : Char) : List Char :=
  match c with
  | '\x08' => ['\\', 'b']
  | '\t' => ['\\', 't']
  | '\n' => ['\\', 'n']
  | '\x0c' => ['\\', 'f']
  | '\r' => ['\\', 'r']
  | '"' => ['\\', '"']
  | '\\' => ['\\', '\\']
  | c =>
    if isPlain c then [c]
    else ['\\', 'u', '0', '0', (Nat.digitChar (c.toNat / 16)).toUpper,
      (Nat.digitChar (c.toNat % 16)).toUpper]

/-- A text between three double quotes. Of three quotes in a row the last is escaped; `run` is how
many stand in front. -/
def writeLines (run : Nat) : List Char → List Char
  | [] => []
  | '"' :: s => if run < 2 then '"' :: writeLines (run + 1) s else '\\' :: '"' :: writeLines 0 s
  | '\n' :: s => '\n' :: writeLines 0 s
  | c :: s => writeChar c ++ writeLines 0 s

/-- A text with its quotes. -/
def writeText (text : String) : List Char :=
  let s := text.toList
  let form := TextForm.of s
  let start := if form.isLines && s.contains '\n' then ['\n'] else []
  let body := if form.isLiteral then s
    else if form.isLines then writeLines 0 s
    else s.flatMap writeChar
  form.quotes ++ start ++ body ++ form.quotes

/-- An array of texts. -/
def writeTexts (texts : List String) : List Char :=
  match texts with
  | [] => ['[', ']']
  | [text] => '[' :: writeText text ++ [']']
  | texts =>
    '[' :: texts.flatMap (fun text => '\n' :: List.replicate 4 ' ' ++ writeText text ++ [',']) ++
      ['\n', ']']

/-- The line of a key and its written value. -/
def writeLine (key : String) (value : List Char) : List Char :=
  key.toList ++ [' ', '=', ' '] ++ value ++ ['\n']

/-- The line of a key and a text. -/
def writeTextLine (key text : String) : List Char :=
  writeLine key (writeText text)

/-- The line of a key and a number. -/
def writeNatLine (key : String) (n : Nat) : List Char :=
  writeLine key (Nat.toDigits 10 n)

/-- The line of a key and a truth value. -/
def writeBoolLine (key : String) (b : Bool) : List Char :=
  writeLine key (toString b).toList

/-- The lines of a table under a header, behind other lines. -/
def writeTable (key : String) (lines : List Char) : List Char :=
  ['\n', '['] ++ key.toList ++ [']', '\n'] ++ lines

end Toml

end TypedSql
