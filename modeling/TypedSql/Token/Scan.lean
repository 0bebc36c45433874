import TypedSql.Token

/-!
# Cutting a text into tokens

A scanner stands somewhere in a text: it holds the characters before it, nearest first, and the
characters after it. What token starts at a place depends on both, because a word that runs into
a dollar sign or into a placeholder call is no dollar quote and no call, and because the letter E
in front of a string literal turns on backslash escapes.

Each kind of token has a function that measures it in characters; `lexeme` tries them in order.
It counts the characters after the first, so every token has at least one character and scanning
a text ends.
-/

namespace TypedSql

namespace Scan

/-- A control character that may not stand in a query file. Tab, line feed, form feed and
carriage return may. -/
def isIllegal (c : Char) : Bool :=
  (c.toNat < 0x20 && !(c == '\t' || c == '\n' || c == '\r' || c == '\x0c')) || c == '\x7f'

/-- Whether the nearest character before a place belongs to a word. -/
def followsWord (before : List Char) : Bool :=
  before.head?.any Text.isWord

/-- Whether a string literal that starts here knows backslash escapes: it is directly behind a
letter E that is a word of its own. -/
def isEscapeString : List Char → Bool
  | c :: before => (c == 'e' || c == 'E') && !followsWord before
  | [] => false

/-- The length of an identifier at the start of a text. -/
def identLength : List Char → Option Nat
  | [] => none
  | c :: cs =>
    if Text.isIdentStart c then some (1 + (cs.takeWhile Text.isWord).length) else none

/-- The length of a dollar tag with both dollar signs. Behind a word a dollar sign belongs to
the word. -/
def dollarTagLength (before rest : List Char) : Option Nat :=
  match rest with
  | '$' :: '$' :: _ => if followsWord before then none else some 2
  | '$' :: cs => do
    if followsWord before then none
    let n ← identLength cs
    if (cs.drop n).head? = some '$' then some (n + 2) else none
  | _ => none

/-- The number of characters before the first place where `tag` starts. -/
def findTag (tag : List Char) : List Char → Option Nat
  | [] => if tag.isEmpty then some 0 else none
  | c :: cs =>
    if tag.isPrefixOf (c :: cs) then some 0 else (findTag tag cs).map (· + 1)

/-- The length of a placeholder call: the name of the call's owner, `.arg(`, a quoted identifier
and a closing parenthesis, with ASCII blanks around the quotes. The call stands on its own: it
does not continue a word or a dotted name. -/
def placeholderLength (ns before rest : List Char) : Option Nat := do
  let afterName ← Text.afterStart ns rest
  if before.head?.any fun c => Text.isWord c || c == '.' then none
  let afterOpen ← Text.afterStart ['.', 'a', 'r', 'g', '('] afterName
  let afterQuote ← Text.afterStart ['\''] (afterOpen.dropWhile Text.isAsciiBlank)
  let n ← identLength afterQuote
  let afterIdent ← Text.afterStart ['\''] (afterQuote.drop n)
  let afterCall ← Text.afterStart [')'] (afterIdent.dropWhile Text.isAsciiBlank)
  some (rest.length - afterCall.length)

/-- The number of characters through the closing quote, in the text behind the opening one. A
doubled quote stands for a quote; with `escapes`, a backslash takes the next character along. -/
def quotedLength (quote : Char) (escapes : Bool) : List Char → Option Nat
  | [] => none
  | [c] => if escapes && c == '\\' then none else if c = quote then some 1 else none
  | c :: d :: cs =>
    if escapes && c == '\\' then (quotedLength quote escapes cs).map (· + 2)
    else if c = quote then
      if d = quote then (quotedLength quote escapes cs).map (· + 2) else some 1
    else (quotedLength quote escapes (d :: cs)).map (· + 1)

/-- The number of characters through the end of a block comment that is `depth` comments deep
and is left once more than that. -/
def commentLength (depth : Nat) : List Char → Option Nat
  | '/' :: '*' :: cs => (commentLength (depth + 1) cs).map (· + 2)
  | '*' :: '/' :: cs =>
    match depth with
    | 0 => some 2
    | depth + 1 => (commentLength depth cs).map (· + 2)
  | _ :: cs => (commentLength depth cs).map (· + 1)
  | [] => none

/-- Whether a token other than a fragment starts here, so that a fragment ends. -/
def endsFragment (ns before : List Char) (c : Char) (rest : List Char) : Bool :=
  if c == ';' || c == '\'' || c == '"' then true
  else if c == '-' then rest.head? = some '-'
  else if c == '/' then rest.head? = some '*'
  else if c == '$' then (dollarTagLength before (c :: rest)).isSome
  else isIllegal c || (placeholderLength ns before (c :: rest)).isSome

/-- The number of characters up to the end of a fragment. -/
def fragmentLength (ns : List Char) : (before rest : List Char) → Nat
  | _, [] => 0
  | before, c :: cs =>
    if endsFragment ns before c cs then 0 else fragmentLength ns (c :: before) cs + 1

/-- A delimited token: complete if its end was found, else illegal up to the end of the text. -/
def delimited (kind : TokenKind) (reason : IllegalReason) (cs : List Char) (n : Option Nat) :
    TokenKind × Nat :=
  match n with
  | some n => (kind, n)
  | none => (.illegal reason, cs.length)

/-- A string between two equal dollar tags, the first of them `n` characters long. -/
def dollarString (c : Char) (cs : List Char) (n : Nat) : TokenKind × Nat :=
  let body := cs.drop (n - 1)
  delimited .stringLiteral .unterminatedString cs
    ((findTag ((c :: cs).take n) body).map fun k => (n - 1) + k + n)

/-- The kind of the token that starts with `c`, and its length without `c`. -/
def lexeme (ns before : List Char) (c : Char) (cs : List Char) : TokenKind × Nat :=
  match dollarTagLength before (c :: cs) with
  | some n => dollarString c cs n
  | none =>
    match placeholderLength ns before (c :: cs) with
    | some n => (.placeholder, n - 1)
    | none =>
      if c == ';' then (.semicolon, 0)
      else if c == '-' && cs.head? = some '-' then
        (.lineComment, (cs.takeWhile (· != '\n')).length)
      else if c == '/' && cs.head? = some '*' then
        delimited .blockComment .unterminatedComment cs
          ((commentLength 0 (cs.drop 1)).map (· + 1))
      else if c == '\'' then
        delimited .stringLiteral .unterminatedString cs
          (quotedLength '\'' (isEscapeString before) cs)
      else if c == '"' then
        delimited .quotedIdentifier .unterminatedIdentifier cs (quotedLength '"' false cs)
      else if isIllegal c then (.illegal .character, 0)
      else (.fragment, fragmentLength ns (c :: before) cs)

end Scan

/-- A place in a text that is being cut into tokens. -/
structure Scanner where
  /-- The owner of placeholder calls, as in `ns.arg('Name')`. -/
  ns : List Char
  pos : Position
  /-- What was read, nearest character first. -/
  before : List Char
  /-- What is still to read. -/
  rest : List Char

namespace Scanner

/-- The scanner at the start of a text. -/
def ofText (src ns : String) : Scanner :=
  ⟨ns.toList, .start, [], src.toList⟩

/-- The scanner behind the next `n + 1` characters, the first of them `c`. -/
def skip (s : Scanner) (c : Char) (cs : List Char) (n : Nat) : Scanner :=
  let literal := c :: cs.take n
  { s with
    pos := s.pos.advance literal
    before := literal.reverse ++ s.before
    rest := cs.drop n }

/-- The next token and the scanner behind it. At the end of the text this is an empty token, as
often as it is asked for. -/
def next (s : Scanner) : Token × Scanner :=
  match s.rest with
  | [] => (⟨.endOfInput, "", s.pos⟩, s)
  | c :: cs =>
    let (kind, n) := Scan.lexeme s.ns s.before c cs
    (⟨kind, String.ofList (c :: cs.take n), s.pos⟩, s.skip c cs n)

/-- A token that is not the end of input takes characters away. -/
theorem length_rest_next {s : Scanner} (h : s.rest ≠ []) :
    s.next.2.rest.length < s.rest.length := by
  unfold next
  split
  · contradiction
  · rename_i c cs hr
    simp only [skip, hr, List.length_drop, List.length_cons]
    omega

/-- All tokens up to the end of the text, without the end of input. -/
def tokens (s : Scanner) : List Token :=
  if h : s.rest = [] then [] else
    have := length_rest_next h
    s.next.1 :: s.next.2.tokens
termination_by s.rest.length

end Scanner

/-- The tokens of a text in which placeholder calls belong to `ns`. -/
def tokenize (src ns : String) : List Token :=
  (Scanner.ofText src ns).tokens

end TypedSql
