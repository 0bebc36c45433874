import TypedSql.Diagnostic
import TypedSql.Text.Blank
import TypedSql.Text.Position
import TypedSql.Text.Quoted

/-!
# Tokens of a query file

A query file is cut into tokens without any knowledge of SQL grammar: only quoting, comments,
semicolons and placeholder calls are told apart, and everything else is a fragment. A token
keeps the exact text it was read from, so a file is the concatenation of its tokens.
-/

namespace TypedSql

/-- Why a token may not stand in a query file. -/
inductive IllegalReason where
  /-- A control character. -/
  | character
  | unterminatedString
  | unterminatedIdentifier
  | unterminatedComment
  deriving DecidableEq

namespace IllegalReason

def message : IllegalReason → String
  | .character => "illegal character"
  | .unterminatedString => "string literal not terminated"
  | .unterminatedIdentifier => "quoted identifier not terminated"
  | .unterminatedComment => "comment not terminated"

def code : IllegalReason → DiagnosticCode
  | .character => .scanIllegalCharacter
  | .unterminatedString => .scanUnterminatedString
  | .unterminatedIdentifier => .scanUnterminatedIdentifier
  | .unterminatedComment => .scanUnterminatedComment

end IllegalReason

/-- What a token is. -/
inductive TokenKind where
  /-- The end of the file; the text is empty. -/
  | endOfInput
  /-- From two dashes up to the line feed, which is not part of it. -/
  | lineComment
  /-- A comment between slash-star and star-slash, which may hold others. -/
  | blockComment
  /-- A string between single quotes or between two equal dollar tags. -/
  | stringLiteral
  /-- An identifier between double quotes. -/
  | quotedIdentifier
  /-- Any other run of text, blanks included. -/
  | fragment
  | semicolon
  /-- A call that names a parameter. -/
  | placeholder
  /-- A control character, or a delimited token without its end. -/
  | illegal (reason : IllegalReason)
  deriving DecidableEq

namespace TokenKind

def isComment : TokenKind → Bool
  | .lineComment | .blockComment => true
  | _ => false

end TokenKind

/-- A piece of a query file with its exact text and its place. -/
structure Token where
  kind : TokenKind
  literal : String
  pos : Position
  deriving DecidableEq

namespace Token

/-- The text as a list of characters. -/
def chars (t : Token) : List Char := t.literal.toList

/-- The place just after the token. -/
def stop (t : Token) : Position :=
  t.pos.advance t.chars

/-- The line on which the token ends. -/
def endLine (t : Token) : Nat :=
  t.pos.line + t.chars.count '\n'

/-- A fragment of blanks only. -/
def isBlank (t : Token) : Bool :=
  t.kind == .fragment && t.chars.all Text.isBlank

/-- A comment or a blank fragment: text that belongs to no statement. -/
def isTrivia (t : Token) : Bool :=
  t.kind.isComment || t.isBlank

/-- The name inside a placeholder call: the text between the first single quote and the last. -/
def placeholderName (t : Token) : Option String :=
  match t.kind with
  | .placeholder => do
    let (_, inner) ← Text.splitAtFirst '\'' t.chars
    let (name, _) ← Text.splitAtLast '\'' inner
    some (String.ofList name)
  | _ => none

/-- The text of a comment without its markers and without blanks around it. -/
def commentText (t : Token) : Option String :=
  match t.kind with
  | .lineComment => do
    let body ← Text.afterStart ['-', '-'] t.chars
    some (String.ofList (Text.trim body))
  | .blockComment => do
    let body ← Text.afterStart ['/', '*'] t.chars
    let body ← Text.beforeEnd ['*', '/'] body
    some (String.ofList (Text.trim body))
  | _ => none

/-- The place of the first character that is not blank. Only a fragment can start with blanks. -/
def significantStart (t : Token) : Position :=
  match t.kind with
  | .fragment => t.pos.advance (t.chars.takeWhile Text.isBlank)
  | _ => t.pos

/-- The same token without the blanks a fragment starts with. -/
def trimStart (t : Token) : Token :=
  match t.kind with
  | .fragment => ⟨.fragment, String.ofList (Text.trimStart t.chars), t.significantStart⟩
  | _ => t

/-- The form in messages. -/
def text (t : Token) : String :=
  match t.kind with
  | .endOfInput => "end of input"
  | _ => Text.quoted t.literal

end Token

end TypedSql
