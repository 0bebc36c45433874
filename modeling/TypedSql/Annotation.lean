import TypedSql.Comment
import TypedSql.ParseError
import TypedSql.ResultKind

/-!
# Annotations

The last line of the comment in front of a statement names the query:
`name: <Name> :many|:one|:exec`, with an option `proto-type=<value>` behind it. The parts are
separated by blanks; blanks behind the colon may be missing. A line has at most one reading,
because each part ends where a blank, or a character that is no part of an identifier, begins.
-/

namespace TypedSql

/-- What the comment in front of a statement says about it. -/
structure Annotation where
  name : String
  kind : ResultKind
  protoType : Option String
  /-- The lines in front of the annotation. -/
  doc : List String
  deriving DecidableEq

namespace Annotation

/-- The identifier at the start of a text, and the text behind it. -/
def takeIdent : List Char → Option (List Char × List Char)
  | [] => none
  | c :: cs =>
    if Text.isIdentStart c then
      some (c :: cs.takeWhile Text.isWord, cs.dropWhile Text.isWord)
    else none

/-- The text behind at least one blank. -/
def skipBlanks : List Char → Option (List Char)
  | [] => none
  | c :: cs => if Text.isBlank c then some (Text.trimStart cs) else none

/-- The marker at the start of a text, and the text behind it. -/
def takeMarker (s : List Char) : Option (ResultKind × List Char) :=
  [ResultKind.many, .one, .exec].findSome? fun kind =>
    (Text.afterStart kind.marker.toList s).map fun rest => (kind, rest)

/-- The option behind the marker, if there is one, when nothing else is there. -/
def takeOption (s : List Char) : Option (Option (List Char)) :=
  if s.all Text.isBlank then some none
  else do
    let rest ← skipBlanks s
    let rest ← Text.afterStart "proto-type=".toList rest
    let value := rest.takeWhile fun c => !Text.isBlank c
    if value.isEmpty then none
    if (rest.drop value.length).all Text.isBlank then some (some value) else none

/-- Read an annotation line. -/
def ofLine? (line : String) : Option (String × ResultKind × Option String) := do
  let rest ← Text.afterStart "name:".toList line.toList
  let (name, rest) ← takeIdent (Text.trimStart rest)
  let rest ← skipBlanks rest
  let (kind, rest) ← takeMarker rest
  let value ← takeOption rest
  some (String.ofList name, kind, value.map String.ofList)

/-- What is wrong with a last line that is no annotation. -/
def fault (line : String) : ParseFault :=
  if "name:".toList.isPrefixOf line.toList then .annotationInvalid line else .annotationMissing

/-- Read the comment in front of a statement. An error is at the last comment. -/
def ofGroup (g : CommentGroup) : Except ParseError Annotation :=
  let line := g.lines.getLast?.getD ""
  match ofLine? line with
  | some (name, kind, protoType) => .ok ⟨name, kind, protoType, g.lines.dropLast⟩
  | none => .error (.of g.lastPos (fault line))

end Annotation

end TypedSql
