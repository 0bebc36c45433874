import TypedSql.Text.Quoted
import TypedSql.Token

/-!
# Errors of a query file

What can be wrong with a query file is a small set of faults; each has a code and a message. An
error is a fault at a place. At most `maxErrors` errors of a file are recorded, and one more that
shows the limit was passed.
-/

namespace TypedSql

/-- How many errors of a file are recorded before reading stops. -/
def maxErrors : Nat := 10

/-- What is wrong with a statement. -/
inductive ParseFault where
  /-- It holds an illegal token. -/
  | illegal (reason : IllegalReason)
  /-- It runs into the end of the file. -/
  | unterminated
  /-- The last line of its comment starts like an annotation and is none. -/
  | annotationInvalid (line : String)
  /-- The last line of its comment is no annotation. -/
  | annotationMissing
  /-- It has no comment. -/
  | noComment
  deriving DecidableEq

namespace ParseFault

def code : ParseFault → DiagnosticCode
  | .illegal reason => reason.code
  | .unterminated => .parseUnterminatedQuery
  | .annotationInvalid _ => .parseAnnotationInvalid
  | .annotationMissing | .noComment => .parseAnnotationMissing

def message : ParseFault → String
  | .illegal reason => reason.message
  | .unterminated => "query is not terminated by a semicolon"
  | .annotationInvalid line =>
    "invalid query annotation " ++ Text.quoted line ++
      ", expected 'name: <Name> :many|:one|:exec'"
  | .annotationMissing =>
    "last line of the query comment must be 'name: <Name> :many|:one|:exec'"
  | .noComment => "query must be preceded by a 'name: <Name> :many|:one|:exec' comment"

end ParseFault

/-- A coded message at a place of a query file. -/
structure ParseError where
  pos : Position
  code : DiagnosticCode
  message : String
  deriving DecidableEq

namespace ParseError

/-- A fault at a place. -/
def of (pos : Position) (fault : ParseFault) : ParseError :=
  ⟨pos, fault.code, fault.message⟩

/-- The form in messages. -/
def text (e : ParseError) : String :=
  s!"{e.pos.text}: {e.message}"

/-- The error as a diagnostic about `file`. -/
def diagnostic (file : String) (e : ParseError) : Diagnostic :=
  (Diagnostic.error e.code e.message).withLocation (.point file e.pos.line e.pos.column)

/-- Errors by place. Errors of one place keep their order. -/
def sorted (errors : List ParseError) : List ParseError :=
  errors.mergeSort fun a b => a.pos.le b.pos

/-- One line about a list of errors. -/
def summary : List ParseError → String
  | [] => "no errors"
  | [e] => e.text
  | e :: rest => s!"{e.text} (and {rest.length} more errors)"

end ParseError

end TypedSql
