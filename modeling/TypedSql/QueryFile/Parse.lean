import TypedSql.QueryFile

/-!
# Reading a query file

The tokens of a file are cut behind every semicolon. A segment starts with comments and blanks
and then holds the tokens of one statement, or none. The statement belongs to the last comment
group in front of it, unless a blank line stands between them.

The draft of a file collects statements, comment groups and errors segment by segment. Two rules
concern the errors alone: an error on the line of the error recorded before it is dropped, since
one mistake tends to cause several complaints, and once more than `maxErrors` are recorded
nothing further is read.
-/

namespace TypedSql

/-- A stretch of a file up to a semicolon or to the end. -/
structure Segment where
  /-- The comments and blanks in front. -/
  trivia : List Token
  /-- The tokens of the statement without its semicolon. -/
  body : List Token
  semicolon : Option Token

namespace Segment

/-- Cut tokens behind every semicolon. -/
def cut (tokens : List Token) : List Segment :=
  if tokens = [] then [] else
    let statement := tokens.dropWhile Token.isTrivia
    let inside := fun t : Token => t.kind != .semicolon
    match h : statement.dropWhile inside with
    | [] => [⟨tokens.takeWhile Token.isTrivia, statement, none⟩]
    | semicolon :: rest =>
      have : rest.length < tokens.length := by
        have h₁ := (statement.dropWhile_suffix inside).length_le
        have h₂ : statement.length ≤ tokens.length :=
          (tokens.dropWhile_suffix Token.isTrivia).length_le
        rw [h, List.length_cons] at h₁
        omega
      ⟨tokens.takeWhile Token.isTrivia, statement.takeWhile inside, some semicolon⟩ :: cut rest
termination_by tokens.length

/-- The comment group that belongs to the statement of a segment. -/
def lead (s : Segment) : Option CommentGroup := do
  let first ← s.body.head?
  let group ← (CommentGroup.ofTrivia s.trivia).getLast?
  if group.touches first.significantStart.line then some group else none

/-- All tokens of the statement, the first without the blanks in front of it. -/
def statement (s : Segment) : List Token :=
  match s.body ++ s.semicolon.toList with
  | first :: rest => first.trimStart :: rest
  | [] => []

end Segment

/-- What is known of a file while it is read. -/
structure Draft where
  /-- In the order in which they were recorded. -/
  errors : List ParseError
  queries : List Query
  comments : List CommentGroup
  doc : List String
  /-- Whether a comment group or a statement was met. -/
  seen : Bool

namespace Draft

def empty : Draft := ⟨[], [], [], [], false⟩

/-- Whether reading stops. -/
def isFull (d : Draft) : Bool :=
  maxErrors < d.errors.length

/-- Record an error, unless it is on the line of the error before it. -/
def report (d : Draft) (e : ParseError) : Draft :=
  if d.errors.getLast?.any fun last => last.pos.line == e.pos.line then d
  else { d with errors := d.errors ++ [e] }

/-- Record a statement. -/
def add (d : Draft) (q : Query) : Draft :=
  { d with queries := d.queries ++ [q] }

/-- Record a comment group in front of a statement. The first one documents the file, unless a
statement was met before it or it belongs to one. -/
def addGroup (isLead : Bool) (d : Draft) (g : CommentGroup) : Draft :=
  { d with
    comments := d.comments ++ [g]
    doc := if !d.seen && !isLead then g.lines else d.doc
    seen := true }

/-- Record the comment groups in front of a statement, the last of which may belong to it. -/
def addTrivia (d : Draft) (s : Segment) : Draft :=
  let groups := CommentGroup.ofTrivia s.trivia
  (groups.getLast?.toList).foldl (addGroup s.lead.isSome)
    (groups.dropLast.foldl (addGroup false) d)

/-- Read a token inside a statement: an illegal one is an error, and a comment is a group of its
own. -/
def addToken (d : Draft) (t : Token) : Draft :=
  if d.isFull then d
  else
    match t.kind with
    | .illegal reason => d.report (.of t.pos (.illegal reason))
    | .lineComment | .blockComment => { d with comments := d.comments ++ [⟨[t]⟩] }
    | _ => d

/-- The source query of a statement with an annotation. -/
def sourceQuery (a : Annotation) (tokens : List Token) (span : Span) : SourceQuery :=
  let prepared := Prepared.ofTokens tokens
  { name := a.name
    doc := a.doc
    sourceSql := String.join (tokens.map (·.literal))
    preparedSql := prepared.sql
    params := prepared.names
    kind := a.kind
    protoType := a.protoType
    span }

/-- Record the statement of a segment, which starts with `first`. `stop` is the end of the
file. -/
def addStatement (d : Draft) (stop : Position) (s : Segment) (first : Token) : Draft :=
  let d := s.body.foldl addToken { d with seen := true }
  let start := first.significantStart
  if d.isFull then d
  else
    match s.semicolon with
    | none => (d.add (.bad ⟨start, stop⟩)).report (.of start .unterminated)
    | some semicolon =>
      let span : Span := ⟨start, semicolon.stop⟩
      if s.body.any fun t => t.kind matches .illegal _ then d.add (.bad span)
      else
        match s.lead.map Annotation.ofGroup with
        | none => (d.add (.bad span)).report (.of start .noComment)
        | some (.error e) => (d.add (.bad span)).report e
        | some (.ok a) => d.add (.source (sourceQuery a s.statement span))

/-- Read a segment. -/
def addSegment (stop : Position) (d : Draft) (s : Segment) : Draft :=
  if d.isFull then d
  else
    let d := d.addTrivia s
    match s.body with
    | [] => d
    | first :: _ => d.addStatement stop s first

/-- Read all segments of a file. -/
def ofTokens (stop : Position) (tokens : List Token) : Draft :=
  (Segment.cut tokens).foldl (addSegment stop) empty

end Draft

namespace QueryFile

/-- Read a query file in which placeholder calls belong to `ns`. -/
def parse (name src ns : String) : ParsedFile :=
  let d := Draft.ofTokens (Position.start.advance src.toList) (tokenize src ns)
  ⟨⟨name, d.doc, d.queries, d.comments⟩, ParseError.sorted d.errors⟩

end QueryFile

end TypedSql
