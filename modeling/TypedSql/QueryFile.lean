import TypedSql.Annotation
import TypedSql.Placeholder

/-!
# Query files

A query file is a list of statements with all the comments around them. A statement that is
well formed and annotated is a source query; any other statement keeps only its place.
-/

namespace TypedSql

/-- A well-formed statement with its annotation. -/
structure SourceQuery where
  name : String
  /-- The lines of the comment in front of the annotation. -/
  doc : List String
  /-- The statement as written, through its semicolon. -/
  sourceSql : String
  /-- The statement with numbered parameters. -/
  preparedSql : String
  /-- The names of the parameters, by number. -/
  params : List String
  kind : ResultKind
  protoType : Option String
  span : Span
  deriving DecidableEq

/-- A statement of a query file. -/
inductive Query where
  /-- A statement that cannot be used. -/
  | bad (span : Span)
  | source (query : SourceQuery)
  deriving DecidableEq

namespace Query

def span : Query → Span
  | .bad span => span
  | .source query => query.span

def source? : Query → Option SourceQuery
  | .bad _ => none
  | .source query => some query

def isBad : Query → Bool
  | .bad _ => true
  | .source _ => false

end Query

/-- A query file cut into its parts. -/
structure QueryFile where
  name : String
  /-- The lines of the first comment group, if it belongs to the file and not to a statement. -/
  doc : List String
  /-- The statements in order. Names may repeat. -/
  queries : List Query
  /-- The comment groups in order. -/
  comments : List CommentGroup
  deriving DecidableEq

namespace QueryFile

/-- The well-formed statements in order. -/
def sources (f : QueryFile) : List SourceQuery :=
  f.queries.filterMap Query.source?

def hasBad (f : QueryFile) : Bool :=
  f.queries.any Query.isBad

end QueryFile

/-- A query file with every error that was recorded, by place. -/
structure ParsedFile where
  file : QueryFile
  errors : List ParseError
  deriving DecidableEq

namespace ParsedFile

def hasErrors (p : ParsedFile) : Bool :=
  !p.errors.isEmpty

/-- The file, if nothing is wrong with it. -/
def result (p : ParsedFile) : Except (List ParseError) QueryFile :=
  if p.errors.isEmpty then .ok p.file else .error p.errors

end ParsedFile

end TypedSql
