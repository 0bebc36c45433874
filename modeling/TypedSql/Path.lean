import TypedSql.Text.Blank

/-!
# Paths

Two paths are the same when they have the same components. Repeated slashes and single points
inside a path make no component, so they make no difference; a single point in front is one.
Paths are ordered by their components, not by their texts.
-/

namespace TypedSql

/-- A path as it was given. -/
structure Path where
  text : String
  deriving DecidableEq

namespace Path

/-- A step of a path. -/
inductive Component where
  /-- A slash in front. -/
  | root
  /-- A single point in front. -/
  | here
  /-- A double point. -/
  | up
  | name (text : String)
  deriving DecidableEq

/-- The texts between the slashes. -/
def segments (p : Path) : List String :=
  (Text.pieces '/' p.text.toList).map String.ofList

def isAbsolute (p : Path) : Bool :=
  p.text.toList.head? = some '/'

/-- The component of a text between slashes, if it makes one. -/
def componentOf (segment : String) : Option Component :=
  if segment = "" || segment = "." then none
  else if segment = ".." then some .up
  else some (.name segment)

def components (p : Path) : List Component :=
  let steps := p.segments.filterMap componentOf
  if p.isAbsolute then .root :: steps
  else if p.segments.head? = some "." then .here :: steps
  else steps

/-- Whether two paths have the same components. -/
def same (p q : Path) : Bool := p.components == q.components

/-- A name inside a directory. -/
def join (p : Path) (name : String) : Path :=
  if p.text = "" || p.text.toList.getLast? = some '/' then ⟨p.text ++ name⟩
  else ⟨p.text ++ "/" ++ name⟩

/-- Leave out what makes no component at the end of a path, given from behind. -/
def dropEnd : List Char → List Char
  | '/' :: [] => ['/']
  | '/' :: rest => dropEnd rest
  | '.' :: '/' :: rest => dropEnd ('/' :: rest)
  | rest => rest
termination_by s => s.length

/-- The directory of a file: the path without its last component. -/
def parent (p : Path) : Path :=
  let front := (dropEnd p.text.toList.reverse).dropWhile (· != '/')
  ⟨String.ofList (dropEnd front).reverse⟩

/-- Whether the name of a file ends in a point and `extension`, behind at least one character. -/
def hasExtension (name extension : String) : Bool :=
  match Text.splitAtLast '.' name.toList with
  | some (stem, found) => !stem.isEmpty && String.ofList found = extension
  | none => false

end Path

end TypedSql
