import TypedSql.FileTree
import TypedSql.QueryFile.Parse
import TypedSql.Settings

/-!
# Finding and reading query files

A path to a file names that file, and a path to a directory names the files below it whose names
end in `.sql`, by the order of their paths. Files that the settings exclude are left out, by the
text of their paths, and then files that follow themselves.
-/

namespace TypedSql

namespace QueryFile

/-- Whether a file below a directory is a query file. -/
def isQueryFile (way : List String) : Bool :=
  match way.getLast? with
  | some name => Path.hasExtension name "sql"
  | none => false

/-- The order of files below a directory, name by name. -/
def precedes (way other : List String) : Bool :=
  !List.lex other way fun a b => a < b

/-- The query files below a directory. -/
def below (directory : Path) (ways : List (List String)) : List Path :=
  ((ways.filter isQueryFile).mergeSort precedes).map fun way => way.foldl Path.join directory

/-- Keep one of several equal paths in a row, the first. -/
def dropRepeats : List Path → List Path
  | [] => []
  | [p] => [p]
  | p :: q :: rest =>
    if p.same q then dropRepeats (p :: rest) else p :: dropRepeats (q :: rest)
termination_by paths => paths.length

variable {m : Type → Type} [Monad m]

/-- The files that a path names, or nothing if there is nothing at it. -/
def named? (disk : Disk m) (path : Path) : m (Option (List Path)) := do
  match ← disk.kind? path with
  | some .directory =>
    let ways ← disk.filesBelow path
    pure (some (below path ways))
  | some .file => pure (some [path])
  | none => pure none

/-- The files that paths name, or the first path with nothing at it. -/
def allNamed (disk : Disk m) : List Path → m (Except Path (List Path))
  | [] => pure (.ok [])
  | path :: rest => do
    match ← named? disk path with
    | none => pure (.error path)
    | some files =>
      let more ← allNamed disk rest
      pure (more.map (files ++ ·))

/-- The query files that paths name, or the first path with nothing at it. -/
def collect (disk : Disk m) (settings : Settings) (paths : List Path) :
    m (Except Path (List Path)) := do
  let files ← allNamed disk paths
  pure (files.map fun files =>
    dropRepeats (files.filter fun file => !settings.isExcluded file.text))

/-- Read a query file. It is named by its path as given. -/
def load (disk : Disk m) (ns : String) (path : Path) : m (Except FileError ParsedFile) := do
  let src ← disk.readText path
  pure (src.map fun src => parse path.text src ns)

end QueryFile

end TypedSql
