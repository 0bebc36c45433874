import TypedSql.Path
import TypedSql.Text.Bytes

/-!
# Files and directories

The program reads and writes files through a `Disk`, a record of the few operations that it
needs. A `FileTree` is a directory with all that is below it; it is a disk whose operations
change nothing but the tree.
-/

namespace TypedSql

/-- Why a file could not be read or written. -/
inductive FileError where
  | notFound
  /-- A file stands where the path needs a directory. -/
  | notDirectory
  | isDirectory
  /-- The bytes of the file are not a text. -/
  | notText
  | nameTooLong
  /-- The path holds a NUL. -/
  | nul
  | other (message : String)
  deriving DecidableEq

namespace FileError

def message : FileError → String
  | .notFound => "No such file or directory (os error 2)"
  | .notDirectory => "Not a directory (os error 20)"
  | .isDirectory => "Is a directory (os error 21)"
  | .notText => "stream did not contain valid UTF-8"
  | .nameTooLong => "File name too long (os error 36)"
  | .nul => "file name contained an unexpected NUL byte"
  | .other message => message

end FileError

/-- What a path leads to. -/
inductive FileKind where
  | file
  | directory
  deriving DecidableEq

/-- The operations on files. -/
structure Disk (m : Type → Type) where
  /-- What a path leads to, if to anything. -/
  kind? : Path → m (Option FileKind)
  read : Path → m (Except FileError Bytes)
  write : Path → Bytes → m (Except FileError Unit)
  /-- The files below a directory, in any order, each by the names on the way to it. -/
  filesBelow : Path → m (List (List String))

namespace Disk

variable {m : Type → Type} [Monad m]

/-- Read a file as text. -/
def readText (disk : Disk m) (path : Path) : m (Except FileError String) := do
  match ← disk.read path with
  | .error error => pure (.error error)
  | .ok bytes =>
    match bytes.text? with
    | some text => pure (.ok text)
    | none => pure (.error .notText)

end Disk

/-- A file or a directory with all that is below it. -/
inductive FileTree where
  | file (content : Bytes)
  | directory (entries : List (String × FileTree))

namespace FileTree

def empty : FileTree := .directory []

/-- What stands at the end of a way of names. -/
def find? : (way : List String) → FileTree → Option FileTree
  | [], t => some t
  | _ :: _, .file _ => none
  | name :: way, .directory entries =>
    match entries.lookup name with
    | some t => find? way t
    | none => none

/-- Change what stands at the end of a way of names, making directories on it. -/
def change (f : Option FileTree → FileTree) : (way : List String) → Option FileTree → FileTree
  | [], t => f t
  | name :: way, t =>
    let entries := match t with
      | some (.directory entries) => entries
      | _ => []
    let entry := (name, change f way (entries.lookup name))
    if (entries.lookup name).isSome then
      .directory (entries.map fun e => if e.1 = name then entry else e)
    else .directory (entries ++ [entry])

/-- Put a file at the end of a way. -/
def putFile (t : FileTree) (way : List String) (content : Bytes) : FileTree :=
  change (fun _ => .file content) way (some t)

/-- Make a directory at the end of a way. -/
def putDirectory (t : FileTree) (way : List String) : FileTree :=
  change (fun found => found.getD empty) way (some t)

/-- How many bytes a name may have. -/
def maxName : Nat := 255

/-- How many bytes a path may have. -/
def maxPath : Nat := 4095

/-- The names on the way to where segments of a path lead from `place`. Nothing outside the tree
is known. -/
def resolve (t : FileTree) : (segments place : List String) → Except FileError (List String)
  | [], place => .ok place
  | segment :: rest, place =>
    match t.find? place with
    | some (.directory entries) =>
      match Path.componentOf segment with
      | some .up => if place.isEmpty then .error .notFound else resolve t rest place.dropLast
      | some (.name name) =>
        if maxName < name.utf8ByteSize then .error .nameTooLong
        else if (entries.lookup name).isSome then resolve t rest (place ++ [name])
        else .error .notFound
      | _ => resolve t rest place
    | some (.file _) => .error .notDirectory
    | none => .error .notFound

/-- Whether a path can lead anywhere. -/
def check (p : Path) : Except FileError Unit :=
  if p.text.toList.contains '\x00' then .error .nul
  else if maxPath < p.text.utf8ByteSize then .error .nameTooLong
  else if p.isAbsolute || p.text = "" then .error .notFound
  else .ok ()

/-- The names on the way to where a path leads. -/
def locate (t : FileTree) (p : Path) : Except FileError (List String) := do
  check p
  t.resolve p.segments []

/-- What a path leads to. -/
def follow (t : FileTree) (p : Path) : Except FileError FileTree := do
  let place ← t.locate p
  match t.find? place with
  | some found => .ok found
  | none => .error .notFound

def kind : FileTree → FileKind
  | .file _ => .file
  | .directory _ => .directory

def read (t : FileTree) (p : Path) : Except FileError Bytes := do
  match ← t.follow p with
  | .file content => .ok content
  | .directory _ => .error .isDirectory

/-- Write a file into a directory that is there. -/
def write (t : FileTree) (p : Path) (content : Bytes) : Except FileError FileTree := do
  check p
  let place ← t.resolve p.segments.dropLast []
  match t.find? place, p.segments.getLast?.bind Path.componentOf with
  | some (.directory entries), some (.name name) =>
    if maxName < name.utf8ByteSize then .error .nameTooLong
    else
      match entries.lookup name with
      | some (.directory _) => .error .isDirectory
      | _ => .ok (t.putFile (place ++ [name]) content)
  | some (.directory _), _ => .error .isDirectory
  | _, _ => .error .notDirectory

mutual

/-- All files of a tree, each by the names on the way to it. -/
def files : FileTree → List (List String)
  | .file _ => [[]]
  | .directory entries => filesIn entries

def filesIn : List (String × FileTree) → List (List String)
  | [] => []
  | (name, t) :: rest => (files t).map (name :: ·) ++ filesIn rest

end

/-- The tree as a disk. -/
def disk : Disk (StateM FileTree) where
  kind? path := do
    match (← get).follow path with
    | .ok found => pure (some found.kind)
    | .error _ => pure none
  read path := do pure ((← get).read path)
  write path content := do
    match (← get).write path content with
    | .ok t => do
      set t
      pure (.ok ())
    | .error error => pure (.error error)
  filesBelow path := do
    match (← get).follow path with
    | .ok t => pure (files t)
    | .error _ => pure []

end FileTree

end TypedSql
