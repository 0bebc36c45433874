import Std.Time.DateTime.Timestamp
import TypedSql.Command.Arguments
import TypedSql.Command.Run
import TypedSql.Connection.Failure
import TypedSql.Timestamp

/-!
# The program

The files, the environment and the clock of the machine, and a run with them. The program speaks
with no database, so every connection fails.
-/

namespace TypedSql

namespace Machine

/-- What a path leads to on the machine. -/
def kind? (path : Path) : IO (Option FileKind) := do
  let place := (← IO.currentDir) / path.text
  if path.text = "" then pure none
  else if ← place.isDir then pure (some .directory)
  else if ← place.pathExists then pure (some .file)
  else pure none

/-- The cause of a failure. -/
def fileError : IO.Error → FileError
  | .noFileOrDirectory .. => .notFound
  | .inappropriateType .. => .notDirectory
  | .permissionDenied .. => .other "Permission denied (os error 13)"
  | error => .other (toString error)

/-- Read a file of the machine. -/
def read (path : Path) : IO (Except FileError Bytes) := do
  if (← kind? path) = some .directory then pure (.error .isDirectory)
  else
    try
      let bytes ← IO.FS.readBinFile path.text
      pure (.ok bytes.toList)
    catch error => pure (.error (fileError error))

/-- Write a file of the machine. -/
def write (path : Path) (content : Bytes) : IO (Except FileError Unit) := do
  if (← kind? path) = some .directory then pure (.error .isDirectory)
  else
    try
      IO.FS.writeBinFile path.text (ByteArray.mk content.toArray)
      pure (.ok ())
    catch error => pure (.error (fileError error))

/-- The files below a directory of the machine. `above` are the directories on the way to it; one
that leads back to them is passed over. -/
partial def filesBelow (above : List String) (directory : String) : IO (List (List String)) := do
  let place ← IO.FS.realPath directory
  if above.contains place.toString then return []
  let mut found : List (List String) := []
  for entry in ← place.readDir do
    let name := entry.fileName
    if ← entry.path.isDir then
      let below ← filesBelow (place.toString :: above) entry.path.toString
      found := found ++ below.map (name :: ·)
    else if ← entry.path.pathExists then
      found := found ++ [[name]]
  return found

/-- The disk of the machine. -/
def disk : Disk IO :=
  { kind?, read, write, filesBelow := fun path => filesBelow [] path.text }

/-- The time of the machine. -/
def now : IO Timestamp := do
  let passed := (← Std.Time.Timestamp.now).toDurationSinceUnixEpoch
  pure ⟨passed.second.val.toNat, passed.nano.val.toNat⟩

/-- What a run on the machine knows. -/
def surroundings : IO (Surroundings IO) := do
  let depth := (← IO.currentDir).components.length
  let timestamp := (← now).text
  pure
    { disk
      environment := fun name => IO.getEnv name
      depth
      timestamp
      connect := fun settings => pure (.error settings.failure) }

end Machine

end TypedSql

open TypedSql in
/-- Run the program. -/
def main (arguments : List String) : IO UInt32 := do
  let outcome ← (Arguments.read arguments).carryOut (← Machine.surroundings)
  outcome.messages.forM IO.eprintln
  outcome.output.forM IO.println
  pure outcome.exitCode.toUInt32
