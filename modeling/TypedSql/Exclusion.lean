import TypedSql.Text.Blank

/-!
# Exclusion patterns

A pattern is a path, or a path with a gap: the first star of a pattern, with the stars right
behind it, stands for any text. Further stars stand for themselves.
-/

namespace TypedSql

/-- A pattern for paths. -/
inductive Exclusion where
  /-- Just one path. -/
  | path (text : List Char)
  /-- Every path that starts and ends in a way. -/
  | gap (front back : List Char)
  deriving DecidableEq

namespace Exclusion

/-- The pattern written by a text. -/
def ofText (text : String) : Exclusion :=
  match Text.splitAtFirst '*' text.toList with
  | none => .path text.toList
  | some (front, back) => .gap front (back.dropWhile (· == '*'))

/-- Whether a path is one of the pattern. Its start and its end do not overlap. -/
def covers (e : Exclusion) (path : List Char) : Bool :=
  match e with
  | .path text => text == path
  | .gap front back =>
    match Text.afterStart front path with
    | none => false
    | some rest => (Text.beforeEnd back rest).isSome

end Exclusion

end TypedSql
