import TypedSql.Token

/-!
# Comment groups

Comments that follow each other with no blank line between them form a group. A group gives its
text line by line, without comment markers and without the blanks around each line; a comment
without text gives no line.
-/

namespace TypedSql

/-- A run of adjacent comments. -/
structure CommentGroup where
  comments : List Token
  deriving DecidableEq

namespace CommentGroup

/-- The line on which the last comment ends. -/
def endLine (g : CommentGroup) : Nat :=
  match g.comments.getLast? with
  | some t => t.endLine
  | none => 0

/-- The lines of the comments' texts. -/
def lines (g : CommentGroup) : List String :=
  (g.comments.filterMap Token.commentText).flatMap fun text =>
    (Text.lines text.toList).map fun line => String.ofList (Text.trim line)

/-- From the first comment to the end of the last. -/
def span (g : CommentGroup) : Span where
  start := (g.comments.head?.map (·.pos)).getD .nowhere
  stop := (g.comments.getLast?.map (·.stop)).getD .nowhere

/-- The place of the last comment. -/
def lastPos (g : CommentGroup) : Position :=
  (g.comments.getLast?.map (·.pos)).getD .nowhere

/-- Whether something that starts on `line` follows the group without a blank line between. -/
def touches (g : CommentGroup) (line : Nat) : Bool :=
  line ≤ g.endLine + 1

/-- Add a comment behind the groups: to the last one if it touches it, else as its own. -/
def addTo (groups : List CommentGroup) (t : Token) : List CommentGroup :=
  match groups.getLast? with
  | some g =>
    if g.touches t.pos.line then groups.dropLast ++ [⟨g.comments ++ [t]⟩]
    else groups ++ [⟨[t]⟩]
  | none => [⟨[t]⟩]

/-- The groups of the comments among `tokens`, none of which belongs to a statement. -/
def ofTrivia (tokens : List Token) : List CommentGroup :=
  (tokens.filter (·.kind.isComment)).foldl addTo []

end CommentGroup

end TypedSql
