/-!
# Positions in a text

A position counts bytes of the UTF-8 form from zero, and lines and characters from one. It is
only ever made by reading text from another position, so the position after two texts is the
position after the second, read from the position after the first (`Position.advance_append`).
-/

namespace TypedSql

/-- A place in a text. -/
structure Position where
  /-- Bytes before it. -/
  offset : Nat
  /-- Its line, from one. -/
  line : Nat
  /-- Its character in the line, from one. -/
  column : Nat
  deriving DecidableEq

namespace Position

/-- The place of the first character of a text. -/
def start : Position := ⟨0, 1, 1⟩

/-- No place at all, for a span without text. -/
def nowhere : Position := ⟨0, 0, 0⟩

/-- The place after one more character. -/
def step (p : Position) (c : Char) : Position :=
  if c = '\n' then ⟨p.offset + c.utf8Size, p.line + 1, 1⟩
  else ⟨p.offset + c.utf8Size, p.line, p.column + 1⟩

/-- The place reached by reading `text` from `p`. -/
def advance (p : Position) (text : List Char) : Position :=
  text.foldl step p

@[simp] theorem advance_nil (p : Position) : p.advance [] = p := rfl

@[simp] theorem advance_cons (p : Position) (c : Char) (s : List Char) :
    p.advance (c :: s) = (p.step c).advance s := rfl

theorem advance_append (p : Position) (s t : List Char) :
    p.advance (s ++ t) = (p.advance s).advance t :=
  List.foldl_append

/-- Whether `p` sorts before `q` or with it: by offset, then line, then column. -/
def le (p q : Position) : Bool :=
  p.offset < q.offset ||
    (p.offset == q.offset && (p.line < q.line || (p.line == q.line && p.column ≤ q.column)))

/-- The form in messages. -/
def text (p : Position) : String :=
  s!"{p.line}:{p.column}"

end Position

/-- A stretch of text, from its first character to just after its last. -/
structure Span where
  start : Position
  stop : Position
  deriving DecidableEq

end TypedSql
