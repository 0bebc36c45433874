import TypedSql.Text.Alphanumeric
import TypedSql.Text.Blank
import TypedSql.Text.Bytes

/-!
# Environment files

An environment file assigns values to names, one assignment on a line. A value may stand between
quotes and then go over several lines, and may refer to names that have a value already. Blank
lines and comments behind a number sign assign nothing. Reading ends at the first line that is
no assignment; the assignments before it count.
-/

namespace TypedSql

namespace EnvFile

/-! ## Lines -/

/-- Where the reader of a line stands. -/
inductive LineState where
  /-- Outside of quotes. -/
  | plain
  /-- Outside of quotes, behind a single blank. -/
  | blank
  /-- Behind a backslash outside of quotes. -/
  | escape
  | single
  | singleEscape
  | double
  | doubleEscape
  deriving DecidableEq

namespace LineState

/-- A character outside of quotes that is no blank. -/
def afterPlain (c : Char) : LineState :=
  if c = '\\' then .escape
  else if c = '"' then .double
  else if c = '\'' then .single
  else .plain

def next (s : LineState) (c : Char) : LineState :=
  match s with
  | .plain => if Text.isBlank c && c != '\n' && c != '\r' then .blank else afterPlain c
  | .blank => afterPlain c
  | .escape => .plain
  | .single => if c = '\\' then .singleEscape else if c = '\'' then .plain else .single
  | .singleEscape => .single
  | .double => if c = '\\' then .doubleEscape else if c = '"' then .plain else .double
  | .doubleEscape => .double

end LineState

/-- The characters of a line before a comment, and the state behind the line. A comment starts
behind a single blank. -/
def scanLine : LineState → List Char → List Char × LineState
  | s, [] => ([], s)
  | s, c :: cs =>
    if s = .blank ∧ c = '#' then ([], .plain)
    else
      let (kept, last) := scanLine (s.next c) cs
      (c :: kept, last)

/-- Put the lines together that belong to one assignment. `front` is what was read of the
assignment so far. A last assignment that does not come to its end is left out. -/
def joined (s : LineState) (front : List Char) : List (List Char) → List (List Char)
  | [] => []
  | line :: rest =>
    if front.isEmpty && (Text.trimStart line).head? == some '#' then joined .plain [] rest
    else
      match scanLine s line with
      | (kept, .plain) => (front ++ kept) :: joined .plain [] rest
      | (kept, s) => joined s (front ++ kept) rest

/-! ## Assignments -/

/-- A piece of a value. -/
inductive Part where
  | char (c : Char)
  /-- The value of a name. -/
  | variable (name : String)
  deriving DecidableEq

/-- A name with its value. -/
structure Assignment where
  name : String
  value : List Part
  deriving DecidableEq

/-- Where the reader of a value stands. -/
inductive ValueState where
  /-- Outside of quotes. -/
  | plain
  /-- Behind the value. -/
  | behind
  | single
  | double
  /-- Behind a backslash. -/
  | escape (quoted : Bool)
  /-- In a name behind a dollar sign. -/
  | name (quoted : Bool) (read : List Char)
  /-- In a name between braces. -/
  | braces (quoted : Bool) (read : List Char)

/-- The state outside of names and escapes. -/
def ValueState.outside (quoted : Bool) : ValueState :=
  if quoted then .double else .plain

/-- The character behind a backslash. -/
def escaped? (c : Char) : Option Char :=
  if c = 'n' then some '\n'
  else if ['\\', '\'', '"', '$', ' '].contains c then some c
  else none

/-- Read a value. A name without braces ends at the first character that is no letter and no
digit, and that character stands for itself, also when it is a quote. -/
def value? : ValueState → List Char → Option (List Part)
  | .plain, [] | .behind, [] | .escape false, [] => some []
  | .name false read, [] => some [.variable (String.ofList read)]
  | _, [] => none
  | .plain, c :: cs =>
    if c = '$' then value? (.name false []) cs
    else if c = '\'' then value? .single cs
    else if c = '"' then value? .double cs
    else if c = '\\' then value? (.escape false) cs
    else if c = ' ' || c = '\t' then value? .behind cs
    else (value? .plain cs).map (.char c :: ·)
  | .behind, c :: cs =>
    if c = ' ' || c = '\t' then value? .behind cs
    else if c = '#' then some []
    else none
  | .single, c :: cs =>
    if c = '\'' then value? .plain cs else (value? .single cs).map (.char c :: ·)
  | .double, c :: cs =>
    if c = '$' then value? (.name true []) cs
    else if c = '"' then value? .plain cs
    else if c = '\\' then value? (.escape true) cs
    else (value? .double cs).map (.char c :: ·)
  | .escape quoted, c :: cs => do
    let c ← escaped? c
    let rest ← value? (.outside quoted) cs
    some (.char c :: rest)
  | .name quoted read, c :: cs =>
    if Text.isAlphanumeric c then value? (.name quoted (read ++ [c])) cs
    else if c = '\x7b' && read.isEmpty then value? (.braces quoted []) cs
    else
      let rest :=
        if c = '$' then value? (.name quoted []) cs
        else (value? (.outside quoted) cs).map (.char c :: ·)
      rest.map (.variable (String.ofList read) :: ·)
  | .braces quoted read, c :: cs =>
    if c = '\x7d' then
      (value? (.outside quoted) cs).map (.variable (String.ofList read) :: ·)
    else value? (.braces quoted (read ++ [c])) cs

/-- A character of a name behind its first. -/
def isNameChar (c : Char) : Bool :=
  Text.isWord c || c == '.'

/-- A name in front, and what is behind it and further blanks. -/
def name? (s : List Char) : Option (String × List Char) :=
  match s with
  | c :: _ =>
    if Text.isIdentStart c then
      some (String.ofList (s.takeWhile isNameChar), Text.trimStart (s.dropWhile isNameChar))
    else none
  | [] => none

/-- The name that a line assigns to, and what is behind its equals sign. The word `export` may
stand in front of the name, and is a name itself where the equals sign follows it. -/
def target? (s : List Char) : Option (String × List Char) :=
  match name? s with
  | some (name, '=' :: rest) => some (name, rest)
  | some ("export", rest) =>
    match name? rest with
    | some (name, '=' :: rest) => some (name, rest)
    | _ => none
  | _ => none

/-- What a line comes to. -/
inductive Line where
  | empty
  | assignment (a : Assignment)

/-- Whether nothing but a comment is left. -/
def isOver (s : List Char) : Bool :=
  s.isEmpty || s.head? == some '#'

/-- Read a line. -/
def line? (s : List Char) : Option Line :=
  let s := Text.trim s
  if isOver s then some .empty
  else do
    let (name, rest) ← target? s
    let rest := Text.trimStart rest
    let value ← if isOver rest then some [] else value? .plain rest
    some (.assignment ⟨name, value⟩)

/-- The assignments up to the first line that is none. -/
def assignmentsOf : List (List Char) → List Assignment
  | [] => []
  | line :: rest =>
    match line? line with
    | none => []
    | some .empty => assignmentsOf rest
    | some (.assignment a) => a :: assignmentsOf rest

/-! ## Files -/

/-- The lines of a file with their ends. -/
def linesOf : Bytes → List Bytes
  | [] => []
  | b :: rest =>
    if b = 10 then [b] :: linesOf rest
    else
      match linesOf rest with
      | [] => [[b]]
      | line :: lines => (b :: line) :: lines

/-- The lines up to the first that is not a text. -/
def textsOf : List Bytes → List (List Char)
  | [] => []
  | line :: rest =>
    match line.text? with
    | some text => text.toList :: textsOf rest
    | none => []

/-- The assignments of a file. A mark of the byte order in front is skipped. -/
def assignments (file : Bytes) : List Assignment :=
  let bytes := match file with
    | 0xEF :: 0xBB :: 0xBF :: rest => rest
    | bytes => bytes
  assignmentsOf (joined .plain [] (textsOf (linesOf bytes)))

/-! ## Values -/

variable {m : Type → Type} [Monad m]

/-- The value of a name: that of the environment, or else the one that was assigned first. A name
without a value has none. -/
def valueOf (environment : String → m (Option String)) (assigned : List (String × String))
    (name : String) : m (Option String) := do
  match ← environment name with
  | some value => pure (some value)
  | none => pure (assigned.lookup name)

/-- The text of a value. A name without a value stands for no text. -/
def expand (environment : String → m (Option String)) (assigned : List (String × String)) :
    List Part → m String
  | [] => pure ""
  | .char c :: rest => do
    let text ← expand environment assigned rest
    pure (c.toString ++ text)
  | .variable name :: rest => do
    let value ← valueOf environment assigned name
    let text ← expand environment assigned rest
    pure (value.getD "" ++ text)

/-- The names that assignments give a value to, behind those in `assigned`. -/
def evaluate (environment : String → m (Option String)) :
    (assigned : List (String × String)) → List Assignment → m (List (String × String))
  | assigned, [] => pure assigned
  | assigned, a :: rest => do
    let text ← expand environment assigned a.value
    evaluate environment (assigned ++ [(a.name, text)]) rest

end EnvFile

end TypedSql
