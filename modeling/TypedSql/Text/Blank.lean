/-!
# Blank characters, trimming and lines

A character is blank when it has the Unicode property `White_Space`; this is the notion of
blank for whole texts and comments. Inside a placeholder call only the five ASCII blanks count,
and they have their own predicate here.

Trimming and cutting into lines work on lists of characters, where taking and dropping a run of
blanks are the library's `takeWhile` and `dropWhile`.
-/

namespace TypedSql

namespace Text

/-- The property `White_Space` of the Unicode standard. -/
def isBlank (c : Char) : Bool :=
  let n := c.toNat
  (9 ≤ n && n ≤ 13) || n == 0x20 || n == 0x85 || n == 0xA0 || n == 0x1680 ||
    (0x2000 ≤ n && n ≤ 0x200A) || n == 0x2028 || n == 0x2029 || n == 0x202F ||
    n == 0x205F || n == 0x3000

/-- The blanks allowed inside a placeholder call: space, tab, line feed, form feed and
carriage return. Vertical tab is not one of them. -/
def isAsciiBlank (c : Char) : Bool :=
  c == ' ' || c == '\t' || c == '\n' || c == '\x0c' || c == '\r'

/-- A character that may continue an unquoted SQL word. -/
def isWord (c : Char) : Bool :=
  c.isAlphanum || c == '_'

/-- A character that may start an identifier. -/
def isIdentStart (c : Char) : Bool :=
  c.isAlpha || c == '_'

/-- Drop the blanks in front. -/
def trimStart (s : List Char) : List Char :=
  s.dropWhile isBlank

/-- Drop the blanks behind. -/
def trimEnd (s : List Char) : List Char :=
  (s.reverse.dropWhile isBlank).reverse

/-- Drop the blanks on both sides. -/
def trim (s : List Char) : List Char :=
  trimEnd (trimStart s)

@[simp] theorem trimStart_nil : trimStart [] = [] := rfl
@[simp] theorem trimEnd_nil : trimEnd [] = [] := rfl
@[simp] theorem trim_nil : trim [] = [] := rfl

/-- Nothing but blanks is lost in front. -/
theorem takeWhile_append_trimStart (s : List Char) :
    s.takeWhile isBlank ++ trimStart s = s :=
  List.takeWhile_append_dropWhile

/-- Cut at every `sep`. The last piece may be empty and is always present. -/
def pieces (sep : Char) : List Char → List (List Char)
  | [] => [[]]
  | c :: cs =>
    if c = sep then [] :: pieces sep cs
    else
      match pieces sep cs with
      | [] => [[c]]
      | first :: rest => (c :: first) :: rest

/-- Drop one carriage return at the end. -/
def dropReturn (line : List Char) : List Char :=
  if line.getLast? = some '\r' then line.dropLast else line

/-- The lines of a text without their ends. A line ends at a line feed, with or without a
carriage return before it; text after the last line feed is a line only if there is some, and
keeps a carriage return. -/
def lines (s : List Char) : List (List Char) :=
  let all := pieces '\n' s
  let complete := all.dropLast.map dropReturn
  match all.getLast? with
  | none | some [] => complete
  | some unended => complete ++ [unended]

/-- The part before the first `sep` and the part after it. -/
def splitAtFirst (sep : Char) : List Char → Option (List Char × List Char)
  | [] => none
  | c :: cs =>
    if c = sep then some ([], cs)
    else (splitAtFirst sep cs).map fun (front, back) => (c :: front, back)

/-- The part before the last `sep` and the part after it. -/
def splitAtLast (sep : Char) (s : List Char) : Option (List Char × List Char) :=
  (splitAtFirst sep s.reverse).map fun (back, front) => (front.reverse, back.reverse)

/-- The text after `start`, when it starts so. -/
def afterStart : List Char → List Char → Option (List Char)
  | [], s => some s
  | _ :: _, [] => none
  | p :: ps, c :: cs => if p = c then afterStart ps cs else none

@[simp] theorem afterStart_append (p s : List Char) : afterStart p (p ++ s) = some s := by
  induction p with
  | nil => rfl
  | cons c p ih => simp [afterStart, ih]

theorem eq_append_of_afterStart {p s r : List Char} (h : afterStart p s = some r) :
    s = p ++ r := by
  induction p generalizing s with
  | nil => simpa [afterStart] using h
  | cons c p ih =>
    cases s with
    | nil => simp [afterStart] at h
    | cons d s =>
      by_cases hd : c = d
      · subst hd
        simp only [afterStart] at h
        simp [ih h]
      · simp [afterStart, hd] at h

/-- The text before `tail`, when it ends so. -/
def beforeEnd (tail s : List Char) : Option (List Char) :=
  (afterStart tail.reverse s.reverse).map List.reverse

end Text

end TypedSql
