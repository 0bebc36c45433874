import TypedSql.Json
import TypedSql.Text.Numeral

/-!
# Reading JSON

A document is one value with blanks around it. It is refused when it breaks the grammar. A part
that keeps to the grammar but has no value is read as `Json.unreadable`. A number is an integer
if it has neither point nor exponent, is not the negative zero, and fits into 64 bits, with a
sign if it is negative.

The reader spends one unit of fuel for each value, item and member. A text has at least one
character for each of them, so twice its length is enough (`read?`).
-/

namespace TypedSql

namespace Json

/-- How many arrays and objects may stand inside each other to be readable. -/
def maxDepth : Nat := 127

def isBlank (c : Char) : Bool :=
  c == ' ' || c == '\t' || c == '\n' || c == '\r'

/-- Drop the blanks in front. -/
def skipBlanks (s : List Char) : List Char :=
  s.dropWhile isBlank

/-- The value of a hexadecimal digit. -/
def hexValue (c : Char) : Option Nat :=
  if '0' ≤ c && c ≤ '9' then some (c.toNat - 48)
  else if 'a' ≤ c && c ≤ 'f' then some (c.toNat - 87)
  else if 'A' ≤ c && c ≤ 'F' then some (c.toNat - 55)
  else none

/-- The value of four hexadecimal digits. -/
def hex4 (a b c d : Char) : Option Nat := do
  some (4096 * (← hexValue a) + 256 * (← hexValue b) + 16 * (← hexValue c) + (← hexValue d))

/-- The character of a one-letter escape. -/
def unescape : Char → Option Char
  | '"' => some '"'
  | '\\' => some '\\'
  | '/' => some '/'
  | 'b' => some '\x08'
  | 'f' => some '\x0c'
  | 'n' => some '\n'
  | 'r' => some '\r'
  | 't' => some '\t'
  | _ => none

/-- A part of a text. -/
inductive TextPart where
  | char (c : Char)
  /-- An escaped half of a surrogate pair. -/
  | half (unit : Nat)

/-- The part of an escaped code unit. -/
def TextPart.ofUnit (unit : Nat) : TextPart :=
  if unit < 0xD800 || 0xDFFF < unit then .char (Char.ofNat unit) else .half unit

/-- The text of its parts; none if a half stands without the other. -/
def textOf? : List TextPart → Option (List Char)
  | [] => some []
  | .char c :: parts => (textOf? parts).map (c :: ·)
  | .half high :: .half low :: parts =>
    if high < 0xDC00 && 0xDC00 ≤ low then
      (textOf? parts).map (Char.ofNat (0x10000 + 0x400 * (high - 0xD800) + (low - 0xDC00)) :: ·)
    else none
  | .half _ :: _ => none

/-- Put a part in front of those that were read. -/
def push (part : TextPart) : List TextPart × List Char → List TextPart × List Char
  | (parts, rest) => (part :: parts, rest)

/-- The parts of a text up to its closing quote, and what is behind it. -/
def readParts : List Char → Option (List TextPart × List Char)
  | [] => none
  | '"' :: rest => some ([], rest)
  | '\\' :: 'u' :: a :: b :: c :: d :: rest =>
    match hex4 a b c d with
    | none => none
    | some unit => (readParts rest).map (push (.ofUnit unit))
  | '\\' :: c :: rest =>
    match unescape c with
    | none => none
    | some c => (readParts rest).map (push (.char c))
  | c :: rest =>
    if c.toNat < 0x20 || c == '\\' then none else (readParts rest).map (push (.char c))

/-- A text up to its closing quote, if it has a value, and what is behind it. -/
def readText (s : List Char) : Option (Option String × List Char) :=
  (readParts s).map fun (parts, rest) => ((textOf? parts).map String.ofList, rest)

/-- The digits behind a point; no digits at all if there is no point. -/
def readFraction : List Char → Option (List Char × List Char)
  | '.' :: rest =>
    let (ds, rest) := Text.takeDigits rest
    if ds.isEmpty then none else some (ds, rest)
  | rest => some ([], rest)

/-- The digits of an exponent with its sign. -/
def readExponentDigits (negative : Bool) (s : List Char) : Option (Int × List Char) :=
  let (ds, rest) := Text.takeDigits s
  if ds.isEmpty then none
  else some (if negative then -(Text.digitsValue ds : Int) else Text.digitsValue ds, rest)

/-- The exponent, if there is one. -/
def readExponent : List Char → Option (Option Int × List Char)
  | e :: rest =>
    if e == 'e' || e == 'E' then
      (match rest with
        | '+' :: rest => readExponentDigits false rest
        | '-' :: rest => readExponentDigits true rest
        | rest => readExponentDigits false rest).map fun (n, rest) => (some n, rest)
    else some (none, e :: rest)
  | [] => some (none, [])

/-- A number behind its sign. -/
def readNumber (negative : Bool) (s : List Char) : Option (Json × List Char) := do
  let (whole, rest) := Text.takeDigits s
  if whole.isEmpty then none
  if whole.head? = some '0' && 1 < whole.length then none
  let (fraction, rest) ← readFraction rest
  let (exponent, rest) ← readExponent rest
  let n := Text.digitsValue whole
  let limit := if negative then 9223372036854775808 else 18446744073709551615
  if fraction.isEmpty && exponent.isNone && !(negative && n == 0) && n ≤ limit then
    some (.int (if negative then -(n : Int) else n), rest)
  else
    match Double.ofDigits? negative whole fraction (exponent.getD 0) with
    | some x => some (.double x, rest)
    | none => some (.unreadable, rest)

/-- A value that starts with neither a bracket nor a quote. -/
def readScalar : List Char → Option (Json × List Char)
  | 'n' :: 'u' :: 'l' :: 'l' :: rest => some (.null, rest)
  | 't' :: 'r' :: 'u' :: 'e' :: rest => some (.bool true, rest)
  | 'f' :: 'a' :: 'l' :: 's' :: 'e' :: rest => some (.bool false, rest)
  | '-' :: rest => readNumber true rest
  | rest => readNumber false rest

/-- An object; unreadable if one of its keys has no value. -/
def ofMembers (members : List (Option String × Json)) : Json :=
  match members.mapM fun (key, value) => key.map fun key => (key, value) with
  | some members => .object members
  | none => .unreadable

/-- An array or an object that was read where there is room for `room` more inside each other. -/
def withRoom (room : Nat) (j : Json) : Json :=
  if room = 0 then .unreadable else j

mutual

/-- A value at the start of a text, and what is behind it. -/
def readValue (fuel room : Nat) (s : List Char) : Option (Json × List Char) :=
  match fuel with
  | 0 => none
  | fuel + 1 =>
    match skipBlanks s with
    | '"' :: rest =>
      (readText rest).map fun (text, rest) =>
        (match text with
          | some text => .string text
          | none => .unreadable, rest)
    | '[' :: rest =>
      match skipBlanks rest with
      | ']' :: rest => some (withRoom room (.array []), rest)
      | rest =>
        (readItems fuel (room - 1) rest).map fun (items, rest) =>
          (withRoom room (.array items), rest)
    | '\x7b' :: rest =>
      match skipBlanks rest with
      | '\x7d' :: rest => some (withRoom room (.object []), rest)
      | rest =>
        (readMembers fuel (room - 1) rest).map fun (members, rest) =>
          (withRoom room (ofMembers members), rest)
    | rest => readScalar rest

/-- At least one item, up to the end of the array. -/
def readItems (fuel room : Nat) (s : List Char) : Option (List Json × List Char) :=
  match fuel with
  | 0 => none
  | fuel + 1 =>
    match readValue fuel room s with
    | none => none
    | some (item, rest) =>
      match skipBlanks rest with
      | ']' :: rest => some ([item], rest)
      | ',' :: rest =>
        (readItems fuel room rest).map fun (items, rest) => (item :: items, rest)
      | _ => none

/-- At least one member, up to the end of the object. -/
def readMembers (fuel room : Nat) (s : List Char) :
    Option (List (Option String × Json) × List Char) :=
  match fuel with
  | 0 => none
  | fuel + 1 =>
    match skipBlanks s with
    | '"' :: rest =>
      match readText rest with
      | none => none
      | some (key, rest) =>
        match skipBlanks rest with
        | ':' :: rest =>
          match readValue fuel room rest with
          | none => none
          | some (value, rest) =>
            match skipBlanks rest with
            | '\x7d' :: rest => some ([(key, value)], rest)
            | ',' :: rest =>
              (readMembers fuel room rest).map fun (members, rest) =>
                ((key, value) :: members, rest)
            | _ => none
        | _ => none
    | _ => none

end

/-- The value of a document. -/
def read? (text : String) : Option Json :=
  let s := text.toList
  match readValue (2 * s.length + 2) maxDepth s with
  | some (j, rest) => if (skipBlanks rest).isEmpty then some j else none
  | none => none

end Json

end TypedSql
