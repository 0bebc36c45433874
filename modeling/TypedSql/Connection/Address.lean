import TypedSql.Text.Blank
import TypedSql.Text.Numeral

/-!
# Numeric addresses

An address of four numbers is written with points, an address of eight groups with colons. A
double colon stands for one or more groups of zeros, and the last two groups may be written as
four numbers. Only the grammar matters here.
-/

namespace TypedSql

namespace Address

/-- A number of an address with points: no zero stands in front of other digits. -/
def isNumber (s : List Char) : Bool :=
  match Text.digits? s with
  | some n => s.length ≤ 3 && n ≤ 255 && (s.head? != some '0' || s.length == 1)
  | none => false

/-- Whether a text is an address of four numbers. -/
def isPointed (s : List Char) : Bool :=
  let parts := Text.pieces '.' s
  parts.length == 4 && parts.all isNumber

/-- A group of an address with colons. -/
def isGroup (s : List Char) : Bool :=
  !s.isEmpty && s.length ≤ 4 && s.all fun c => (Text.hexValue? c).isSome

/-- How many groups a text stands for; none if it is no row of groups. -/
def groupCount? (pointedEnd : Bool) (s : List Char) : Option Nat :=
  if s.isEmpty then some 0
  else
    let parts := Text.pieces ':' s
    let count := parts.length
    if parts.all isGroup then some count
    else
      match parts.getLast? with
      | some last =>
        if pointedEnd && isPointed last && parts.dropLast.all isGroup then some (count + 1)
        else none
      | none => none

/-- The texts around the first double colon. -/
def splitAtGap : List Char → Option (List Char × List Char)
  | ':' :: ':' :: rest => some ([], rest)
  | c :: rest => (splitAtGap rest).map fun (front, back) => (c :: front, back)
  | [] => none

/-- Whether a text is an address of eight groups. -/
def isGrouped (s : List Char) : Bool :=
  match splitAtGap s with
  | some (front, back) =>
    match groupCount? false front, groupCount? true back with
    | some n, some m => n + m ≤ 7
    | _, _ => false
  | none => groupCount? true s == some 8

/-- Whether a text is a numeric address. -/
def isNumeric (s : List Char) : Bool :=
  isPointed s || isGrouped s

end Address

end TypedSql
