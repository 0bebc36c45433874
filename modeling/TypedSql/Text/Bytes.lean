import TypedSql.Text.Numeral
import TypedSql.Text.Quoted

/-!
# Text as bytes

Files and decoded addresses are bytes that may or may not be the UTF-8 form of a text. A byte in
a text can be written as a percent sign and two hexadecimal digits; a percent sign without two
such digits behind it stands for itself.
-/

namespace TypedSql

/-- A sequence of bytes. -/
abbrev Bytes := List UInt8

namespace Bytes

/-- The UTF-8 form of a text. -/
def ofText (s : String) : Bytes := s.toUTF8.toList

/-- The text with this UTF-8 form. -/
def text? (b : Bytes) : Option String :=
  String.fromUTF8? (ByteArray.mk b.toArray)

/-- The character at the start and the bytes behind it. -/
def decodeFirst (b : Bytes) : Option (Char × Bytes) :=
  ((ByteArray.mk (b.take 4).toArray).utf8DecodeChar? 0).map fun c => (c, b.drop c.utf8Size)

/-- A byte by its number. -/
def quotedByte (n : UInt8) : List Char :=
  let digit (n : Nat) : Char := (Nat.digitChar n).toUpper
  ['\\', 'x', digit (n.toNat / 16), digit (n.toNat % 16)]

/-- The first `fuel` characters and single bytes of quoted bytes. -/
def quotedWithin : (fuel : Nat) → Bytes → List Char
  | 0, _ => []
  | _, [] => []
  | fuel + 1, n :: rest =>
    match decodeFirst (n :: rest) with
    | some (c, rest) => Text.quotedChar c ++ quotedWithin fuel rest
    | none => quotedByte n ++ quotedWithin fuel rest

/-- Bytes between double quotes, as text where they are text. -/
def quoted (b : Bytes) : String :=
  String.ofList ('"' :: quotedWithin b.length b ++ ['"'])

end Bytes

namespace Text

/-- The bytes of a text in which some are written by percent signs. -/
def percentDecode : List Char → Bytes
  | [] => []
  | '%' :: a :: b :: rest =>
    match hexValue? a, hexValue? b with
    | some high, some low => UInt8.ofNat (16 * high + low) :: percentDecode rest
    | _, _ => 37 :: percentDecode (a :: b :: rest)
  | c :: rest => String.utf8EncodeChar c ++ percentDecode rest

/-- The text in which some bytes are written by percent signs. -/
def percentDecoded? (s : List Char) : Option String :=
  (percentDecode s).text?

end Text

end TypedSql
