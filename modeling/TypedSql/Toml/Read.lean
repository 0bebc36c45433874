import TypedSql.Toml.Scalar
import TypedSql.Toml.Section

/-!
# Reading TOML

A document is a row of lines, each with a header, a key and its value, or neither. Arrays may go
over several lines and may have a comma behind their last item; tables on a line may not.
-/

namespace TypedSql

namespace Toml

mutual

/-- A value, and what is behind it. -/
def value? (fuel depth : Nat) (s : List Char) : Option (Toml × List Char) :=
  match fuel with
  | 0 => none
  | fuel + 1 =>
    match s with
    | '[' :: rest =>
      match depth with
      | 0 => none
      | depth + 1 => (items? fuel depth rest).map fun (items, rest) => (.array items, rest)
    | '\x7b' :: rest =>
      match depth with
      | 0 => none
      | depth + 1 =>
        match skipSpaces rest with
        | '\x7d' :: rest => some (.table [], rest)
        | rest => (members? fuel depth [] rest).map fun (entries, rest) =>
            (.table (Entries.toTable entries), rest)
    | s => scalar? s

/-- The items of an array up to its end. -/
def items? (fuel depth : Nat) (s : List Char) : Option (List Toml × List Char) :=
  match fuel with
  | 0 => none
  | fuel + 1 =>
    match skipLines s.length s with
    | ']' :: rest => some ([], rest)
    | s =>
      match value? fuel depth s with
      | none => none
      | some (item, rest) =>
        match skipLines rest.length rest with
        | ']' :: rest => some ([item], rest)
        | ',' :: rest =>
          (items? fuel depth rest).map fun (items, rest) => (item :: items, rest)
        | _ => none

/-- The members of a table on a line, behind those in `entries`, up to its end. -/
def members? (fuel depth : Nat) (entries : Entries) (s : List Char) :
    Option (Entries × List Char) :=
  match fuel with
  | 0 => none
  | fuel + 1 =>
    match path? s with
    | some (way, key, '=' :: rest) =>
      match value? fuel depth (skipSpaces rest) with
      | none => none
      | some (v, rest) =>
        match entries.addValue way key v with
        | none => none
        | some entries =>
          match skipSpaces rest with
          | '\x7d' :: rest => some (entries, rest)
          | ',' :: rest => members? fuel depth entries rest
          | _ => none
    | _ => none

end

/-- A document while it is read: its entries and the header that the next values belong to. -/
structure Draft where
  entries : Entries
  header : List String

/-- Read the line of a header behind its opening bracket. -/
def header? (d : Draft) (s : List Char) : Option (Draft × List Char) :=
  match s with
  | '[' :: rest =>
    match path? rest with
    | some (way, key, ']' :: ']' :: rest) => do
      let entries ← d.entries.openElement way key
      some (⟨entries, way ++ [key]⟩, ← endLine? rest)
    | _ => none
  | rest =>
    match path? rest with
    | some (way, key, ']' :: rest) => do
      let entries ← d.entries.openTable way key
      some (⟨entries, way ++ [key]⟩, ← endLine? rest)
    | _ => none

/-- Read the line of a value. -/
def keyValue? (d : Draft) (s : List Char) : Option (Draft × List Char) :=
  match path? s with
  | some (way, key, '=' :: rest) => do
    let (v, rest) ← value? (2 * rest.length + 2) (maxDepth - 1) (skipSpaces rest)
    let entries ← d.entries.addValueAt d.header way key v
    some (⟨entries, d.header⟩, ← endLine? rest)
  | _ => none

/-- Read at most `fuel` lines. -/
def lines? : (fuel : Nat) → Draft → List Char → Option Draft
  | 0, _, _ => none
  | fuel + 1, d, s =>
    match skipSpaces s with
    | [] => some d
    | '[' :: rest => do
      let (d, rest) ← header? d rest
      lines? fuel d rest
    | s =>
      match endLine? s with
      | some rest => lines? fuel d rest
      | none => do
        let (d, rest) ← keyValue? d s
        lines? fuel d rest

/-- The table that is a document. A mark of the byte order in front is skipped. -/
def read? (text : String) : Option Toml :=
  let s := match text.toList with
    | '\uFEFF' :: rest => rest
    | s => s
  (lines? (s.length + 1) ⟨[], []⟩ s).map fun d => .table (Entries.toTable d.entries)

end Toml

end TypedSql
