import TypedSql.Proofs.Text.Numeral
import TypedSql.Proofs.Token.Escape
import TypedSql.Proofs.Token.Merge

/-!
# Statements with markers, piece by piece

Numbering changes a statement piece by piece: a call becomes a marker, and every other token stays
(`Prepared.Piece`). The marker starts with a dollar sign where a word was and ends with a digit
where a parenthesis was. This is all that the neighbours of a call can see of the change: the text
behind a piece starts as it did, or with a dollar sign in place of a word (`Piece.IsCut.ahead`), and
the text in front of it ends as it did, or with a digit (`Piece.IsCut.behind`).
-/

namespace TypedSql

namespace Prepared

/-- A lexeme of a statement whose calls are numbered. -/
inductive Piece where
  /-- Text that is no call and stays. -/
  | plain (l : Lexeme)
  /-- A call, with the number of its name. -/
  | call (chars : List Char) (number : Nat)

namespace Piece

/-- The lexeme as it was written. -/
def written : Piece → Lexeme
  | plain l => l
  | call chars _ => ⟨.placeholder, chars⟩

/-- The lexeme with the marker in place of a call. -/
def numbered : Piece → Lexeme
  | plain l => l
  | call _ n => ⟨.fragment, '$' :: Nat.toDigits 10 n⟩

/-- The pieces of a statement when `names` have numbers already. -/
def ofTokens (names : List String) : List Token → List Piece
  | [] => []
  | t :: ts =>
    match t.placeholderName with
    | some name => call t.chars (number names name).1 :: ofTokens (number names name).2 ts
    | none => plain t.lexeme :: ofTokens names ts

/-- The text of the statement as it was written. -/
def writtenText (ps : List Piece) : List Char :=
  Lexeme.text (ps.map written)

/-- The text of the numbered statement. -/
def numberedText (ps : List Piece) : List Char :=
  Lexeme.text (ps.map numbered)

section Texts

variable {p : Piece} {ps qs : List Piece} {names : List String} {ts : List Token}

@[simp] theorem writtenText_nil : writtenText [] = [] := rfl

@[simp] theorem writtenText_cons : writtenText (p :: ps) = p.written.chars ++ writtenText ps := rfl

@[simp] theorem writtenText_append : writtenText (ps ++ qs) = writtenText ps ++ writtenText qs := by
  simp [writtenText]

@[simp] theorem numberedText_nil : numberedText [] = [] := rfl

@[simp] theorem numberedText_cons : numberedText (p :: ps) = p.numbered.chars ++ numberedText ps :=
  rfl

@[simp] theorem numberedText_append :
    numberedText (ps ++ qs) = numberedText ps ++ numberedText qs := by
  simp [numberedText]

theorem kind_of_placeholderName {t : Token} {name : String} (h : t.placeholderName = some name) :
    t.kind = .placeholder := by
  unfold Token.placeholderName at h
  split at h
  · assumption
  · contradiction

/-- The pieces are the tokens. -/
theorem map_written_ofTokens (names : List String) (ts : List Token) :
    (ofTokens names ts).map written = ts.map Token.lexeme := by
  induction ts generalizing names with
  | nil => rfl
  | cons t ts ih =>
    rw [ofTokens]
    cases hname : t.placeholderName with
    | some name =>
      have hk := kind_of_placeholderName hname
      rw [List.map_cons, List.map_cons, ih, written, Token.lexeme, hk]
    | none => rw [List.map_cons, List.map_cons, ih, written]

theorem toList_marker (n : Nat) : (s!"${n}").toList = '$' :: Nat.toDigits 10 n := by
  have hdollar : (toString "$").toList = ['$'] := by decide
  simp [hdollar]

/-- The numbered statement is put together from the pieces. -/
theorem numberedText_ofTokens (names : List String) (ts : List Token) :
    numberedText (ofTokens names ts) = (String.join (pieces names ts).1).toList := by
  induction ts generalizing names with
  | nil => rfl
  | cons t ts ih =>
    rw [ofTokens, pieces]
    cases t.placeholderName with
    | some name =>
      simp only [numberedText_cons, numbered, ih, String.toList_join, List.flatMap_cons,
        toList_marker]
    | none =>
      simp only [numberedText_cons, numbered, ih, String.toList_join, List.flatMap_cons]
      rfl

end Texts

/-- A statement was cut into these pieces. -/
structure IsCut (ns : List Char) (ps : List Piece) : Prop where
  cuts : Scan.Cuts ns [] (ps.map written) []
  plain : ∀ l, plain l ∈ ps → l.kind ≠ .placeholder

namespace IsCut

open Scan

variable {ns : List Char} {front back ps : List Piece} {p : Piece}

theorem cuts_back (h : IsCut ns (front ++ p :: back)) :
    Cuts ns (writtenText front).reverse ((p :: back).map written) [] := by
  have hcuts := h.cuts
  rw [List.map_append] at hcuts
  simpa [writtenText] using hcuts.of_append_right

/-- A piece is a lexeme where it stands. -/
theorem exists_lexeme (h : IsCut ns (front ++ p :: back)) :
    ∃ c cs, p.written.chars = c :: cs ∧
      lexeme ns (writtenText front).reverse c (cs ++ writtenText back) =
        (p.written.kind, cs.length) := by
  have hcuts := h.cuts_back
  rw [List.map_cons] at hcuts
  generalize p.written = l at hcuts ⊢
  cases hcuts with
  | cons head tail =>
    rw [List.append_nil] at head
    exact ⟨_, _, rfl, head⟩

/-- No token starts inside of a fragment, and behind it another token starts. -/
theorem fragment {cs : List Char} (hns : ∀ d ∈ ns, Text.isWord d = true) (hne : ns ≠ [])
    (h : IsCut ns (front ++ .plain ⟨.fragment, cs⟩ :: back)) :
    Inside ns (writtenText front).reverse cs (writtenText back) ∧
      ∀ p ∈ back.head?, p.written.kind ≠ .fragment := by
  obtain ⟨-, hinside, hend, htail⟩ := (cuts_fragment_iff hns hne).mp h.cuts_back
  refine ⟨hinside, ?_⟩
  rintro p hp
  obtain ⟨rest, rfl⟩ := List.head?_eq_some_iff.mp hp
  rw [List.map_cons] at hend htail
  generalize p.written = l at hend htail ⊢
  cases htail with
  | cons head _ =>
    rw [Lexeme.text_cons, List.cons_append, fragmentLength] at hend
    split at hend
    · next hends =>
      rw [List.append_nil] at head
      rw [endsFragment_iff hns hne, head] at hends
      exact hends
    · contradiction

theorem call {chars : List Char} {n : Nat} (h : IsCut ns (front ++ .call chars n :: back)) :
    Fresh (writtenText front).reverse ∧ ∃ ident, IsCall ns ident chars := by
  obtain ⟨c, cs, hchars, hlexeme⟩ := h.exists_lexeme
  obtain ⟨hfresh, ident, call, rest, hcall, htext, hlength⟩ :=
    placeholderLength_eq_some_iff.mp (placeholderLength_of_lexeme hlexeme)
  refine ⟨hfresh, ident, ?_⟩
  rw [← List.cons_append] at htext
  obtain ⟨rfl, -⟩ := List.append_inj htext (by rw [hlength, List.length_cons])
  rwa [← hchars] at hcall

/-- The text behind a piece starts as it did, or with the marker of a call. -/
theorem ahead (hns : ∀ d ∈ ns, Text.isWord d = true) (hne : ns ≠ [])
    (h : IsCut ns (front ++ p :: back)) : Ahead (writtenText back) (numberedText back) := by
  cases back with
  | nil => exact .inl rfl
  | cons q back =>
    rw [List.append_cons] at h
    cases q with
    | plain l =>
      obtain ⟨c, cs, hchars, -⟩ := h.exists_lexeme
      have hl : l.chars = c :: cs := hchars
      left
      rw [writtenText_cons, numberedText_cons, numbered, written, hl]
      rfl
    | call chars n =>
      obtain ⟨-, ident, hcall⟩ := h.call
      obtain ⟨d, ds, rfl⟩ := List.exists_cons_of_ne_nil hne
      obtain ⟨tail, rfl, -⟩ := hcall.exists_dot
      exact .inr ⟨rfl, d, rfl, hns d List.mem_cons_self⟩

/-- The text in front of a piece ends as it did, or with the marker of a call. -/
theorem behind (h : IsCut ns (front ++ p :: back)) :
    (numberedText front).reverse.head? = (writtenText front).reverse.head? ∨
      ∃ front' chars n, front = front' ++ [.call chars n] := by
  rcases List.eq_nil_or_concat front with rfl | ⟨front, q, rfl⟩
  · exact .inl rfl
  rw [List.concat_eq_append] at h ⊢
  cases q with
  | plain l =>
    left
    rw [List.append_assoc, List.singleton_append] at h
    obtain ⟨c, cs, hchars, -⟩ := h.exists_lexeme
    have hl : l.chars = c :: cs := hchars
    simp [numbered, written, hl]
  | call chars n => exact .inr ⟨front, chars, n, rfl⟩

theorem numbered_ne_nil (h : IsCut ns ps) : ∀ l ∈ ps.map numbered, l.chars ≠ [] := by
  rintro l hl
  obtain ⟨p, hp, rfl⟩ := List.mem_map.mp hl
  obtain ⟨front, back, rfl⟩ := List.append_of_mem hp
  cases p with
  | plain l =>
    obtain ⟨c, cs, hchars, -⟩ := h.exists_lexeme
    have hl : l.chars = c :: cs := hchars
    rw [numbered, hl]
    exact List.cons_ne_nil c cs
  | call chars n => exact List.cons_ne_nil _ _

/-- No call is left in a numbered statement. -/
theorem kind_numbered_ne (h : IsCut ns ps) : ∀ l ∈ ps.map numbered, l.kind ≠ .placeholder := by
  rintro l hl
  obtain ⟨p, hp, rfl⟩ := List.mem_map.mp hl
  cases p with
  | plain l => exact h.plain l hp
  | call chars n => exact TokenKind.noConfusion

end IsCut

end Piece

end Prepared

end TypedSql
