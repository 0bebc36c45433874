import TypedSql.Proofs.Token.Ahead
import TypedSql.Proofs.Token.Delimiter

/-!
# Delimited tokens

A scanner reads a delimited token up to the first offset at which its text is closed. If its text is
never closed, the token is illegal and takes all that is left (`Scanner.next_of_opens`). This is so
in every namespace, wherever the scanner stands.
-/

namespace TypedSql

namespace Scan

section Starts

variable {ns before rest tag : List Char}

theorem exists_placeholderLength_iff :
    (∃ n, placeholderLength ns before rest = some n) ↔ CallStarts ns before rest := by
  simp only [placeholderLength_eq_some_iff, CallStarts]
  constructor
  · rintro ⟨_, hfresh, ident, call, behind, hcall, rfl, -⟩
    exact ⟨hfresh, ident, call, hcall, List.prefix_append _ _⟩
  · rintro ⟨hfresh, ident, call, hcall, behind, rfl⟩
    exact ⟨_, hfresh, ident, call, behind, hcall, rfl, rfl⟩

theorem placeholderLength_eq_none_iff :
    placeholderLength ns before rest = none ↔ ¬ CallStarts ns before rest := by
  rw [Option.eq_none_iff_forall_ne_some, ← not_exists, exists_placeholderLength_iff]

theorem dollarTagLength_of_tagStarts (h : TagStarts before rest tag) :
    dollarTagLength before rest = some (tag.length + 2) := by
  obtain ⟨hbefore, htag, behind, rfl⟩ := h
  exact dollarTagLength_eq_some_iff.mpr ⟨hbefore, tag, behind, by simp, rfl, htag⟩

theorem exists_dollarTagLength_iff :
    (∃ n, dollarTagLength before rest = some n) ↔ ∃ tag, TagStarts before rest tag := by
  constructor
  · rintro ⟨n, h⟩
    obtain ⟨hbefore, tag, behind, rfl, -, htag⟩ := dollarTagLength_eq_some_iff.mp h
    exact ⟨tag, hbefore, htag, behind, by simp⟩
  · rintro ⟨tag, h⟩
    exact ⟨_, dollarTagLength_of_tagStarts h⟩

theorem isEscapeString_iff : isEscapeString before = true ↔
    ∃ e front, before = e :: front ∧ (e = 'e' ∨ e = 'E') ∧ followsWord front = false := by
  cases before <;> simp [isEscapeString]

theorem dollarString_eq_delimited (tag behind : List Char) :
    dollarString '$' (tag ++ ['$'] ++ behind) (tag.length + 2) =
      delimited .stringLiteral .unterminatedString (tag ++ ['$'] ++ behind)
        ((findTag ('$' :: (tag ++ ['$'])) behind).map (· + (2 * tag.length + 3))) := by
  have htake : ('$' :: (tag ++ ['$'] ++ behind)).take (tag.length + 2) = '$' :: (tag ++ ['$']) := by
    simp [List.take_append]
  have hdrop : (tag ++ ['$'] ++ behind).drop (tag.length + 2 - 1) = behind := by
    simp [List.drop_append]
  rw [dollarString, htake, hdrop]
  congr 2
  funext k
  omega

end Starts

end Scan

namespace Delimiter

variable {ns before cs : List Char} {c : Char}

open Scan

/-- A delimited token is measured up to the first end of its text. -/
theorem exists_lexeme_of_opens {d : Delimiter} (h : d.Opens ns before (c :: cs)) :
    ∃ measure, lexeme ns before c cs = delimited d.kind d.reason cs measure ∧
      FindsFirst (measure.map (· + 1)) (d.lengths (c :: cs)) := by
  cases d with
  | string escapes =>
    obtain ⟨hquote, hcall, hescapes⟩ := h
    obtain ⟨rfl, -⟩ := List.cons_prefix_cons.mp hquote
    refine ⟨_, ?_, findsFirst_quoted (by decide) escapes cs⟩
    rw [← placeholderLength_eq_none_iff] at hcall
    rw [← isEscapeString_iff, Bool.coe_iff_coe] at hescapes
    simp [lexeme, dollarTagLength_of_ne, hcall, hescapes, kind, reason]
  | identifier =>
    obtain ⟨hquote, hcall⟩ := h
    obtain ⟨rfl, -⟩ := List.cons_prefix_cons.mp hquote
    refine ⟨_, ?_, findsFirst_quoted (by decide) false cs⟩
    rw [← placeholderLength_eq_none_iff] at hcall
    simp [lexeme, dollarTagLength_of_ne, hcall, kind, reason]
  | dollar tag =>
    have hlength := dollarTagLength_of_tagStarts h
    obtain ⟨-, -, behind, htext⟩ := h
    obtain ⟨rfl, rfl⟩ := List.cons.inj htext
    have hfirst := findsFirst_dollar tag behind
    refine ⟨(findTag ('$' :: (tag ++ ['$'])) behind).map (· + (2 * tag.length + 3)), ?_, ?_⟩
    · rw [lexeme, hlength]
      exact dollarString_eq_delimited tag behind
    · rw [Option.map_map]
      exact hfirst
  | comment =>
    obtain ⟨hmark, hcall⟩ := h
    obtain ⟨rfl, behind, rfl⟩ := List.cons_prefix_cons.mp hmark
    refine ⟨(commentLength 0 behind).map (· + 1), ?_, ?_⟩
    · rw [← placeholderLength_eq_none_iff, List.singleton_append] at hcall
      simp [lexeme, dollarTagLength_of_ne, hcall, kind, reason]
    · rw [Option.map_map]
      exact findsFirst_comment behind

theorem exists_opens_of_isDelimited (h : (lexeme ns before c cs).1.isDelimited = true) :
    ∃ d : Delimiter, d.Opens ns before (c :: cs) := by
  rw [lexeme] at h
  cases hdollar : dollarTagLength before (c :: cs) with
  | some n =>
    obtain ⟨tag, htag⟩ := exists_dollarTagLength_iff.mp ⟨n, hdollar⟩
    exact ⟨dollar tag, htag⟩
  | none =>
    cases hcall : placeholderLength ns before (c :: cs) with
    | some n =>
      rw [hdollar, hcall] at h
      contradiction
    | none =>
      simp only [hdollar, hcall] at h
      rw [placeholderLength_eq_none_iff] at hcall
      split at h
      · contradiction
      split at h
      · contradiction
      split at h
      · next hcomment =>
        obtain ⟨rfl, hstar⟩ : c = '/' ∧ cs.head? = some '*' := by simpa using hcomment
        obtain ⟨behind, rfl⟩ := List.head?_eq_some_iff.mp hstar
        exact ⟨comment, List.prefix_append ['/', '*'] behind, hcall⟩
      split at h
      · next hquote =>
        obtain rfl : c = '\'' := by simpa using hquote
        exact ⟨string (isEscapeString before), List.prefix_append ['\''] cs, hcall,
          isEscapeString_iff⟩
      split at h
      · next hquote =>
        obtain rfl : c = '"' := by simpa using hquote
        exact ⟨identifier, List.prefix_append ['"'] cs, hcall⟩
      split at h <;> contradiction

theorem ne_nil_of_opens {d : Delimiter} {rest : List Char} (h : d.Opens ns before rest) :
    rest ≠ [] := by
  rintro rfl
  cases d with
  | string => exact absurd (List.prefix_nil.mp h.1) (by decide)
  | identifier | comment => exact absurd (List.prefix_nil.mp h.1) (by decide)
  | dollar tag => exact absurd (List.prefix_nil.mp h.2.2) (List.cons_ne_nil _ _)

end Delimiter

namespace Scanner

/-- Delimited tokens that open here. -/
def Opens (s : Scanner) (d : Delimiter) : Prop :=
  d.Opens s.ns s.before s.rest

/-- The offsets at which the text from here on is closed. -/
def closings (s : Scanner) (d : Delimiter) : Set Nat :=
  {offset | ∃ text after, s.rest = text ++ after ∧ d.Closes text after ∧
    offset = (s.pos.advance text).offset}

variable {s : Scanner} {d : Delimiter}

theorem closings_eq_image (s : Scanner) (d : Delimiter) :
    s.closings d = (fun n => (s.pos.advance (s.rest.take n)).offset) '' d.lengths s.rest := by
  ext offset
  constructor
  · rintro ⟨text, after, htext, hcloses, rfl⟩
    refine ⟨text.length, ⟨text, after, htext, hcloses, rfl⟩, ?_⟩
    simp only [htext, List.take_left]
  · rintro ⟨_, ⟨text, after, htext, hcloses, rfl⟩, rfl⟩
    refine ⟨text, after, htext, hcloses, ?_⟩
    simp only [htext, List.take_left]

theorem monotone_offset_take (p : Position) (rest : List Char) :
    Monotone fun n => (p.advance (rest.take n)).offset := by
  intro m n hle
  obtain ⟨more, hmore⟩ : rest.take m <+: rest.take n := List.take_prefix_take_left hle
  show (p.advance (rest.take m)).offset ≤ (p.advance (rest.take n)).offset
  rw [← hmore, Position.advance_append]
  exact Position.offset_le_advance _ _

/-- A delimited token ends where its text is closed first, or nowhere. -/
theorem next_of_opens (h : s.Opens d) :
    s.closings d = ∅ ∧ s.next.1.kind = .illegal d.reason ∧ s.next.2.rest = [] ∨
      s.next.1.kind = d.kind ∧ IsLeast (s.closings d) s.next.1.stop.offset := by
  obtain ⟨c, cs, hrest⟩ := List.exists_cons_of_ne_nil (Delimiter.ne_nil_of_opens h)
  rw [Opens, hrest] at h
  obtain ⟨measure, hlexeme, hfirst⟩ := Delimiter.exists_lexeme_of_opens h
  rw [closings_eq_image, hrest, next_of_cons hrest, hlexeme]
  cases measure with
  | none =>
    left
    refine ⟨?_, rfl, List.drop_length⟩
    rw [hfirst.eq_none_iff.mp rfl, Set.image_empty]
  | some n =>
    right
    refine ⟨rfl, ?_⟩
    have hleast := (monotone_offset_take s.pos (c :: cs)).map_isLeast ((hfirst (n + 1)).mp rfl)
    simpa [Scan.delimited, Token.stop, Token.chars] using hleast

/-- The kinds of delimited tokens are those of the tokens that open as such. -/
theorem exists_opens_iff (s : Scanner) : (∃ d, s.Opens d) ↔ s.next.1.kind.isDelimited = true := by
  constructor
  · rintro ⟨d, h⟩
    rcases next_of_opens h with ⟨-, hk, -⟩ | ⟨hk, -⟩ <;> rw [hk] <;> cases d <;> rfl
  · intro h
    unfold Opens
    cases hrest : s.rest with
    | nil =>
      simp [next, hrest, TokenKind.isDelimited] at h
    | cons c cs =>
      rw [next_of_cons hrest] at h
      exact Delimiter.exists_opens_of_isDelimited h

/-- A delimited token ends where its text is closed first. It is illegal and takes all that is left
if and only if its text is never closed. -/
theorem delimited_tokens_close_first (s : Scanner) :
    ((∃ d, s.Opens d) ↔ s.next.1.kind.isDelimited = true) ∧
      ∀ d, s.Opens d →
        (s.next.1.kind = d.kind ↔ (s.closings d).Nonempty) ∧
        (s.next.1.kind = d.kind → IsLeast (s.closings d) s.next.1.stop.offset) ∧
        (s.next.1.kind = .illegal d.reason ∧ s.next.2.rest = [] ↔ s.closings d = ∅) := by
  refine ⟨exists_opens_iff s, fun d h => ?_⟩
  have hkind : d.kind ≠ .illegal d.reason := by
    cases d <;> exact TokenKind.noConfusion
  rcases next_of_opens h with ⟨hnone, hk, hend⟩ | ⟨hk, hleast⟩
  · have hne : s.next.1.kind ≠ d.kind := by
      rw [hk]
      exact hkind.symm
    refine ⟨iff_of_false hne ?_, fun h => absurd h hne, iff_of_true ⟨hk, hend⟩ hnone⟩
    rw [hnone]
    exact Set.not_nonempty_empty
  · refine ⟨iff_of_true hk hleast.nonempty, fun _ => hleast, iff_of_false ?_ ?_⟩
    · rintro ⟨hillegal, -⟩
      exact hkind (hk.symm.trans hillegal)
    · exact hleast.nonempty.ne_empty

/-- A string with an escaped quote and a doubled one, and a comment in which the star of the second
opening mark closes nothing. -/
theorem delimited_tokens_close_first_examples :
    let string : Scanner := ⟨"q".toList, ⟨1, 1, 2⟩, ['E'], "'it\\'s''' || 'x'".toList⟩
    let comment : Scanner := ⟨"q".toList, .start, [], "/* /*/ */ SELECT 1;".toList⟩
    (string.Opens (.string true) ∧ IsLeast (string.closings (.string true)) 10) ∧
      comment.Opens .comment ∧ comment.closings .comment = ∅ := by
  intro string comment
  have hstring : string.Opens (.string true) :=
    ⟨by decide +kernel, Scan.placeholderLength_eq_none_iff.mp (by decide +kernel),
      iff_of_true rfl ⟨'E', [], rfl, by decide, rfl⟩⟩
  have hcomment : comment.Opens .comment :=
    ⟨by decide +kernel, Scan.placeholderLength_eq_none_iff.mp (by decide +kernel)⟩
  have hstop : string.next.1.kind = .stringLiteral ∧ string.next.1.stop.offset = 10 := by
    decide +kernel
  have hend : comment.next.1.kind = .illegal .unterminatedComment ∧ comment.next.2.rest = [] := by
    decide +kernel
  obtain ⟨-, hfirst, -⟩ := (delimited_tokens_close_first string).2 _ hstring
  obtain ⟨-, -, hnone⟩ := (delimited_tokens_close_first comment).2 _ hcomment
  refine ⟨⟨hstring, ?_⟩, hcomment, hnone.mp hend⟩
  rw [← hstop.2]
  exact hfirst hstop.1

end Scanner

end TypedSql
