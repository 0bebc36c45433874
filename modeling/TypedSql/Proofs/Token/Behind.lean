import TypedSql.Proofs.Settings.Namespace
import TypedSql.Proofs.Token.Boundary
import TypedSql.Proofs.Token.Place

/-!
# A text behind another one

A place of a text moves when the text is put behind another one: its offset and its line grow by
those of the place where the first text ends, and its column only on the first line
(`Position.behind`). What is counted from a place on moves with it.

A text whose last token is a semicolon can be followed by any other. Its tokens stay what they are,
and those of the other text are found again behind them, each at its moved place
(`Scanner.tokenize_append`).
-/

namespace TypedSql

namespace Position

/-- The place `q` of a text that stands behind the place `p`. -/
def behind (q p : Position) : Position where
  offset := p.offset + q.offset
  line := p.line - 1 + q.line
  column := if q.line = 1 then p.column - 1 + q.column else q.column

variable {p q : Position}

@[simp] theorem line_behind : (q.behind p).line = p.line - 1 + q.line := rfl

theorem behind_step (hq : 0 < q.line) (c : Char) : (q.step c).behind p = (q.behind p).step c := by
  unfold step behind
  split <;> grind

theorem line_pos_advance (hq : 0 < q.line) (s : List Char) : 0 < (q.advance s).line := by
  rw [line_advance]
  omega

/-- A place that is counted from another one moves with it. -/
theorem behind_advance (hq : 0 < q.line) (s : List Char) :
    (q.advance s).behind p = (q.behind p).advance s := by
  induction s generalizing q with
  | nil => rfl
  | cons c s ih =>
    rw [advance_cons, advance_cons, ← behind_step hq]
    exact ih (line_pos_advance hq [c])

/-- The first place of a text is where the text in front of it ends. -/
theorem behind_start (s : List Char) :
    start.behind (start.advance s) = start.advance s := by
  obtain ⟨-, hline, hcolumn⟩ := isEnd_advance s
  generalize start.advance s = p at hline hcolumn ⊢
  obtain ⟨offset, line, column⟩ := p
  simp only at hline hcolumn
  subst hline hcolumn
  rfl

end Position

namespace Token

/-- The token at its place behind `p`. -/
def behind (t : Token) (p : Position) : Token :=
  { t with pos := t.pos.behind p }

variable {t : Token} {p : Position}

@[simp] theorem kind_behind : (t.behind p).kind = t.kind := rfl

@[simp] theorem literal_behind : (t.behind p).literal = t.literal := rfl

@[simp] theorem chars_behind : (t.behind p).chars = t.chars := rfl

@[simp] theorem lexeme_behind : (t.behind p).lexeme = t.lexeme := rfl

@[simp] theorem pos_behind : (t.behind p).pos = t.pos.behind p := rfl

@[simp] theorem isTrivia_behind : (t.behind p).isTrivia = t.isTrivia := rfl

theorem endLine_behind : (t.behind p).endLine = p.line - 1 + t.endLine :=
  Nat.add_assoc _ _ _

theorem stop_behind (h : 0 < t.pos.line) : (t.behind p).stop = t.stop.behind p :=
  (Position.behind_advance h t.chars).symm

theorem significantStart_behind (h : 0 < t.pos.line) :
    (t.behind p).significantStart = t.significantStart.behind p := by
  rw [significantStart_eq, significantStart_eq, Position.behind_advance h]
  rfl

theorem trimStart_behind (h : 0 < t.pos.line) :
    (t.behind p).trimStart = t.trimStart.behind p := by
  by_cases hk : t.kind = .fragment
  · have hstart := significantStart_behind (p := p) h
    simp only [trimStart, kind_behind, hk, chars_behind, hstart]
    rfl
  · have htrim : (t.behind p).trimStart = t.behind p := trimStart_of_ne hk
    rw [htrim, trimStart_of_ne hk]

end Token

/-- Lexemes that are placed from a later place on. -/
theorem Lexeme.place_behind {p q : Position} (hq : 0 < q.line) (ls : List Lexeme) :
    place (q.behind p) ls = (place q ls).map (·.behind p) := by
  induction ls generalizing q with
  | nil => rfl
  | cons l ls ih =>
    rw [place, place, List.map_cons, ← Position.behind_advance hq,
      ih (Position.line_pos_advance hq _)]
    rfl

namespace Scanner

variable {a ns : String}

/-- A text is empty or ends with a semicolon that is a token of its own. -/
def EndsStatement (a ns : String) : Prop :=
  ∀ t ∈ (tokenize a ns).getLast?, t.kind = .semicolon

instance (a ns : String) : Decidable (EndsStatement a ns) := by
  unfold EndsStatement
  infer_instance

/-- The lexemes of a text that ends with a semicolon are cut off whatever follows it. -/
theorem EndsStatement.cuts (h : EndsStatement a ns) (hns : Settings.IsNamespace ns)
    (after : List Char) :
    Scan.Cuts ns.toList [] ((tokenize a ns).map Token.lexeme) after ∧
      Scan.Fresh a.toList.reverse := by
  have hcuts : Scan.Cuts ns.toList [] ((tokenize a ns).map Token.lexeme) [] :=
    cuts_tokens (ofText a ns)
  have htext : a.toList = (tokenize a ns).flatMap Token.chars :=
    (flatMap_chars_tokens (ofText a ns)).symm
  rcases List.eq_nil_or_concat (tokenize a ns) with hnil | ⟨front, t, hfront⟩
  · rw [hnil] at htext ⊢
    rw [htext]
    exact ⟨.nil, Scan.fresh_nil⟩
  · rw [List.concat_eq_append] at hfront
    have hmem : t ∈ (ofText a ns).tokens := by
      rw [← tokenize, hfront]
      exact List.mem_append_right _ List.mem_cons_self
    have hkind : t.kind = .semicolon := h t (by rw [hfront, List.getLast?_concat]; rfl)
    have hlexeme := lexeme_of_kind_semicolon hmem hkind
    rw [hfront, List.map_append, List.map_singleton, hlexeme] at hcuts ⊢
    refine ⟨hcuts.through_semicolon (fun c => hns.isWord) hns.1 after, ?_⟩
    have hchars : t.chars = [';'] := congrArg Lexeme.chars hlexeme
    rw [htext, hfront, List.flatMap_append, List.flatMap_singleton, hchars, List.reverse_append]
    exact Scan.fresh_cons (by decide) _

/-- Behind a text that ends with a semicolon, the tokens of another text are found again. -/
theorem tokenize_append (h : EndsStatement a ns) (hns : Settings.IsNamespace ns) (b : String) :
    tokenize (a ++ b) ns =
      tokenize a ns ++ (tokenize b ns).map (·.behind (Position.start.advance a.toList)) := by
  have hb : Scan.Cuts ns.toList [] ((tokenize b ns).map Token.lexeme) [] :=
    cuts_tokens (ofText b ns)
  have htext (s : String) : Lexeme.text ((tokenize s ns).map Token.lexeme) = s.toList := by
    rw [Lexeme.text_map_lexeme]
    exact flatMap_chars_tokens (ofText s ns)
  have hplace (s : String) :
      Lexeme.place .start ((tokenize s ns).map Token.lexeme) = tokenize s ns :=
    (tokens_eq_place (s := ofText s ns) (cuts_tokens (ofText s ns)) (htext s).symm).symm
  obtain ⟨hcuts, hfresh⟩ := h.cuts hns (Lexeme.text ((tokenize b ns).map Token.lexeme) ++ [])
  have hall := hcuts.append (hb.fresh (by rwa [htext, List.append_nil]))
  have htokens : tokenize (a ++ b) ns = Lexeme.place .start _ :=
    tokens_eq_place (s := ofText (a ++ b) ns) hall (by simp [ofText, htext])
  rw [htokens, Lexeme.place_append, hplace, htext, ← Position.behind_start a.toList,
    Lexeme.place_behind Nat.one_pos, hplace, Position.behind_start]

end Scanner

end TypedSql
