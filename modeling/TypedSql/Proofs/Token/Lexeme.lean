import TypedSql.Placeholder
import TypedSql.Proofs.Token.Context

/-!
# Tokens without places

A lexeme is what is left of a token when its place is forgotten. `Scan.Cuts ns before ls after`
says that a scanner behind `before` cuts the lexemes `ls` off a text when `after` follows them; the
text that follows is part of the judgement, since a token may look ahead. Such judgements are put
together from left to right (`Scan.Cuts.append`), moved between fresh places (`Scan.Cuts.fresh`)
and between texts that follow a semicolon (`Scan.Cuts.semicolon`).

A text that is cut into lexemes has these lexemes as its tokens, each at the place that the ones
before it lead to (`Scanner.tokens_eq_place`). The placeholder calls among tokens are numbered
without a look at the places, so equal lexemes are prepared in the same way
(`Prepared.ofTokens_eq_of_map_lexeme`).
-/

namespace TypedSql

/-- The kind and the text of a token. -/
structure Lexeme where
  kind : TokenKind
  chars : List Char
  deriving DecidableEq

namespace Lexeme

/-- The text that lexemes were cut from. -/
def text (ls : List Lexeme) : List Char :=
  ls.flatMap Lexeme.chars

@[simp] theorem text_nil : text [] = [] := rfl

@[simp] theorem text_cons (l : Lexeme) (ls : List Lexeme) : text (l :: ls) = l.chars ++ text ls :=
  rfl

@[simp] theorem text_append (ls ms : List Lexeme) : text (ls ++ ms) = text ls ++ text ms :=
  List.flatMap_append

/-- The tokens of lexemes that stand one behind another from a place on. -/
def place : Position → List Lexeme → List Token
  | _, [] => []
  | p, l :: ls => ⟨l.kind, String.ofList l.chars, p⟩ :: place (p.advance l.chars) ls

theorem place_append (p : Position) (ls ms : List Lexeme) :
    place p (ls ++ ms) = place p ls ++ place (p.advance (text ls)) ms := by
  induction ls generalizing p with
  | nil => rfl
  | cons l ls ih =>
    rw [List.cons_append, place, place, ih, text_cons, Position.advance_append, List.cons_append]

end Lexeme

/-- What is left of a token without its place. -/
def Token.lexeme (t : Token) : Lexeme :=
  ⟨t.kind, t.chars⟩

@[simp] theorem Token.kind_lexeme (t : Token) : t.lexeme.kind = t.kind := rfl

@[simp] theorem Lexeme.map_lexeme_place (p : Position) (ls : List Lexeme) :
    (place p ls).map Token.lexeme = ls := by
  induction ls generalizing p with
  | nil => rfl
  | cons l ls ih =>
    rw [place, List.map_cons, ih]
    simp [Token.lexeme, Token.chars]

theorem Lexeme.text_map_lexeme (ts : List Token) :
    text (ts.map Token.lexeme) = ts.flatMap Token.chars := by
  rw [text, List.flatMap_map]
  rfl

namespace Scan

section Kinds

variable {ns before cs : List Char} {c : Char}

theorem kind_delimited (kind : TokenKind) (reason : IllegalReason) (cs : List Char)
    (n : Option Nat) :
    (delimited kind reason cs n).1 = kind ∨ (delimited kind reason cs n).1 = .illegal reason := by
  cases n with
  | none => exact .inr rfl
  | some n => exact .inl rfl

/-- The end of input is no token of a text. -/
theorem kind_lexeme_ne_endOfInput (ns before : List Char) (c : Char) (cs : List Char) :
    (lexeme ns before c cs).1 ≠ .endOfInput := by
  unfold lexeme
  grind [kind_delimited, dollarString]

theorem eq_of_kind_semicolon (h : (lexeme ns before c cs).1 = .semicolon) :
    c = ';' ∧ (lexeme ns before c cs).2 = 0 := by
  unfold lexeme at h ⊢
  grind [kind_delimited, dollarString]

theorem eq_of_kind_lineComment (h : (lexeme ns before c cs).1 = .lineComment) :
    c = '-' ∧ cs.head? = some '-' := by
  unfold lexeme at h
  grind [kind_delimited, dollarString]

theorem eq_of_kind_blockComment (h : (lexeme ns before c cs).1 = .blockComment) :
    c = '/' ∧ cs.head? = some '*' := by
  unfold lexeme at h
  grind [kind_delimited, dollarString]

theorem length_of_kind_fragment (h : (lexeme ns before c cs).1 = .fragment) :
    (lexeme ns before c cs).2 = fragmentLength ns (c :: before) cs := by
  unfold lexeme at h ⊢
  grind [kind_delimited, dollarString]

theorem placeholderLength_of_not_isWord (hns : ∀ d ∈ ns, Text.isWord d = true) (hne : ns ≠ [])
    (hc : Text.isWord c = false) : placeholderLength ns before (c :: cs) = none := by
  apply placeholderLength_of_ne hne
  rintro d hd rfl
  rw [hns d (List.mem_of_head? hd)] at hc
  contradiction

/-- A fragment ends where a token of another kind would start. -/
theorem endsFragment_iff (hns : ∀ d ∈ ns, Text.isWord d = true) (hne : ns ≠ []) :
    endsFragment ns before c cs = true ↔ (lexeme ns before c cs).1 ≠ .fragment := by
  have hplace : (placeholderLength ns before (c :: cs)).isSome = true → Text.isWord c = true := by
    intro h
    by_contra hc
    rw [placeholderLength_of_not_isWord hns hne (by simpa using hc)] at h
    contradiction
  have hdollar : (dollarTagLength before (c :: cs)).isSome = true → c = '$' := by
    intro h
    by_contra hc
    rw [dollarTagLength_of_ne hc] at h
    contradiction
  -- The marks that are tested first are no illegal characters and belong to no word.
  have hdash : isIllegal '-' = false ∧ Text.isWord '-' = false := by decide
  have hslash : isIllegal '/' = false ∧ Text.isWord '/' = false := by decide
  have hsign : isIllegal '$' = false ∧ Text.isWord '$' = false := by decide
  unfold lexeme endsFragment
  grind [kind_delimited, dollarString]

end Kinds

/-- A scanner behind `before` cuts lexemes off a text when `after` follows them. -/
inductive Cuts (ns : List Char) : List Char → List Lexeme → List Char → Prop where
  | nil {before after : List Char} : Cuts ns before [] after
  | cons {before after cs : List Char} {c : Char} {kind : TokenKind} {ls : List Lexeme}
      (head : lexeme ns before c (cs ++ (Lexeme.text ls ++ after)) = (kind, cs.length))
      (tail : Cuts ns ((c :: cs).reverse ++ before) ls after) :
      Cuts ns before (⟨kind, c :: cs⟩ :: ls) after

namespace Cuts

variable {ns before after : List Char} {ls ms : List Lexeme}

theorem append (hl : Cuts ns before ls (Lexeme.text ms ++ after))
    (hm : Cuts ns ((Lexeme.text ls).reverse ++ before) ms after) :
    Cuts ns before (ls ++ ms) after := by
  induction ls generalizing before with
  | nil => exact hm
  | cons l ls ih =>
    rw [List.cons_append]
    cases hl with
    | cons head tail =>
      apply Cuts.cons
      · rwa [Lexeme.text_append, List.append_assoc]
      · apply ih tail
        rw [Lexeme.text_cons, List.reverse_append, List.append_assoc] at hm
        exact hm

theorem of_append (h : Cuts ns before (ls ++ ms) after) :
    Cuts ns before ls (Lexeme.text ms ++ after) := by
  induction ls generalizing before with
  | nil => exact .nil
  | cons l ls ih =>
    rw [List.cons_append] at h
    cases h with
    | cons head tail =>
      apply Cuts.cons
      · rwa [Lexeme.text_append, List.append_assoc] at head
      · exact ih tail

theorem of_append_right (h : Cuts ns before (ls ++ ms) after) :
    Cuts ns ((Lexeme.text ls).reverse ++ before) ms after := by
  induction ls generalizing before with
  | nil => exact h
  | cons l ls ih =>
    rw [List.cons_append] at h
    cases h with
    | cons head tail =>
      rw [Lexeme.text_cons, List.reverse_append, List.append_assoc]
      exact ih tail

/-- What lies before a fresh place does not matter to the lexemes behind it. -/
theorem fresh_append {p b b' : List Char} (h : Cuts ns (p ++ b) ls after) (hb : Fresh b)
    (hb' : Fresh b') : Cuts ns (p ++ b') ls after := by
  induction ls generalizing p with
  | nil => exact .nil
  | cons l ls ih =>
    cases h with
    | cons head tail =>
      apply Cuts.cons
      · rw [lexeme_append_fresh hb] at head
        rwa [lexeme_append_fresh hb']
      · rw [← List.append_assoc] at tail ⊢
        exact ih tail

theorem fresh (h : Cuts ns [] ls after) (hb : Fresh before) : Cuts ns before ls after :=
  h.fresh_append (p := []) fresh_nil hb

/-- What stands behind a semicolon does not matter to the lexemes in front of it. -/
theorem semicolon {more : List Char} (h : Cuts ns before ls (';' :: more))
    (hns : ∀ c ∈ ns, Text.isWord c = true) (more' : List Char) :
    Cuts ns before ls (';' :: more') := by
  induction ls generalizing before with
  | nil => exact .nil
  | cons l ls ih =>
    cases h with
    | cons head tail =>
      apply Cuts.cons
      · rw [← List.append_assoc] at head ⊢
        apply lexeme_append_semicolon hns head
        rw [List.length_append]
        exact Nat.le_add_right _ _
      · exact ih tail

/-- Lexemes through a semicolon are cut off whatever follows. -/
theorem through_semicolon (h : Cuts ns before (ls ++ [⟨.semicolon, [';']⟩]) after)
    (hns : ∀ c ∈ ns, Text.isWord c = true) (hne : ns ≠ []) (after' : List Char) :
    Cuts ns before (ls ++ [⟨.semicolon, [';']⟩]) after' := by
  apply append (h.of_append.semicolon hns after')
  apply cons _ .nil
  have hplace (before cs : List Char) : placeholderLength ns before (';' :: cs) = none :=
    placeholderLength_of_not_isWord hns hne (by decide)
  simp [lexeme, dollarTagLength_of_ne, hplace]

end Cuts

end Scan

namespace Scanner

variable {s : Scanner} {ls : List Lexeme}

theorem flatMap_chars_tokens (s : Scanner) : s.tokens.flatMap Token.chars = s.rest := by
  induction s using tokens.induct with
  | case1 s h => rw [tokens_of_nil h, h]; rfl
  | case2 s h _ ih => rw [tokens_of_ne_nil h, List.flatMap_cons, ih, chars_next_append h]

/-- A text is cut into the lexemes of its tokens. -/
theorem cuts_tokens (s : Scanner) :
    Scan.Cuts s.ns s.before (s.tokens.map Token.lexeme) [] := by
  induction s using tokens.induct with
  | case1 s h =>
    rw [tokens_of_nil h]
    exact .nil
  | case2 s h _ ih =>
    obtain ⟨c, cs, hr⟩ := List.exists_cons_of_ne_nil h
    have hle := Scan.lexeme_le s.ns s.before c cs
    have hrest := flatMap_chars_tokens s.next.2
    rw [ns_next h] at ih
    rw [tokens_of_ne_nil h, List.map_cons]
    rw [next_of_cons hr] at ih hrest ⊢
    have hchars : (⟨(Scan.lexeme s.ns s.before c cs).1,
        String.ofList (c :: cs.take (Scan.lexeme s.ns s.before c cs).2), s.pos⟩ : Token).lexeme =
        ⟨(Scan.lexeme s.ns s.before c cs).1, c :: cs.take (Scan.lexeme s.ns s.before c cs).2⟩ := by
      simp [Token.lexeme, Token.chars]
    rw [hchars]
    apply Scan.Cuts.cons
    · rw [Lexeme.text_map_lexeme, hrest, List.append_nil]
      simp only [skip, List.take_append_drop, List.length_take, Nat.min_eq_left hle]
    · exact ih

theorem lexeme_of_kind_semicolon {t : Token} (ht : t ∈ s.tokens) (hk : t.kind = .semicolon) :
    t.lexeme = ⟨.semicolon, [';']⟩ := by
  obtain ⟨before, c, cs, hkind, hchars⟩ := exists_lexeme_of_mem_tokens ht
  rw [hk] at hkind
  obtain ⟨rfl, hlength⟩ := Scan.eq_of_kind_semicolon hkind.symm
  rw [hlength, List.take_zero] at hchars
  rw [Token.lexeme, hk, hchars]

/-- A text that is cut into lexemes has them as its tokens. -/
theorem tokens_eq_place (h : Scan.Cuts s.ns s.before ls []) (hr : s.rest = Lexeme.text ls) :
    s.tokens = Lexeme.place s.pos ls := by
  induction ls generalizing s with
  | nil => exact tokens_of_nil hr
  | cons l ls ih =>
    cases h with
    | @cons _ _ cs c kind _ head tail =>
      rw [List.append_nil] at head
      rw [Lexeme.text_cons, List.cons_append] at hr
      have hne : s.rest ≠ [] := by
        rw [hr]
        exact List.cons_ne_nil _ _
      rw [tokens_of_ne_nil hne, next_of_cons hr, head]
      have htail := ih (s := s.skip c (cs ++ Lexeme.text ls) cs.length)
      simp only [skip, List.take_left, List.drop_left] at htail ⊢
      rw [htail tail trivial]
      rfl

section Places

variable {src ns : String} {us vs : List Token} {t : Token}

/-- The last tokens of a text are cut off behind the first ones. -/
theorem cuts_of_tokenize_eq {ts : List Token} (h : tokenize src ns = us ++ ts) :
    Scan.Cuts ns.toList (us.flatMap Token.chars).reverse (ts.map Token.lexeme) [] := by
  have hcuts : Scan.Cuts ns.toList [] ((us ++ ts).map Token.lexeme) [] := by
    rw [← h]
    exact cuts_tokens (ofText src ns)
  rw [List.map_append] at hcuts
  have hright := hcuts.of_append_right
  rwa [List.append_nil, Lexeme.text_map_lexeme] at hright

/-- A token of a text is measured where it stands. -/
theorem lexeme_of_tokenize_eq (h : tokenize src ns = us ++ t :: vs) :
    ∃ c cs, t.chars = c :: cs ∧
      Scan.lexeme ns.toList (us.flatMap Token.chars).reverse c (cs ++ vs.flatMap Token.chars) =
        (t.kind, cs.length) := by
  have hcuts := cuts_of_tokenize_eq h
  rw [List.map_cons] at hcuts
  generalize hl : t.lexeme = l at hcuts
  cases hcuts with
  | @cons _ _ cs c kind _ head tail =>
    rw [List.append_nil, Lexeme.text_map_lexeme] at head
    obtain ⟨rfl, hchars⟩ := Lexeme.mk.inj hl
    exact ⟨c, cs, hchars, head⟩

theorem pos_of_tokenize_eq (h : tokenize src ns = us ++ t :: vs) :
    t.pos = Position.start.advance (us.flatMap Token.chars) := by
  have habut := abut_tokens (ofText src ns)
  rw [← tokenize, h] at habut
  exact habut.pos_eq_advance

theorem toList_of_tokenize_eq (h : tokenize src ns = us ++ t :: vs) :
    src.toList = us.flatMap Token.chars ++ (t.chars ++ vs.flatMap Token.chars) := by
  have hchars : (tokenize src ns).flatMap Token.chars = src.toList :=
    flatMap_chars_tokens (ofText src ns)
  rw [← hchars, h, List.flatMap_append, List.flatMap_cons]

end Places

end Scanner

namespace Token

variable {t u : Token}

theorem literal_eq_of_lexeme (h : t.lexeme = u.lexeme) : t.literal = u.literal :=
  String.toList_inj.mp (congrArg Lexeme.chars h)

theorem placeholderName_eq_of_lexeme (h : t.lexeme = u.lexeme) :
    t.placeholderName = u.placeholderName := by
  have hkind : t.kind = u.kind := congrArg Lexeme.kind h
  have hchars : t.chars = u.chars := congrArg Lexeme.chars h
  unfold placeholderName
  rw [hkind, hchars]

end Token

namespace Prepared

theorem pieces_eq_of_map_lexeme {ts us : List Token} (names : List String)
    (h : ts.map Token.lexeme = us.map Token.lexeme) : pieces names ts = pieces names us := by
  induction ts generalizing us names with
  | nil =>
    obtain rfl := List.map_eq_nil_iff.mp h.symm
    rfl
  | cons t ts ih =>
    obtain ⟨u, us, rfl, htu, hrest⟩ := List.map_eq_cons_iff.mp h.symm
    rw [pieces, pieces, Token.placeholderName_eq_of_lexeme htu, Token.literal_eq_of_lexeme htu]
    cases t.placeholderName with
    | none => simp only [ih names hrest.symm]
    | some name => simp only [ih _ hrest.symm]

/-- Numbering does not look at the places of tokens. -/
theorem ofTokens_eq_of_map_lexeme {ts us : List Token}
    (h : ts.map Token.lexeme = us.map Token.lexeme) : ofTokens ts = ofTokens us := by
  rw [ofTokens, ofTokens, pieces_eq_of_map_lexeme [] h]

end Prepared

end TypedSql
