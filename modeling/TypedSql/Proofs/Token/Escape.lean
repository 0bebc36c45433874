import TypedSql.Proofs.Token.Ahead

/-!
# Backslashes in string literals

Only directly behind a letter E does a backslash in a string literal take the next character along.
A literal that is cut off there has the same end without the letter unless a backslash takes a quote
along in it (`Scan.escapesQuote`). Each such quote turns the meaning of the quotes behind it around:
the literal ends earlier or later then, but never where it did
(`Scan.quotedLength_false_eq_iff`).
-/

namespace TypedSql

namespace Scan

/-- Whether a backslash takes a quote along, in a text in which it takes each character along. -/
def escapesQuote : List Char → Bool
  | [] => false
  | '\\' :: c :: cs => c == '\'' || escapesQuote cs
  | _ :: cs => escapesQuote cs

variable {ns before before' after after' cs : List Char} {c d : Char} {n : Nat}

theorem escapesQuote_cons (hc : c ≠ '\\') : escapesQuote (c :: cs) = escapesQuote cs := by
  rw [escapesQuote]
  rintro d ds rfl
  exact absurd rfl hc

/-- How a literal with backslash escapes is read. -/
@[elab_as_elim]
theorem literal_induction {motive : List Char → Prop} (nil : motive []) (quote : motive ['\''])
    (backslash : motive ['\\']) (escape : ∀ d cs, motive cs → motive ('\\' :: d :: cs))
    (doubled : ∀ cs, motive cs → motive ('\'' :: '\'' :: cs))
    (closing : ∀ d cs, d ≠ '\'' → motive ('\'' :: d :: cs))
    (plain : ∀ c cs, c ≠ '\'' → c ≠ '\\' → motive cs → motive (c :: cs)) (cs : List Char) :
    motive cs := by
  have hbackslash {c : Char} (he : ¬ (true && c == '\\') = true) : c ≠ '\\' := by simpa using he
  induction cs using quotedLength.induct '\'' true with
  | case1 => exact nil
  | case2 c he =>
    obtain rfl : c = '\\' := by simpa using he
    exact backslash
  | case3 => exact quote
  | case4 c he hc => exact plain c [] hc (hbackslash he) nil
  | case5 c d cs he ih =>
    obtain rfl : c = '\\' := by simpa using he
    exact escape d cs ih
  | case6 cs _ ih => exact doubled cs ih
  | case7 d cs hd => exact closing d cs hd
  | case8 c d cs he hc ih => exact plain c (d :: cs) hc (hbackslash he) ih

/-- Without such a quote a backslash may as well be a plain character. -/
theorem quotedLength_false_eq (h : escapesQuote cs = false) :
    quotedLength '\'' false cs = quotedLength '\'' true cs := by
  induction cs using literal_induction with
  | nil | quote | backslash => rfl
  | escape d cs ih =>
    rw [escapesQuote, Bool.or_eq_false_iff, beq_eq_false_iff_ne] at h
    rw [quotedLength_plain false (by decide) nofun, quotedLength_plain false h.1 nofun, ih h.2,
      Option.map_map]
    rfl
  | doubled cs ih =>
    rw [escapesQuote_cons (by decide), escapesQuote_cons (by decide)] at h
    rw [quotedLength_doubled (by decide), quotedLength_doubled (by decide), ih h]
  | closing d cs hd =>
    have hhead : (d :: cs).head? ≠ some '\'' := by simpa using hd
    rw [quotedLength_closing (by decide) _ hhead, quotedLength_closing (by decide) _ hhead]
  | plain c cs hc hbackslash ih =>
    rw [escapesQuote_cons hbackslash] at h
    rw [quotedLength_plain false hc nofun, quotedLength_plain true hc fun _ => hbackslash, ih h]

/-- A literal is cut off whole: it ends with its closing quote, or it has none. -/
def ClosesAtEnd (cs : List Char) : Prop :=
  quotedLength '\'' true cs = none ∨ quotedLength '\'' true cs = some cs.length

theorem ClosesAtEnd.of_map {m : Nat} {ds : List Char} (h : ClosesAtEnd cs)
    (hmap : quotedLength '\'' true cs = (quotedLength '\'' true ds).map (· + m))
    (hlength : cs.length = ds.length + m) : ClosesAtEnd ds := by
  rw [ClosesAtEnd, hmap] at h
  cases hds : quotedLength '\'' true ds with
  | none => exact .inl hds
  | some n =>
    rw [hds, hlength] at h
    rcases h with h | h
    · contradiction
    · right
      rw [hds, Nat.add_right_cancel (Option.some.inj h)]

theorem map_add_injective (m : Nat) : Function.Injective (Option.map (· + m)) :=
  Option.map_injective fun _ _ => Nat.add_right_cancel

theorem not_closesAtEnd_closing (hd : d ≠ '\'') : ¬ ClosesAtEnd ('\'' :: d :: cs) := by
  rw [ClosesAtEnd, quotedLength_closing (by decide) _ (by simpa using hd)]
  simp

/-- With a quote in front, each quote means what it did not mean before. -/
theorem quotedLength_false_quote_ne (h : ClosesAtEnd cs) :
    quotedLength '\'' false ('\'' :: cs) ≠ (quotedLength '\'' true cs).map (· + 1) := by
  have hplain {c : Char} {cs : List Char} (hc : c ≠ '\'') :
      quotedLength '\'' false ('\'' :: c :: cs) ≠
        (quotedLength '\'' true (c :: cs)).map (· + 1) := by
    rw [quotedLength_closing (by decide) _ (by simpa using hc)]
    intro heq
    obtain ⟨n, hn, hone⟩ := Option.map_eq_some_iff.mp heq.symm
    have hpos := quotedLength_pos hn
    omega
  induction cs using literal_induction with
  | nil | quote => decide
  | backslash | escape => exact hplain (by decide)
  | doubled cs ih =>
    have htail := h.of_map (quotedLength_doubled (by decide) _ _) rfl
    have hswap (o : Option Nat) : (o.map (· + 2)).map (· + 1) = (o.map (· + 1)).map (· + 2) := by
      rw [Option.map_map, Option.map_map]
      rfl
    rw [quotedLength_doubled (by decide), quotedLength_doubled (by decide), hswap]
    exact fun heq => ih htail (map_add_injective 2 heq)
  | closing d cs hd => exact absurd h (not_closesAtEnd_closing hd)
  | plain c cs hc => exact hplain hc

/-- A literal has the same end without escapes if and only if it escapes no quote. -/
theorem quotedLength_false_eq_iff (h : ClosesAtEnd cs) :
    quotedLength '\'' false cs = quotedLength '\'' true cs ↔ escapesQuote cs = false := by
  refine ⟨?_, quotedLength_false_eq⟩
  induction cs using literal_induction with
  | nil | quote | backslash => exact fun _ => rfl
  | escape d cs ih =>
    have htail : ClosesAtEnd cs := h.of_map (m := 2) rfl rfl
    intro heq
    have hescape : quotedLength '\'' true ('\\' :: d :: cs) =
        ((quotedLength '\'' true cs).map (· + 1)).map (· + 1) := by
      rw [Option.map_map]
      rfl
    rw [quotedLength_plain false (by decide) nofun, hescape] at heq
    have hd := map_add_injective 1 heq
    by_cases hquote : d = '\''
    · rw [hquote] at hd
      exact absurd hd (quotedLength_false_quote_ne htail)
    · rw [quotedLength_plain false hquote nofun] at hd
      rw [escapesQuote, beq_false_of_ne hquote, Bool.false_or]
      exact ih htail (map_add_injective 1 hd)
  | doubled cs ih =>
    intro heq
    rw [quotedLength_doubled (by decide), quotedLength_doubled (by decide)] at heq
    rw [escapesQuote_cons (by decide), escapesQuote_cons (by decide)]
    exact ih (h.of_map (quotedLength_doubled (by decide) _ _) rfl) (map_add_injective 2 heq)
  | closing d cs hd => exact absurd h (not_closesAtEnd_closing hd)
  | plain c cs hc hbackslash ih =>
    have hcons : quotedLength '\'' true (c :: cs) = (quotedLength '\'' true cs).map (· + 1) :=
      quotedLength_plain true hc fun _ => hbackslash
    intro heq
    rw [quotedLength_plain false hc nofun, hcons] at heq
    rw [escapesQuote_cons hbackslash]
    exact ih (h.of_map hcons rfl) (map_add_injective 1 heq)

theorem lexeme_quote (hns : ∀ d ∈ ns, Text.isWord d = true) (hne : ns ≠ [])
    (before cs : List Char) : lexeme ns before '\'' cs =
      delimited .stringLiteral .unterminatedString cs
        (quotedLength '\'' (isEscapeString before) cs) := by
  have hdollar : dollarTagLength before ('\'' :: cs) = none := dollarTagLength_of_ne (by decide)
  have hcall : placeholderLength ns before ('\'' :: cs) = none :=
    placeholderLength_of_not_isWord hns hne (by decide)
  simp [lexeme, hdollar, hcall]

theorem delimited_string_iff {o : Option Nat} :
    delimited .stringLiteral .unterminatedString cs o = (.stringLiteral, n) ↔ o = some n := by
  cases o <;> simp [delimited]

theorem delimited_unterminated_iff {o : Option Nat} :
    delimited .stringLiteral .unterminatedString cs o =
      (.illegal .unterminatedString, cs.length) ↔ o = none := by
  cases o <;> simp [delimited]

/-- A literal stays the same behind a text that turns backslash escapes off if and only if it
escapes no quote. -/
theorem lexeme_unescaped_iff (hns : ∀ d ∈ ns, Text.isWord d = true) (hne : ns ≠ [])
    {kind : TokenKind} (hbefore : isEscapeString before = true)
    (hbefore' : isEscapeString before' = false)
    (h : lexeme ns before '\'' (cs ++ after) = (kind, cs.length)) :
    lexeme ns before' '\'' (cs ++ after) = (kind, cs.length) ↔ escapesQuote cs = false := by
  rw [lexeme_quote hns hne, hbefore] at h
  rw [lexeme_quote hns hne, hbefore']
  cases hlength : quotedLength '\'' true (cs ++ after) with
  | none =>
    rw [hlength] at h
    obtain ⟨rfl, hall⟩ := Prod.mk.inj h
    rw [List.length_append, Nat.add_eq_left, List.length_eq_zero_iff] at hall
    subst hall
    rw [List.append_nil] at hlength ⊢
    rw [delimited_unterminated_iff, ← quotedLength_false_eq_iff (.inl hlength), hlength]
  | some n =>
    rw [hlength] at h
    obtain ⟨rfl, rfl⟩ := Prod.mk.inj h
    have hhead := head?_ne_of_quotedLength hlength
    have hclose := quotedLength_of_append hlength (Nat.le_refl _)
    rw [delimited_string_iff, ← quotedLength_false_eq_iff (.inr hclose), hclose]
    exact ⟨fun h => quotedLength_of_append h (Nat.le_refl _), fun h => quotedLength_append h hhead⟩

end Scan

end TypedSql
