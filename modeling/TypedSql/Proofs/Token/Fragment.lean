import TypedSql.Proofs.Token.Delimited
import TypedSql.Proofs.Token.Merge

/-!
# Fragments

A fragment starts where no other token starts (`Scanner.startsPlain_iff`), and it ends where another
token starts. The tests for its end are not the tests by which a token is recognized, but they come
to the same, so a scanner that is started again inside of a fragment reads the rest of that fragment
(`Scanner.next_restart`).
-/

namespace TypedSql

namespace Scanner

/-- The scanner of a text at the place behind a part of it. -/
def restart (ns : String) (done rest : List Char) : Scanner :=
  ⟨ns.toList, Position.start.advance done, done.reverse, rest⟩

/-- No other token than a fragment starts here. -/
structure StartsPlain (s : Scanner) : Prop where
  mark : ∀ c ∈ s.rest.head?, c ∉ [';', '\'', '"']
  legal : ∀ c ∈ s.rest.head?, Scan.isIllegal c = false
  line : ¬ ['-', '-'] <+: s.rest
  block : ¬ ['/', '*'] <+: s.rest
  tag : ¬ ∃ tag, Scan.TagStarts s.before s.rest tag
  call : ¬ Scan.CallStarts s.ns s.before s.rest

variable {s : Scanner} {src ns : String} {us vs : List Token} {t u : Token} {l : Lexeme}
  {ls : List Lexeme} {front back : List Char}

/-- A fragment starts where no other token starts. -/
theorem startsPlain_iff (hns : ∀ d ∈ s.ns, Text.isWord d = true) (hne : s.ns ≠ [])
    (hrest : s.rest ≠ []) : s.StartsPlain ↔ s.next.1.kind = .fragment := by
  obtain ⟨c, cs, hcons⟩ := List.exists_cons_of_ne_nil hrest
  have hpair (a b : Char) : c = a ∧ cs.head? = some b ↔ [a, b] <+: c :: cs := by
    rw [List.cons_prefix_cons, List.head?_eq_some_iff, eq_comm]
    exact and_congr_right fun _ => exists_congr fun ds => eq_comm
  have hends : Scan.endsFragment s.ns s.before c cs = true ↔
      (Scan.lexeme s.ns s.before c cs).1 ≠ .fragment := Scan.endsFragment_iff hns hne
  rw [Scan.endsFragment_eq_true_iff hns hne, Scan.exists_dollarTagLength_iff,
    Scan.exists_placeholderLength_iff, hpair, hpair, ← hcons] at hends
  rw [next_of_cons hcons, ← not_ne_iff, ← hends]
  constructor
  · intro h
    simp only [not_or]
    exact ⟨h.mark c (by simp [hcons]), by simp [h.legal c, hcons], h.line, h.block, h.tag, h.call⟩
  · intro h
    simp only [not_or] at h
    obtain ⟨hmark, hlegal, hline, hblock, htag, hcall⟩ := h
    refine ⟨?_, ?_, hline, hblock, htag, hcall⟩
    · rw [hcons]
      rintro d ⟨⟩
      exact hmark
    · rw [hcons]
      rintro d ⟨⟩
      simpa using hlegal

theorem next_of_cuts (h : Scan.Cuts s.ns s.before (l :: ls) [])
    (hrest : s.rest = Lexeme.text (l :: ls)) :
    s.next.1 = ⟨l.kind, String.ofList l.chars, s.pos⟩ := by
  have hne : s.rest ≠ [] := by
    rw [hrest]
    cases h
    exact List.cons_ne_nil _ _
  have htokens := tokens_eq_place h hrest
  rw [tokens_of_ne_nil hne, Lexeme.place] at htokens
  exact (List.cons.inj htokens).1

/-- A scanner that is started again inside of a fragment reads the rest of it. -/
theorem next_restart (hns : Settings.IsNamespace ns) (h : tokenize src ns = us ++ t :: vs)
    (hk : t.kind = .fragment) (hchars : t.chars = front ++ back) (hback : back ≠ []) :
    (restart ns (us.flatMap Token.chars ++ front) (back ++ vs.flatMap Token.chars)).next.1 =
      ⟨.fragment, String.ofList back, t.pos.advance front⟩ := by
  have hcuts := cuts_of_tokenize_eq h
  have hlexeme : t.lexeme = ⟨.fragment, front ++ back⟩ := by
    rw [← hk, ← hchars]
    rfl
  rw [List.map_cons, hlexeme] at hcuts
  have htrim := hcuts.trim (fun _ => hns.isWord) hns.1 hback
  rw [← List.reverse_append] at htrim
  rw [next_of_cuts (s := restart _ _ _) htrim (by simp [restart, Lexeme.text_map_lexeme])]
  rw [restart, Position.advance_append, ← pos_of_tokenize_eq h]

theorem lexeme_of_fragment (hk : t.kind = .fragment) : t.lexeme = ⟨.fragment, t.chars⟩ :=
  congrArg (Lexeme.mk · t.chars) hk

/-- A fragment does not end in front of another one. -/
theorem kind_ne_fragment_of_tokenize_eq (hns : Settings.IsNamespace ns)
    (h : tokenize src ns = us ++ t :: u :: vs) (ht : t.kind = .fragment) : u.kind ≠ .fragment := by
  intro hu
  have hword : ∀ d ∈ ns.toList, Text.isWord d = true := fun _ => hns.isWord
  have hcuts := cuts_of_tokenize_eq h
  rw [List.map_cons, List.map_cons, lexeme_of_fragment ht, lexeme_of_fragment hu,
    Scan.cuts_fragment_iff hword hns.1, Scan.cuts_fragment_iff hword hns.1] at hcuts
  obtain ⟨-, -, hstop, hne, hinside, hlength, -⟩ := hcuts
  have hread := Scan.fragmentLength_append_iff.mpr ⟨hinside, hlength⟩
  rw [Lexeme.text_cons, hread, List.length_eq_zero_iff] at hstop
  exact hne hstop

/-- At each place in a fragment another one starts, and no other token. -/
theorem startsPlain_restart (hns : Settings.IsNamespace ns) (h : tokenize src ns = us ++ t :: vs)
    (hk : t.kind = .fragment) (hchars : t.chars = front ++ back) (hback : back ≠ []) :
    (restart ns (us.flatMap Token.chars ++ front)
      (back ++ vs.flatMap Token.chars)).StartsPlain := by
  refine (startsPlain_iff (fun _ => hns.isWord) hns.1 ?_).mpr ?_
  · simp [restart, hback]
  · rw [next_restart hns h hk hchars hback]

/-- Fragments do not stand side by side, no other token starts inside of one, and a scanner that is
started again at one of its characters reads up to the same place. -/
theorem fragments_are_maximal {ns : String} (hns : Settings.IsNamespace ns) (src : String) :
    (∀ us t u vs, tokenize src ns = us ++ t :: u :: vs → t.kind = .fragment →
      u.kind ≠ .fragment) ∧
      ∀ us t vs, tokenize src ns = us ++ t :: vs → t.kind = .fragment →
        (∀ c ∈ t.chars, c ∉ [';', '\'', '"'] ∧ Scan.isIllegal c = false) ∧
        ¬ ['-', '-'] <:+: t.chars ∧ ¬ ['/', '*'] <:+: t.chars ∧
        ∀ front back, t.chars = front ++ back → back ≠ [] →
          let s := restart ns (us.flatMap Token.chars ++ front) (back ++ vs.flatMap Token.chars)
          (¬ ∃ tag, Scan.TagStarts s.before s.rest tag) ∧
            ¬ Scan.CallStarts s.ns s.before s.rest ∧
            s.next.1.kind = .fragment ∧ s.next.1.stop = t.stop := by
  refine ⟨fun us t u vs h ht => kind_ne_fragment_of_tokenize_eq hns h ht,
    fun us t vs h hk => ?_⟩
  have hplain {front back : List Char} (hchars : t.chars = front ++ back) (hback : back ≠ []) :=
    startsPlain_restart hns h hk hchars hback
  have hinfix {a b : Char} (hab : [a, b] <:+: t.chars) :
      ∃ s : Scanner, s.StartsPlain ∧ [a, b] <+: s.rest := by
    obtain ⟨front, back, hchars⟩ := hab
    rw [List.append_assoc, eq_comm] at hchars
    refine ⟨_, hplain hchars (List.cons_ne_nil _ _), ?_⟩
    exact (List.prefix_append [a, b] back).trans (List.prefix_append _ _)
  refine ⟨?_, ?_, ?_, ?_⟩
  · intro c hc
    obtain ⟨front, back, hchars⟩ := List.append_of_mem hc
    have hstarts := hplain hchars (List.cons_ne_nil _ _)
    exact ⟨hstarts.mark c rfl, hstarts.legal c rfl⟩
  · intro hline
    obtain ⟨s, hstarts, hmark⟩ := hinfix hline
    exact hstarts.line hmark
  · intro hblock
    obtain ⟨s, hstarts, hmark⟩ := hinfix hblock
    exact hstarts.block hmark
  · intro front back hchars hback
    have hstarts := hplain hchars hback
    have hnext := next_restart hns h hk hchars hback
    refine ⟨hstarts.tag, hstarts.call, by rw [hnext], ?_⟩
    rw [hnext, Token.stop, Token.stop, hchars, Position.advance_append]
    simp [Token.chars]

/-- Dashes, slashes, dollar signs and dotted names that start nothing are left in a fragment. -/
theorem fragments_are_maximal_select :
    let src := "SELECT 1 - x$$ / q.arg(2), x.q.arg('a')"
    Settings.IsNamespace "q" ∧
      (tokenize src "q").map (·.literal) =
        ["SELECT 1 - x$$ / q.arg(2), x.q.arg(", "'a'", ")"] ∧
      (restart "q" "SELECT 1 ".toList
        "- x$$ / q.arg(2), x.q.arg('a')".toList).next.1.stop.offset = 35 := by
  intro src
  have hns : Settings.IsNamespace "q" := by decide
  let t : Token := ⟨.fragment, "SELECT 1 - x$$ / q.arg(2), x.q.arg(", .start⟩
  let vs : List Token := [⟨.stringLiteral, "'a'", ⟨35, 1, 36⟩⟩, ⟨.fragment, ")", ⟨38, 1, 39⟩⟩]
  have htokens : tokenize src "q" = [] ++ t :: vs := by decide +kernel
  have hchars : t.chars = "SELECT 1 ".toList ++ "- x$$ / q.arg(2), x.q.arg(".toList := by
    decide +kernel
  have hrest : "- x$$ / q.arg(2), x.q.arg('a')".toList =
      "- x$$ / q.arg(2), x.q.arg(".toList ++ vs.flatMap Token.chars := by
    decide +kernel
  obtain ⟨-, hinside⟩ := fragments_are_maximal hns src
  obtain ⟨-, -, -, hrestart⟩ := hinside [] t vs htokens rfl
  obtain ⟨-, -, -, hstop⟩ := hrestart _ _ hchars (by decide +kernel)
  refine ⟨hns, by rw [htokens]; rfl, ?_⟩
  rw [hrest]
  exact (congrArg Position.offset hstop).trans (by decide +kernel)

end Scanner

end TypedSql
