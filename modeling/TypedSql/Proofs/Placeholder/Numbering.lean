import TypedSql.Proofs.Placeholder.Pieces

/-!
# Numbering keeps the tokens of a statement

A numbered statement is scanned into the tokens that it was written with, each call replaced by a
fragment that holds its marker and fragments side by side merged, unless a marker collides with its
neighbours (`Piece.Collides`). Where none collides, the numbered statement holds no call, so
numbering it again changes nothing.
-/

namespace TypedSql

namespace Prepared

namespace Piece

open Scan

/-- A marker changes what the text around it is read as. -/
inductive Collides (ns : List Char) : List Piece → Prop where
  /-- A dollar quote stands directly behind a call. Behind the marker it is no dollar quote. -/
  | dollar {front back : List Piece} {chars cs : List Char} {n : Nat} {kind : TokenKind}
      (quote : kind ≠ .fragment) :
      Collides ns (front ++ .call chars n :: .plain ⟨kind, '$' :: cs⟩ :: back)
  /-- The letter E stands between a call and a string in which a backslash escapes a quote. Behind
  the marker the letter belongs to a word, and backslashes escape nothing. -/
  | escape {front back : List Piece} {chars cs : List Char} {n : Nat} {e : Char} {kind : TokenKind}
      (letter : e = 'e' ∨ e = 'E') (quote : escapesQuote cs = true) :
      Collides ns
        (front ++ .call chars n :: .plain ⟨.fragment, [e]⟩ :: .plain ⟨kind, '\'' :: cs⟩ :: back)
  /-- A dollar sign that belongs to no word stands directly in front of a call. It makes a dollar
  tag with the one of the marker. -/
  | tag {front back : List Piece} {chars cs : List Char} {n : Nat}
      (alone : followsWord (cs.reverse ++ (numberedText front).reverse) = false) :
      Collides ns (front ++ .plain ⟨.fragment, cs ++ ['$']⟩ :: .call chars n :: back)
  /-- The number and the text behind it read as a call, in a namespace that starts with a digit. -/
  | number {front back : List Piece} {chars ident call : List Char} {n : Nat}
      (form : IsCall ns ident call) (starts : call <+: Nat.toDigits 10 n ++ numberedText back) :
      Collides ns (front ++ .call chars n :: back)

variable {ns : List Char} {front back ps : List Piece} {p : Piece}

theorem fitTogether_numbered_iff : FitTogether ns [] (ps.map numbered) ↔
    ∀ front p back, ps = front ++ p :: back →
      Fits ns (numberedText front).reverse p.numbered (numberedText back) := by
  rw [fitTogether_iff_forall]
  constructor
  · rintro h front p back rfl
    have := h (front.map numbered) p.numbered (back.map numbered) (by simp)
    rwa [List.append_nil] at this
  · intro h front l back hps
    obtain ⟨front, rest, rfl, rfl, hrest⟩ := List.map_eq_append_iff.mp hps
    obtain ⟨p, back, rfl, rfl, rfl⟩ := List.map_eq_cons_iff.mp hrest
    rw [List.append_nil]
    exact h front p back rfl

section Marker

variable {n : Nat} {chars us : List Char}

/-- A marker ends with a digit. -/
theorem exists_digit_behind_call (front : List Piece) (chars : List Char) (n : Nat) :
    ∃ d before, (numberedText (front ++ [.call chars n])).reverse = d :: before ∧
      d.isDigit = true := by
  rcases List.eq_nil_or_concat (Nat.toDigits 10 n) with h | ⟨ds, d, h⟩
  · exact absurd h (Text.toDigits_ne_nil n)
  · refine ⟨d, ds.reverse ++ '$' :: (numberedText front).reverse, by simp [numbered, h], ?_⟩
    exact Text.isDigit_of_mem_toDigits (n := n) (by simp [h])

theorem followsWord_behind_call :
    followsWord (numberedText (front ++ [.call chars n])).reverse = true := by
  obtain ⟨d, before, hbefore, hd⟩ := exists_digit_behind_call front chars n
  rw [hbefore]
  exact Text.isWord_of_isDigit hd

/-- In a numbered statement no word ends where none ended before. -/
theorem IsCut.followsWord_or (h : IsCut ns (front ++ p :: back)) (us : List Char) :
    (us.reverse ++ (numberedText front).reverse).head? =
        (us.reverse ++ (writtenText front).reverse).head? ∨
      followsWord (us.reverse ++ (numberedText front).reverse) = true := by
  rcases List.eq_nil_or_concat us with rfl | ⟨us, u, rfl⟩
  · rcases h.behind with hhead | ⟨front, chars, n, rfl⟩
    · exact .inl hhead
    · exact .inr followsWord_behind_call
  · exact .inl (by simp)

theorem IsCut.followsWord_written (h : IsCut ns (front ++ p :: back))
    (hword : followsWord (us.reverse ++ (numberedText front).reverse) = false) :
    followsWord (us.reverse ++ (writtenText front).reverse) = false := by
  rcases h.followsWord_or us with hhead | htrue
  · rwa [followsWord, ← hhead]
  · rw [htrue] at hword
    contradiction

theorem followsWord_of_fresh {before : List Char} (h : Fresh before) : followsWord before = false :=
  followsWord_append_fresh (p := []) h

theorem IsCut.fresh_written (h : IsCut ns (front ++ p :: back))
    (hfresh : Fresh (us.reverse ++ (numberedText front).reverse)) :
    Fresh (us.reverse ++ (writtenText front).reverse) := by
  rcases h.followsWord_or us with hhead | htrue
  · rwa [Fresh, ← hhead]
  · rw [followsWord_of_fresh hfresh] at htrue
    contradiction

end Marker

section Fits

variable {chars cs : List Char} {n : Nat}

theorem prefix_of_prefix_dollar {xs rest : List Char} (hxs : '$' ∉ xs)
    (h : xs <+: cs ++ '$' :: rest) : xs <+: cs := by
  rcases List.prefix_or_prefix_of_prefix h (List.prefix_append cs _) with hle | ⟨ys, rfl⟩
  · exact hle
  · rw [List.prefix_append_right_inj] at h
    cases ys with
    | nil => simp
    | cons y ys =>
      obtain ⟨rfl, -⟩ := List.cons_prefix_cons.mp h
      simp at hxs

/-- A text without dollar signs that stands in the numbered statement was there before. -/
theorem prefix_written {xs : List Char} (hxs : '$' ∉ xs) (h : xs <+: cs ++ numberedText back) :
    xs <+: cs ++ writtenText back := by
  induction back generalizing cs with
  | nil => exact h
  | cons p back ih =>
    cases p with
    | plain l =>
      rw [writtenText_cons, ← List.append_assoc]
      rw [numberedText_cons, ← List.append_assoc] at h
      exact ih h
    | call chars n => exact (prefix_of_prefix_dollar hxs h).trans (List.prefix_append _ _)

/-- The marker of a call is part of a fragment unless it reads as a call itself. -/
theorem inside_marker (hns : ∀ d ∈ ns, Text.isWord d = true) (hne : ns ≠ [])
    (before after : List Char)
    (h : ∀ ident call, IsCall ns ident call → ¬ call <+: Nat.toDigits 10 n ++ after) :
    Inside ns before ('$' :: Nat.toDigits 10 n) after := by
  have hdigits (c : Char) (hc : c ∈ Nat.toDigits 10 n) : Text.isWord c = true :=
    Text.isWord_of_isDigit (Text.isDigit_of_mem_toDigits hc)
  obtain ⟨d, ds, hn⟩ := List.exists_cons_of_ne_nil (Text.toDigits_ne_nil n)
  have hd : d.isDigit = true := Text.isDigit_of_mem_toDigits (n := n) (by simp [hn])
  rw [inside_cons]
  constructor
  · rw [← Bool.not_eq_true, endsFragment_eq_true_iff hns hne,
      placeholderLength_of_not_isWord hns hne (by decide)]
    have htag (m : Nat) :
        dollarTagLength before ('$' :: (Nat.toDigits 10 n ++ after)) ≠ some m := by
      rw [Ne, dollarTagLength_eq_some_iff]
      rintro ⟨-, tag, rest, htext, -, rfl | ⟨c, cs, rfl, hc, -⟩⟩
      · rw [hn] at htext
        obtain ⟨-, rfl, -⟩ := And.imp_right List.cons.inj (List.cons.inj htext)
        exact absurd hd (by decide)
      · rw [hn] at htext
        obtain ⟨-, rfl, -⟩ := And.imp_right List.cons.inj (List.cons.inj htext)
        rw [Text.isIdentStart_of_isDigit hd] at hc
        contradiction
    simp [htag]
    decide
  · rintro us c vs heq
    have hc := hdigits c (by simp [heq])
    rw [← Bool.not_eq_true, endsFragment_of_isWord hns hne hc]
    rintro ⟨m, hm⟩
    obtain ⟨hfresh, ident, call, rest, hcall, htext, -⟩ := placeholderLength_eq_some_iff.mp hm
    rcases List.eq_nil_or_concat us with rfl | ⟨us, u, rfl⟩
    · refine h ident call hcall ⟨rest, ?_⟩
      rw [heq, ← htext]
      rfl
    · have hu := hdigits u (by simp [heq])
      have hfalse := hfresh u (by simp)
      rw [hu] at hfalse
      exact absurd hfalse.1 Bool.noConfusion

/-- A dollar tag that starts in a fragment of the numbered statement was there before, unless it
ends with the dollar sign of a marker. -/
theorem tag_written (hns : ∀ d ∈ ns, Text.isWord d = true) (hne : ns ≠ [])
    {us vs tag rest : List Char}
    (h : IsCut ns (front ++ .plain ⟨.fragment, us ++ '$' :: vs⟩ :: back))
    (htag : tag = [] ∨ Text.IsIdent tag) (hrest : vs ++ numberedText back = tag ++ '$' :: rest) :
    (∃ rest', vs ++ writtenText back = tag ++ '$' :: rest') ∨
      vs = [] ∧ ∃ chars n back', back = .call chars n :: back' := by
  have hword : ∀ c ∈ tag, Text.isWord c = true := by
    intro c hc
    rcases htag with rfl | htag
    · contradiction
    · exact htag.isWord hc
  have hinner (gap : List Char) (hvs : vs = tag ++ '$' :: gap) :
      ∃ rest', vs ++ writtenText back = tag ++ '$' :: rest' :=
    ⟨gap ++ writtenText back, by simp [hvs]⟩
  have houter (gap : List Char) (hvs : tag = vs ++ gap)
      (hback : numberedText back = gap ++ '$' :: rest) :
      (∃ rest', vs ++ writtenText back = tag ++ '$' :: rest') ∨
        vs = [] ∧ ∃ chars n back', back = .call chars n :: back' := by
    cases back with
    | nil => simp at hback
    | cons q back =>
      have hq : IsCut ns ((front ++ [.plain ⟨.fragment, us ++ '$' :: vs⟩]) ++ q :: back) := by
        rwa [List.append_assoc, List.singleton_append]
      cases q with
      | plain l =>
        left
        obtain ⟨d, ds, hchars, hlexeme⟩ := hq.exists_lexeme
        have hkind := congrArg Prod.fst hlexeme
        have hfragment : (Piece.plain l).written.kind ≠ .fragment := (h.fragment hns hne).2 _ rfl
        have hplain : (Piece.plain l).written.kind ≠ .placeholder := h.plain l (by simp)
        have hd : Text.isWord d = false :=
          isWord_eq_false_of_kind hns hne (hkind.trans_ne hfragment) (hkind.trans_ne hplain)
        have hl : l.chars = d :: ds := hchars
        rw [numberedText_cons, numbered, hl] at hback
        cases gap with
        | nil =>
          obtain ⟨rfl, -⟩ := List.cons.inj hback
          exact ⟨ds ++ writtenText back, by simp [hvs, written, hl]⟩
        | cons g gap =>
          obtain ⟨rfl, -⟩ := List.cons.inj hback
          rw [hword d (by simp [hvs])] at hd
          contradiction
      | call chars n =>
        right
        obtain ⟨hfresh, -⟩ := hq.call
        refine ⟨?_, chars, n, back, rfl⟩
        rcases List.eq_nil_or_concat vs with hnil | ⟨vs, v, rfl⟩
        · exact hnil
        · have hv := hfresh v (by simp [written])
          rw [hword v (by simp [hvs])] at hv
          exact absurd hv.1 Bool.noConfusion
  rcases List.append_eq_append_iff.mp hrest with ⟨gap, hvs, hback⟩ | ⟨gap, hvs, hback⟩
  · exact houter gap hvs hback
  · cases gap with
    | nil => exact houter [] (by simpa using hvs.symm) (by simpa using hback.symm)
    | cons g gap =>
      obtain ⟨rfl, -⟩ := List.cons.inj hback
      exact .inl (hinner gap hvs)

theorem IsCall.not_mem_dollar {ident call : List Char} (hns : ∀ d ∈ ns, Text.isWord d = true)
    (h : IsCall ns ident call) : '$' ∉ call := by
  cases h with
  | @intro front back name front_blank back_blank =>
    have hname : '$' ∉ ns := Text.not_mem_of_forall hns (by decide)
    have hfront : '$' ∉ front := Text.not_mem_of_forall front_blank (by decide)
    have hback : '$' ∉ back := Text.not_mem_of_forall back_blank (by decide)
    have hident : '$' ∉ ident := Text.not_mem_of_forall (fun c => name.isWord) (by decide)
    simp [hname, hfront, hback, hident]

theorem inside_plain (hns : ∀ d ∈ ns, Text.isWord d = true) (hne : ns ≠ [])
    (h : IsCut ns (front ++ .plain ⟨.fragment, cs⟩ :: back))
    (hfree : ¬ Collides ns (front ++ .plain ⟨.fragment, cs⟩ :: back)) :
    Inside ns (numberedText front).reverse cs (numberedText back) := by
  obtain ⟨hinside, -⟩ := h.fragment hns hne
  have hahead := h.ahead hns hne
  intro us c vs heq
  have hwritten := hinside us c vs heq
  rw [← Bool.not_eq_true, endsFragment_eq_true_iff hns hne] at hwritten ⊢
  simp only [not_or] at hwritten
  obtain ⟨hmark, hillegal, hdash, hslash, hdollar, hcall⟩ := hwritten
  rintro (hc | hc | ⟨rfl, hd⟩ | ⟨rfl, hd⟩ | ⟨n, hn⟩ | ⟨n, hn⟩)
  · exact hmark hc
  · exact hillegal hc
  · exact hdash ⟨rfl, (hahead.append_head?_eq_some_iff (by decide) (by decide) vs).mp hd⟩
  · exact hslash ⟨rfl, (hahead.append_head?_eq_some_iff (by decide) (by decide) vs).mp hd⟩
  · obtain ⟨hfollows, tag, rest, htext, -, htag⟩ := dollarTagLength_eq_some_iff.mp hn
    obtain ⟨rfl, hrest⟩ := List.cons.inj htext
    subst heq
    rcases tag_written hns hne h htag hrest with ⟨rest', hrest'⟩ | ⟨rfl, chars, m, back, rfl⟩
    · refine hdollar ⟨_, dollarTagLength_eq_some_iff.mpr ⟨h.followsWord_written hfollows, tag,
        rest', ?_, rfl, htag⟩⟩
      rw [hrest']
    · exact hfree (.tag hfollows)
  · obtain ⟨hfresh, ident, call, rest, form, htext, -⟩ := placeholderLength_eq_some_iff.mp hn
    obtain ⟨rest', hrest'⟩ : call <+: c :: vs ++ writtenText back :=
      prefix_written (IsCall.not_mem_dollar hns form) ⟨rest, htext.symm⟩
    exact hcall ⟨_, placeholderLength_eq_some_iff.mpr
      ⟨h.fresh_written hfresh, ident, call, rest', form, hrest'.symm, rfl⟩⟩

theorem isEscapeString_cons (e : Char) (before : List Char) :
    isEscapeString (e :: before) = ((e == 'e' || e == 'E') && !followsWord before) := rfl

/-- Behind a call no string has backslash escapes, and no string has them behind its marker. -/
theorem IsCut.isEscapeString_behind_call (h : IsCut ns (front ++ .call chars n :: back)) :
    isEscapeString (writtenText (front ++ [.call chars n])).reverse = false ∧
      isEscapeString (numberedText (front ++ [.call chars n])).reverse = false := by
  constructor
  · obtain ⟨-, ident, hcall⟩ := h.call
    obtain ⟨cs, rfl⟩ := List.getLast?_eq_some_iff.mp hcall.getLast?_eq
    simp [written, isEscapeString_cons]
  · obtain ⟨d, before, hbefore, hd⟩ := exists_digit_behind_call front chars n
    have hletter : (d == 'e' || d == 'E') = false := by
      rw [Bool.or_eq_false_iff, beq_eq_false_iff_ne, beq_eq_false_iff_ne]
      constructor <;> rintro rfl <;> exact absurd hd (by decide)
    rw [hbefore, isEscapeString_cons, hletter, Bool.false_and]

/-- A lone letter E has backslash escapes switched on behind a call, but not behind its marker. -/
theorem IsCut.isEscapeString_behind_letter {e : Char} (letter : e = 'e' ∨ e = 'E')
    (h : IsCut ns (front ++ .call chars n :: back)) :
    isEscapeString (writtenText (front ++ [.call chars n, .plain ⟨.fragment, [e]⟩])).reverse =
        true ∧
      isEscapeString (numberedText (front ++ [.call chars n, .plain ⟨.fragment, [e]⟩])).reverse =
        false := by
  have hletter : (e == 'e' || e == 'E') = true := by simpa using letter
  constructor
  · obtain ⟨-, ident, hcall⟩ := h.call
    obtain ⟨cs, rfl⟩ := List.getLast?_eq_some_iff.mp hcall.getLast?_eq
    have hparen : followsWord (')' :: (cs.reverse ++ (writtenText front).reverse)) = false := rfl
    simp [written, isEscapeString_cons, hletter, hparen]
  · have hword : followsWord (numberedText (front ++ [.call chars n])).reverse = true :=
      followsWord_behind_call
    rw [← List.singleton_append (l := [_]), ← List.append_assoc, numberedText_append,
      List.reverse_append]
    simp only [numberedText_cons, numberedText_nil, numbered, List.append_nil,
      List.reverse_singleton, List.singleton_append, isEscapeString_cons, hword, Bool.not_true,
      Bool.and_false]

/-- Numbering keeps backslash escapes unless a lone letter E stands behind a call. -/
theorem IsCut.isEscapeString_or (hns : ∀ d ∈ ns, Text.isWord d = true) (hne : ns ≠ [])
    (h : IsCut ns (front ++ p :: back)) :
    isEscapeString (numberedText front).reverse = isEscapeString (writtenText front).reverse ∨
      ∃ front' chars n e, front = front' ++ [.call chars n, .plain ⟨.fragment, [e]⟩] ∧
        (e = 'e' ∨ e = 'E') := by
  rcases List.eq_nil_or_concat front with rfl | ⟨front, q, rfl⟩
  · exact .inl rfl
  rw [List.concat_eq_append, List.append_assoc, List.singleton_append] at h
  rw [List.concat_eq_append]
  cases q with
  | call chars n =>
    left
    obtain ⟨hwritten, hnumbered⟩ := h.isEscapeString_behind_call
    rw [hwritten, hnumbered]
  | plain l =>
    obtain ⟨kind, letters⟩ := l
    obtain ⟨d, ds, hchars, hlexeme⟩ := h.exists_lexeme
    obtain rfl : letters = d :: ds := hchars
    rcases List.eq_nil_or_concat ds with rfl | ⟨ds, x, rfl⟩
    · by_cases letter : d = 'e' ∨ d = 'E'
      · rcases h.behind with hhead | ⟨front, chars, n, rfl⟩
        · left
          simp [written, numbered, isEscapeString_cons, followsWord, hhead]
        · right
          refine ⟨front, chars, n, d, ?_, letter⟩
          have hword : Text.isWord d = true := by rcases letter with rfl | rfl <;> decide
          have hplain : kind ≠ .placeholder := h.plain ⟨kind, [d]⟩ (by simp)
          have hkind := congrArg Prod.fst hlexeme
          obtain rfl : kind = .fragment := by
            by_contra hne'
            rw [isWord_eq_false_of_kind hns hne (hkind.trans_ne hne') (hkind.trans_ne hplain)]
              at hword
            contradiction
          rw [List.append_assoc, List.singleton_append]
      · left
        have hletter : (d == 'e' || d == 'E') = false := by simpa using letter
        simp [written, numbered, isEscapeString_cons, hletter]
    · left
      rcases List.eq_nil_or_concat ds with rfl | ⟨ds, y, rfl⟩ <;>
        simp [written, numbered, isEscapeString_cons, followsWord]

/-- A token that is no fragment stays as it is. -/
theorem lexeme_plain (hns : ∀ d ∈ ns, Text.isWord d = true) (hne : ns ≠ []) {kind : TokenKind}
    {c : Char} (hkind : kind ≠ .fragment) (h : IsCut ns (front ++ .plain ⟨kind, c :: cs⟩ :: back))
    (hfree : ¬ Collides ns (front ++ .plain ⟨kind, c :: cs⟩ :: back)) :
    lexeme ns (numberedText front).reverse c (cs ++ numberedText back) = (kind, cs.length) := by
  obtain ⟨d, ds, hchars, hlexeme⟩ := h.exists_lexeme
  obtain ⟨rfl, rfl⟩ := List.cons.inj hchars
  have hplain : kind ≠ .placeholder := h.plain ⟨kind, c :: cs⟩ (by simp)
  have hahead := h.ahead hns hne
  have hdollar : c = '$' →
      followsWord (numberedText front).reverse = followsWord (writtenText front).reverse := by
    rintro rfl
    rcases h.behind with hhead | ⟨front, chars, n, rfl⟩
    · rw [followsWord, hhead, followsWord]
    · rw [List.append_assoc, List.singleton_append] at hfree
      exact absurd (.dollar hkind) hfree
  by_cases hquote : c = '\'' →
      isEscapeString (numberedText front).reverse = isEscapeString (writtenText front).reverse
  · exact lexeme_of_ahead hns hne hkind hplain hahead hdollar hquote hlexeme
  · obtain ⟨rfl, hescape⟩ := Classical.not_imp.mp hquote
    obtain ⟨front, chars, n, e, rfl, letter⟩ := (h.isEscapeString_or hns hne).resolve_left hescape
    rw [List.append_assoc] at h hfree
    obtain ⟨hwritten, hnumbered⟩ := IsCut.isEscapeString_behind_letter letter h
    have hsame := lexeme_of_ahead hns hne hkind hplain hahead (fun _ => rfl) (fun _ => rfl) hlexeme
    rw [lexeme_unescaped_iff hns hne hwritten hnumbered hsame, ← Bool.not_eq_true]
    exact fun hquotes => hfree (.escape letter hquotes)

end Fits

section Collisions

variable {chars cs : List Char} {n : Nat} {kind : TokenKind}

theorem not_fits_dollar (hns : ∀ d ∈ ns, Text.isWord d = true) (hne : ns ≠ [])
    {before after : List Char} (hbefore : followsWord before = true) (hkind : kind ≠ .fragment) :
    ¬ Fits ns before ⟨kind, '$' :: cs⟩ after := by
  rw [fits_of_ne hkind]
  intro hlexeme
  have hends := (endsFragment_iff hns hne).mpr ((congrArg Prod.fst hlexeme).trans_ne hkind)
  have htag : dollarTagLength before ('$' :: (cs ++ after)) = none := by
    rw [Option.eq_none_iff_forall_ne_some]
    intro m hm
    rw [(dollarTagLength_eq_some_iff.mp hm).1] at hbefore
    contradiction
  simp [endsFragment, htag] at hends

theorem not_fits_escape (hns : ∀ d ∈ ns, Text.isWord d = true) (hne : ns ≠ []) {e : Char}
    (letter : e = 'e' ∨ e = 'E') (quote : escapesQuote cs = true)
    (h : IsCut ns
      (front ++ .call chars n :: .plain ⟨.fragment, [e]⟩ :: .plain ⟨kind, '\'' :: cs⟩ :: back)) :
    ¬ Fits ns (numberedText (front ++ [.call chars n, .plain ⟨.fragment, [e]⟩])).reverse
      ⟨kind, '\'' :: cs⟩ (numberedText back) := by
  obtain ⟨hwritten, hnumbered⟩ := h.isEscapeString_behind_letter letter
  have hplain : kind ≠ .placeholder := h.plain ⟨kind, '\'' :: cs⟩ (by simp)
  have hcut : IsCut ns ((front ++ [.call chars n, .plain ⟨.fragment, [e]⟩]) ++
      .plain ⟨kind, '\'' :: cs⟩ :: back) := by
    simpa using h
  obtain ⟨d, ds, hchars, hlexeme⟩ := hcut.exists_lexeme
  obtain ⟨rfl, rfl⟩ := List.cons.inj hchars
  have hkind : kind ≠ .fragment := by
    rintro rfl
    have hends := (endsFragment_iff hns hne).not_left.mpr (congrArg Prod.fst hlexeme)
    simp [endsFragment] at hends
  rw [fits_of_ne hkind]
  intro hfits
  have hsame := lexeme_of_ahead hns hne hkind hplain (hcut.ahead hns hne) (fun _ => rfl)
    (fun _ => rfl) hlexeme
  rw [lexeme_unescaped_iff hns hne hwritten hnumbered hsame, quote] at hfits
  contradiction

theorem not_inside_tag {before after : List Char}
    (alone : followsWord (cs.reverse ++ before) = false) :
    ¬ Inside ns before (cs ++ ['$']) ('$' :: after) := by
  intro hinside
  have hends := hinside cs '$' [] rfl
  simp [endsFragment, dollarTagLength, alone] at hends

theorem not_inside_number {ident call before after : List Char}
    (hns : ∀ d ∈ ns, Text.isWord d = true) (hne : ns ≠ []) (form : IsCall ns ident call)
    (starts : call <+: Nat.toDigits 10 n ++ after) :
    ¬ Inside ns before ('$' :: Nat.toDigits 10 n) after := by
  intro hinside
  obtain ⟨d, ds, hn⟩ := List.exists_cons_of_ne_nil (Text.toDigits_ne_nil n)
  obtain ⟨rest, hrest⟩ := starts
  have hd : Text.isWord d = true :=
    Text.isWord_of_isDigit (Text.isDigit_of_mem_toDigits (n := n) (by simp [hn]))
  have hends := hinside ['$'] d ds (by simp [hn])
  have hcall : ∃ m,
      placeholderLength ns (['$'].reverse ++ before) (d :: (ds ++ after)) = some m := by
    refine ⟨_, placeholderLength_eq_some_iff.mpr ⟨?_, ident, call, rest, form, ?_, rfl⟩⟩
    · exact fresh_cons (by decide) before
    · rw [hrest, hn, List.cons_append]
  rw [(endsFragment_of_isWord hns hne hd).mpr hcall] at hends
  contradiction

end Collisions

/-- The pieces of a numbered statement are lexemes where they stand unless a marker collides with
its neighbours. -/
theorem fitTogether_iff (hns : ∀ d ∈ ns, Text.isWord d = true) (hne : ns ≠ []) (h : IsCut ns ps) :
    FitTogether ns [] (ps.map numbered) ↔ ¬ Collides ns ps := by
  rw [fitTogether_numbered_iff]
  constructor
  · intro hfits hcollides
    cases hcollides with
    | @dollar front back chars cs n kind quote =>
      have hfit := hfits (front ++ [.call chars n]) (.plain ⟨kind, '$' :: cs⟩) back (by simp)
      rw [numbered] at hfit
      exact not_fits_dollar hns hne followsWord_behind_call quote hfit
    | @escape front back chars cs n e kind letter quote =>
      have hfit := hfits (front ++ [.call chars n, .plain ⟨.fragment, [e]⟩])
        (.plain ⟨kind, '\'' :: cs⟩) back (by simp)
      rw [numbered] at hfit
      exact not_fits_escape hns hne letter quote h hfit
    | @tag front back chars cs n alone =>
      exact not_inside_tag alone
        (hfits front (.plain ⟨.fragment, cs ++ ['$']⟩) (.call chars n :: back) rfl)
    | @number front back chars ident call n form starts =>
      exact not_inside_number hns hne form starts (hfits front (.call chars n) back rfl)
  · rintro hfree front p back rfl
    cases p with
    | plain l =>
      obtain ⟨kind, chars⟩ := l
      obtain ⟨c, cs, hchars, -⟩ := h.exists_lexeme
      obtain rfl : chars = c :: cs := hchars
      by_cases hkind : kind = .fragment
      · subst hkind
        exact inside_plain hns hne h hfree
      · rw [numbered, fits_of_ne hkind]
        exact lexeme_plain hns hne hkind h hfree
    | call chars n =>
      apply inside_marker hns hne
      exact fun ident call form starts => hfree (.number form starts)

end Piece

section Statements

variable {ns : String}

/-- A token that is a call names a parameter. -/
theorem exists_placeholderName (hns : Settings.IsNamespace ns) {src : String} {t : Token}
    (ht : t ∈ tokenize src ns) (hk : t.kind = .placeholder) :
    ∃ name, t.placeholderName = some name := by
  obtain ⟨us, vs, hsplit⟩ := List.append_of_mem ht
  obtain ⟨ident, hcall⟩ := Scanner.callAt_of_placeholder hsplit hk
  generalize t.pos.offset = i at hcall
  cases hcall with
  | intro _ _ form => exact ⟨_, form.placeholderName_eq (fun c => hns.isWord) hk⟩

theorem Piece.plain_ofTokens {names : List String} {ts : List Token}
    (h : ∀ t ∈ ts, t.kind = .placeholder → ∃ name, t.placeholderName = some name) :
    ∀ l, Piece.plain l ∈ Piece.ofTokens names ts → l.kind ≠ .placeholder := by
  induction ts generalizing names with
  | nil =>
    rintro l ⟨⟩
  | cons t ts ih =>
    rw [List.forall_mem_cons] at h
    intro l hl hk
    rw [Piece.ofTokens] at hl
    cases hname : t.placeholderName with
    | some name =>
      rw [hname] at hl
      rcases List.mem_cons.mp hl with hl | hl
      · contradiction
      · exact ih h.2 l hl hk
    | none =>
      rw [hname] at hl
      rcases List.mem_cons.mp hl with hl | hl
      · obtain rfl := Piece.plain.inj hl
        obtain ⟨name, hsome⟩ := h.1 hk
        rw [hname] at hsome
        contradiction
      · exact ih h.2 l hl hk

/-- A statement is cut into its pieces. -/
theorem isCut_ofTokens (hns : Settings.IsNamespace ns) (src : String) :
    Piece.IsCut ns.toList (Piece.ofTokens [] (tokenize src ns)) where
  cuts := by
    rw [Piece.map_written_ofTokens]
    exact Scanner.cuts_tokens (Scanner.ofText src ns)
  plain := Piece.plain_ofTokens fun t ht hk => exists_placeholderName hns ht hk

theorem toList_sql_ofText (src ns : String) :
    (ofText src ns).sql.toList = Piece.numberedText (Piece.ofTokens [] (tokenize src ns)) :=
  (Piece.numberedText_ofTokens [] (tokenize src ns)).symm

/-- Numbering a statement without calls changes nothing. -/
theorem pieces_of_forall {ts : List Token} (names : List String)
    (h : ∀ t ∈ ts, t.kind ≠ .placeholder) : pieces names ts = (ts.map Token.literal, names) := by
  induction ts with
  | nil => rfl
  | cons t ts ih =>
    rw [List.forall_mem_cons] at h
    have hname : t.placeholderName = none := by
      rw [Option.eq_none_iff_forall_ne_some]
      exact fun name hname => h.1 (Piece.kind_of_placeholderName hname)
    rw [pieces, hname, ih h.2, List.map_cons]

/-- Where no marker collides with its neighbours, and only there, the numbered statement is scanned
into the tokens of the statement with markers in place of calls. Numbering it again changes
nothing then. -/
theorem tokenize_numbered_iff (hns : Settings.IsNamespace ns) (src : String) :
    let ps := Piece.ofTokens [] (tokenize src ns)
    let p := ofText src ns
    ps.map Piece.written = (tokenize src ns).map Token.lexeme ∧
      ((tokenize p.sql ns).map Token.lexeme = Lexeme.merge (ps.map Piece.numbered) ↔
        ¬ Piece.Collides ns.toList ps) ∧
      (¬ Piece.Collides ns.toList ps → ofText p.sql ns = ⟨p.sql, []⟩) := by
  intro ps p
  have hword : ∀ c ∈ ns.toList, Text.isWord c = true := fun c => hns.isWord
  have hcut : Piece.IsCut ns.toList ps := isCut_ofTokens hns src
  have hcuts : Scan.Cuts ns.toList [] (Lexeme.merge (ps.map Piece.numbered)) [] ↔
      ¬ Piece.Collides ns.toList ps :=
    (Scan.cuts_merge_iff hword hns.1 hcut.numbered_ne_nil).trans
      (Piece.fitTogether_iff hword hns.1 hcut)
  have htokens (hfree : ¬ Piece.Collides ns.toList ps) :
      (tokenize p.sql ns).map Token.lexeme = Lexeme.merge (ps.map Piece.numbered) := by
    have hplace := Scanner.tokens_eq_place (s := Scanner.ofText p.sql ns) (hcuts.mpr hfree) <| by
      rw [Lexeme.text_merge]
      exact toList_sql_ofText src ns
    rw [tokenize, hplace, Lexeme.map_lexeme_place]
  refine ⟨Piece.map_written_ofTokens _ _, ⟨fun h => ?_, htokens⟩, fun hfree => ?_⟩
  · rw [← hcuts, ← h]
    exact Scanner.cuts_tokens (Scanner.ofText p.sql ns)
  · have hkinds : ∀ t ∈ tokenize p.sql ns, t.kind ≠ .placeholder := by
      intro t ht
      have hmem : t.lexeme ∈ Lexeme.merge (ps.map Piece.numbered) :=
        htokens hfree ▸ List.mem_map_of_mem ht
      obtain ⟨l, hl, hkind⟩ := Lexeme.exists_kind_of_mem_merge hmem
      rw [← Token.kind_lexeme, ← hkind]
      exact hcut.kind_numbered_ne l hl
    have hjoin : String.join ((tokenize p.sql ns).map Token.literal) = p.sql := by
      rw [← String.toList_inj, String.toList_join, List.flatMap_map]
      exact Scanner.flatMap_chars_tokens (Scanner.ofText p.sql ns)
    rw [ofText, ofTokens, pieces_of_forall [] hkinds]
    simp only [hjoin]

/-- A repeated name, a call in a string and a marker that was written out. -/
theorem tokenize_numbered_insert :
    let src := "INSERT INTO t VALUES (q.arg('a'), 'q.arg(''b'')', q.arg('a')::int) -- $1;"
    Settings.IsNamespace "q" ∧
      ¬ Piece.Collides "q".toList (Piece.ofTokens [] (tokenize src "q")) ∧
      ofText (ofText src "q").sql "q" = ⟨(ofText src "q").sql, []⟩ := by
  intro src
  have hns : Settings.IsNamespace "q" := by decide
  obtain ⟨-, hsame, hagain⟩ := tokenize_numbered_iff hns src
  have hfree := hsame.mp (by decide +kernel)
  exact ⟨hns, hfree, hagain hfree⟩

/-- The dollar quote hides a call that the marker in front of it brings out. -/
theorem exists_tokenize_numbered_ne : ∃ src ns, Settings.IsNamespace ns ∧
    (tokenize (ofText src ns).sql ns).map Token.lexeme ≠
      Lexeme.merge ((Piece.ofTokens [] (tokenize src ns)).map Piece.numbered) ∧
    ofText (ofText src ns).sql ns ≠ ⟨(ofText src ns).sql, []⟩ :=
  ⟨"querygen.arg('x')$$ querygen.arg('y') $$", "querygen", by decide, by decide +kernel,
    by decide +kernel⟩

end Statements

end Prepared

end TypedSql
