import TypedSql.Proofs.Settings.Namespace
import TypedSql.Proofs.Token.Cover

/-!
# How tokens start

Dollar tags and placeholder calls are recognized by a few marks and by identifiers. A change of the
text that keeps these keeps the tags and the calls (`Scan.KeepsMarks`).

With the two characters behind a dash and a slash, this is all that decides how a token starts. Two
tokens that start alike are compared by one rule, which has a case for each of the ways in which a
token can start (`Scan.StartsAlike.lexeme_rel`).
-/

namespace TypedSql

namespace Scan

variable {ns ns' before before' cs xs : List Char} {n : Nat}

theorem exists_ident (h : identLength xs = some n) :
    ∃ ident rest, xs = ident ++ rest ∧ ident.length = n ∧ Text.IsIdent ident := by
  cases xs with
  | nil => contradiction
  | cons c xs =>
    rw [identLength] at h
    split at h
    · rename_i hc
      obtain rfl := Option.some.inj h
      refine ⟨c :: xs.takeWhile Text.isWord, xs.dropWhile Text.isWord, ?_, ?_,
        c, _, rfl, hc, fun _ => List.mem_takeWhile_imp⟩
      · rw [List.cons_append, List.takeWhile_append_dropWhile]
      · rw [List.length_cons, Nat.add_comm]
    · contradiction

theorem identLength_le (h : identLength xs = some n) : n ≤ xs.length := by
  obtain ⟨ident, rest, rfl, rfl, -⟩ := exists_ident h
  rw [List.length_append]
  exact Nat.le_add_right _ _

theorem dollarTagLength_cons (hx : xs.head? ≠ some '$') :
    dollarTagLength before ('$' :: xs) =
      if followsWord before then none
      else (identLength xs).bind fun n =>
        if (xs.drop n).head? = some '$' then some (n + 2) else none := by
  unfold dollarTagLength
  split
  · rename_i h
    rw [(List.cons.inj h).2] at hx
    exact absurd rfl hx
  · rename_i h
    rw [(List.cons.inj h).2]
    split <;> rfl
  · rename_i h
    exact absurd rfl (h xs)

theorem dollarTagLength_of_head_ne (h : xs.head? ≠ some '$') :
    dollarTagLength before xs = none := by
  cases xs with
  | nil => rfl
  | cons c xs =>
    apply dollarTagLength_of_ne
    rintro rfl
    exact h rfl

/-- Between the two dollar signs of a dollar tag are word characters. -/
theorem exists_dollarTag (h : dollarTagLength before xs = some n) :
    ∃ ident rest, xs = '$' :: (ident ++ '$' :: rest) ∧ ident.length + 2 = n ∧
      ∀ c ∈ ident, Text.isWord c = true := by
  by_cases hfirst : xs.head? = some '$'
  · obtain ⟨ys, rfl⟩ := List.head?_eq_some_iff.mp hfirst
    by_cases hsecond : ys.head? = some '$'
    · obtain ⟨zs, rfl⟩ := List.head?_eq_some_iff.mp hsecond
      simp only [dollarTagLength] at h
      split at h
      · contradiction
      · exact ⟨[], zs, rfl, Option.some.inj h, List.forall_mem_nil _⟩
    · rw [dollarTagLength_cons hsecond] at h
      split at h
      · contradiction
      · obtain ⟨m, hm, hend⟩ := Option.bind_eq_some_iff.mp h
        split at hend
        · rename_i hdrop
          obtain ⟨ident, behind, rfl, rfl, hident⟩ := exists_ident hm
          rw [List.drop_left] at hdrop
          obtain ⟨rest, rfl⟩ := List.head?_eq_some_iff.mp hdrop
          exact ⟨ident, rest, rfl, Option.some.inj hend, fun _ => hident.isWord⟩
        · contradiction
  · rw [dollarTagLength_of_head_ne hfirst] at h
    contradiction

theorem dollarTagLength_le (h : dollarTagLength before xs = some n) : n ≤ xs.length := by
  obtain ⟨ident, rest, rfl, rfl, -⟩ := exists_dollarTag h
  simp only [List.length_cons, List.length_append]
  omega

theorem suffix_of_afterStart {start cs rest : List Char}
    (h : Text.afterStart start cs = some rest) : rest <:+ cs :=
  ⟨start, (Text.eq_append_of_afterStart h).symm⟩

/-- What is behind the closing parenthesis of a call, after all that was read in front of it. -/
theorem suffix_of_call {afterName afterOpen afterQuote afterIdent afterCall : List Char}
    (hname : Text.afterStart ns cs = some afterName)
    (hopen : Text.afterStart ['.', 'a', 'r', 'g', '('] afterName = some afterOpen)
    (hquote : Text.afterStart ['\''] (afterOpen.dropWhile Text.isAsciiBlank) = some afterQuote)
    (hident : Text.afterStart ['\''] (afterQuote.drop n) = some afterIdent)
    (hcall : Text.afterStart [')'] (afterIdent.dropWhile Text.isAsciiBlank) = some afterCall) :
    ')' :: afterCall <:+ cs := by
  have hend : ')' :: afterCall <:+ afterIdent := by
    have hclose : afterIdent.dropWhile Text.isAsciiBlank = [')'] ++ afterCall :=
      Text.eq_append_of_afterStart hcall
    rw [← List.singleton_append, ← hclose]
    exact List.dropWhile_suffix _
  have hidentEnd : afterIdent <:+ afterQuote :=
    (suffix_of_afterStart hident).trans (List.drop_suffix _ _)
  have hquoteEnd : afterQuote <:+ afterOpen :=
    (suffix_of_afterStart hquote).trans (List.dropWhile_suffix _)
  have hopenEnd : afterOpen <:+ cs :=
    (suffix_of_afterStart hopen).trans (suffix_of_afterStart hname)
  exact ((hend.trans hidentEnd).trans hquoteEnd).trans hopenEnd

theorem placeholderLength_pos (h : placeholderLength ns before cs = some n) : 0 < n := by
  simp only [placeholderLength, Option.bind_eq_bind, Option.bind_eq_some_iff] at h
  obtain ⟨_, hname, h⟩ := h
  split at h
  · simp at h
  · simp only [Option.bind_eq_some_iff, Option.some.injEq] at h
    obtain ⟨_, hopen, _, hquote, _, -, _, hident, _, hcall, rfl⟩ := h
    have hle := (suffix_of_call hname hopen hquote hident hcall).length_le
    rw [List.length_cons] at hle
    omega

/-- A change of texts after which dollar signs, identifiers and the marks of calls are found as
before. -/
structure KeepsMarks (g : List Char → List Char) : Prop where
  dollar : ∀ xs, g ('$' :: xs) = '$' :: g xs
  head : ∀ xs, (g xs).head? = some '$' ↔ xs.head? = some '$'
  ident : ∀ xs, identLength (g xs) = identLength xs
  drop : ∀ {xs n}, identLength xs = some n → (g xs).drop n = g (xs.drop n)
  opening : ∀ xs, Text.afterStart ['.', 'a', 'r', 'g', '('] (g xs) =
    (Text.afterStart ['.', 'a', 'r', 'g', '('] xs).map g
  quote : ∀ xs, Text.afterStart ['\''] (g xs) = (Text.afterStart ['\''] xs).map g
  closing : ∀ xs, Text.afterStart [')'] (g xs) = (Text.afterStart [')'] xs).map g
  blanks : ∀ xs, (g xs).dropWhile Text.isAsciiBlank = g (xs.dropWhile Text.isAsciiBlank)

/-- A dollar tag in a changed text is the tag that was there before. -/
theorem KeepsMarks.dollarTagLength_eq {g : List Char → List Char} (hg : KeepsMarks g)
    (hbefore : followsWord before' = followsWord before) (xs : List Char) :
    dollarTagLength before' (g xs) = dollarTagLength before xs := by
  by_cases hfirst : xs.head? = some '$'
  · obtain ⟨ys, rfl⟩ := List.head?_eq_some_iff.mp hfirst
    rw [hg.dollar]
    by_cases hsecond : ys.head? = some '$'
    · obtain ⟨zs, rfl⟩ := List.head?_eq_some_iff.mp hsecond
      rw [hg.dollar]
      simp only [dollarTagLength, hbefore]
    · rw [dollarTagLength_cons hsecond, dollarTagLength_cons (mt (hg.head ys).mp hsecond), hbefore,
        hg.ident]
      congr 1
      apply Option.bind_congr
      intro n hn
      simp only [hg.drop hn, hg.head]
  · rw [dollarTagLength_of_head_ne hfirst, dollarTagLength_of_head_ne (mt (hg.head xs).mp hfirst)]

/-- A call in a changed text is the call that was there before, with a length of its own. -/
theorem KeepsMarks.placeholderLength_eq {g : List Char → List Char} (hg : KeepsMarks g)
    {f : Nat → Nat} (hname : ∀ xs, Text.afterStart ns' (g xs) = (Text.afterStart ns xs).map g)
    (hbefore : (before'.head?.any fun c => Text.isWord c || c == '.') =
      before.head?.any fun c => Text.isWord c || c == '.')
    (hlength : ∀ rest, rest <:+ cs →
      (g cs).length - (g rest).length = f (cs.length - rest.length)) :
    placeholderLength ns' before' (g cs) = (placeholderLength ns before cs).map f := by
  simp only [placeholderLength, Option.bind_eq_bind, hbefore]
  rw [hname, Option.bind_map, Option.map_bind]
  apply Option.bind_congr
  intro afterName hname
  simp only [Function.comp_apply]
  split
  · rfl
  · rw [hg.opening, Option.bind_map, Option.map_bind]
    apply Option.bind_congr
    intro afterOpen hopen
    rw [Function.comp_apply, hg.blanks, hg.quote, Option.bind_map, Function.comp_apply,
      Option.map_bind]
    apply Option.bind_congr
    intro afterQuote hquote
    rw [Function.comp_apply, hg.ident, Function.comp_apply, Option.map_bind]
    apply Option.bind_congr
    intro n hn
    rw [hg.drop hn, hg.quote, Option.bind_map, Function.comp_apply, Option.map_bind]
    apply Option.bind_congr
    intro afterIdent hident
    rw [Function.comp_apply, hg.blanks, hg.closing, Option.bind_map, Function.comp_apply,
      Option.map_bind]
    apply Option.bind_congr
    intro afterCall hcall
    have hsuffix := suffix_of_call hname hopen hquote hident hcall
    rw [Function.comp_apply, Function.comp_apply, Option.map_some,
      hlength afterCall ((List.suffix_cons _ _).trans hsuffix)]

/-- At two places a token that starts with `c` is recognized in the same way. The length of a call
may change, by `f`. -/
structure StartsAlike (f : Nat → Nat) (c : Char) (ns before cs ns' before' cs' : List Char) :
    Prop where
  dollar : dollarTagLength before' (c :: cs') = dollarTagLength before (c :: cs)
  call : placeholderLength ns' before' (c :: cs') = (placeholderLength ns before (c :: cs)).map f
  dash : cs'.head? = some '-' ↔ cs.head? = some '-'
  star : cs'.head? = some '*' ↔ cs.head? = some '*'

namespace StartsAlike

variable {f : Nat → Nat} {c : Char} {cs' : List Char}

theorem endsFragment_eq (h : StartsAlike f c ns before cs ns' before' cs') :
    endsFragment ns' before' c cs' = endsFragment ns before c cs := by
  simp only [endsFragment, h.dollar, h.call, Option.isSome_map, h.dash, h.star]

/-- Two tokens that start like a third one start alike. -/
theorem of_common {cs'' : List Char} (h : StartsAlike id c ns before cs ns before cs')
    (h' : StartsAlike id c ns before cs ns before cs'') :
    StartsAlike id c ns before cs' ns before cs'' where
  dollar := h'.dollar.trans h.dollar.symm
  call := by rw [h'.call, h.call, Option.map_id_apply, Option.map_id_apply]
  dash := h'.dash.trans h.dash.symm
  star := h'.star.trans h.star.symm

/-- What is true of two tokens that start alike follows from the ways in which a token can start. -/
theorem lexeme_rel {R : TokenKind × Nat → TokenKind × Nat → Prop}
    (h : StartsAlike f c ns before cs ns' before' cs')
    (dollar : ∀ n, dollarTagLength before (c :: cs) = some n →
      R (dollarString c cs n) (dollarString c cs' n))
    (call : ∀ n, placeholderLength ns before (c :: cs) = some n →
      R (.placeholder, n - 1) (.placeholder, f n - 1))
    (single : ∀ kind, R (kind, 0) (kind, 0))
    (line : R (.lineComment, (cs.takeWhile (· != '\n')).length)
      (.lineComment, (cs'.takeWhile (· != '\n')).length))
    (block : cs.head? = some '*' →
      R (delimited .blockComment .unterminatedComment cs
          ((commentLength 0 (cs.drop 1)).map (1 + ·)))
        (delimited .blockComment .unterminatedComment cs'
          ((commentLength 0 (cs'.drop 1)).map (1 + ·))))
    (string : c = '\'' → R
      (delimited .stringLiteral .unterminatedString cs
        (quotedLength '\'' (isEscapeString before) cs))
      (delimited .stringLiteral .unterminatedString cs'
        (quotedLength '\'' (isEscapeString before') cs')))
    (identifier : R
      (delimited .quotedIdentifier .unterminatedIdentifier cs (quotedLength '"' false cs))
      (delimited .quotedIdentifier .unterminatedIdentifier cs' (quotedLength '"' false cs')))
    (fragment : R (.fragment, fragmentLength ns (c :: before) cs)
      (.fragment, fragmentLength ns' (c :: before') cs')) :
    R (lexeme ns before c cs) (lexeme ns' before' c cs') := by
  have hadd : (· + 1) = (1 + · : Nat → Nat) := funext fun j => Nat.add_comm j 1
  unfold lexeme
  rw [h.dollar, h.call]
  cases htag : dollarTagLength before (c :: cs) with
  | some n => exact dollar n htag
  | none =>
    cases hcall : placeholderLength ns before (c :: cs) with
    | some n => exact call n hcall
    | none =>
      simp only [Option.map_none, h.dash, h.star]
      by_cases hsemi : (c == ';') = true
      · rw [if_pos hsemi, if_pos hsemi]
        exact single _
      rw [if_neg hsemi, if_neg hsemi]
      by_cases hline : (c == '-' && cs.head? = some '-') = true
      · rw [if_pos hline, if_pos hline]
        exact line
      rw [if_neg hline, if_neg hline]
      by_cases hblock : (c == '/' && cs.head? = some '*') = true
      · rw [if_pos hblock, if_pos hblock, hadd]
        rw [Bool.and_eq_true, decide_eq_true_iff] at hblock
        exact block hblock.2
      rw [if_neg hblock, if_neg hblock]
      by_cases hquote : (c == '\'') = true
      · rw [if_pos hquote, if_pos hquote]
        exact string (beq_iff_eq.mp hquote)
      rw [if_neg hquote, if_neg hquote]
      by_cases hdouble : (c == '"') = true
      · rw [if_pos hdouble, if_pos hdouble]
        exact identifier
      rw [if_neg hdouble, if_neg hdouble]
      by_cases hillegal : isIllegal c = true
      · rw [if_pos hillegal, if_pos hillegal]
        exact single _
      rw [if_neg hillegal, if_neg hillegal]
      exact fragment

end StartsAlike

end Scan

end TypedSql
