import TypedSql.Plan.Expression
import TypedSql.Proofs.Token.Delimited
import TypedSql.Proofs.Token.Merge

/-!
# Names with dollar signs

The bare name of a column may hold dollar signs behind its first character. A dollar sign behind a
letter, a digit or an underscore belongs to the name. One behind another dollar sign does not: it
opens a dollar quote if a tag and a third dollar sign follow (`Scan.HoldsTag`). A name is read in
one piece, and leaves a semicolon behind it alone, exactly if this happens nowhere in it
(`Scanner.tokenize_bare_iff`).
-/

namespace TypedSql

namespace Expression

/-- A name of a column that is written without quotes. -/
def IsBare (name : List Char) : Prop :=
  ∃ c cs, name = c :: cs ∧ Text.isIdentStart c = true ∧ ∀ d ∈ cs, isIdentChar d = true

variable {name : List Char} {c : Char}

theorem isIdentChar_of_isWord (h : Text.isWord c = true) : isIdentChar c = true := by
  rw [isIdentChar, h, Bool.true_or]

theorem IsBare.isIdentChar (h : IsBare name) : ∀ d ∈ name, isIdentChar d = true := by
  obtain ⟨c, cs, rfl, hc, hcs⟩ := h
  rw [List.forall_mem_cons]
  exact ⟨isIdentChar_of_isWord (Text.isWord_of_isIdentStart hc), hcs⟩

theorem IsBare.head?_ne (h : IsBare name) : name.head? ≠ some '$' := by
  obtain ⟨c, cs, rfl, hc, -⟩ := h
  intro hdollar
  obtain rfl := Option.some.inj hdollar
  exact absurd hc (by decide)

/-- A character of a name that is no part of a word is a dollar sign. -/
theorem eq_dollar_of_isWord (h : isIdentChar c = true) (hword : Text.isWord c = false) :
    c = '$' := by
  rw [isIdentChar, hword, Bool.false_or] at h
  exact beq_iff_eq.mp h

end Expression

namespace Scan

open Expression

/-- A dollar sign stands behind another one, and a tag and a third one behind that. -/
def HoldsTag (name : List Char) : Prop :=
  ∃ front tag back, name = front ++ '$' :: ('$' :: (tag ++ '$' :: back)) ∧
    (tag = [] ∨ Text.IsIdent tag)

variable {ns before xs after tag name : List Char} {c : Char}

/-- A name without two dollar signs side by side holds no tag. -/
theorem HoldsTag.infix (h : HoldsTag name) : ['$', '$'] <:+: name := by
  obtain ⟨front, tag, back, rfl, -⟩ := h
  exact ⟨front, tag ++ '$' :: back, by simp⟩

/-- What can stand behind a name: neither more of it nor the dot of a call. -/
def EndsName (after : List Char) : Prop :=
  ∀ c ∈ after.head?, isIdentChar c = false ∧ c ≠ '.'

/-- No call starts in a name. -/
theorem not_callStarts (hns : ∀ d ∈ ns, Text.isWord d = true)
    (hxs : ∀ d ∈ xs, isIdentChar d = true) (hafter : EndsName after) :
    ¬ CallStarts ns before (xs ++ after) := by
  rintro ⟨-, ident, call, hcall, rest, heq⟩
  obtain ⟨tail, rfl, -⟩ := hcall.exists_dot
  rw [List.append_assoc] at heq
  obtain ⟨-, hrest⟩ := Runs.append_inj (fun d hd => isIdentChar_of_isWord (hns d hd))
    (by rintro d ⟨⟩; decide) hxs (fun d hd => (hafter d hd).1) heq
  exact (hafter '.' (by rw [← hrest]; rfl)).2 rfl

/-- A tag lies inside of the name in which it starts. -/
theorem tagStarts_append_iff (hxs : ∀ d ∈ xs, isIdentChar d = true) (hafter : EndsName after) :
    TagStarts before (xs ++ after) tag ↔ TagStarts before xs tag := by
  refine and_congr_right fun _ => and_congr_right fun htag => ?_
  refine Runs.prefix_append_iff hxs (fun d hd => (hafter d hd).1) ?_
  have hword : ∀ d ∈ tag, isIdentChar d = true := by
    rcases htag with rfl | htag
    · simp
    · exact fun d hd => isIdentChar_of_isWord (htag.isWord hd)
  have hdollar : isIdentChar '$' = true := by decide
  rw [List.forall_mem_cons, List.forall_mem_append, List.forall_mem_singleton]
  exact ⟨hdollar, hword, hdollar⟩

/-- In a name a fragment ends only in front of a tag. -/
theorem endsFragment_name (hns : ∀ d ∈ ns, Text.isWord d = true) (hne : ns ≠ [])
    (hxs : ∀ d ∈ c :: xs, isIdentChar d = true) (hafter : EndsName after) :
    endsFragment ns before c (xs ++ after) = true ↔ ∃ tag, TagStarts before (c :: xs) tag := by
  have hc := hxs c List.mem_cons_self
  have hmark (d : Char) (hd : isIdentChar d = false) : c ≠ d := by
    rintro rfl
    rw [hc] at hd
    contradiction
  have hillegal : isIllegal c = false := by
    cases hword : Text.isWord c with
    | true => exact isIllegal_of_isWord hword
    | false =>
      rw [eq_dollar_of_isWord hc hword]
      decide
  have htag (tag : List Char) : TagStarts before (c :: (xs ++ after)) tag ↔
      TagStarts before (c :: xs) tag := tagStarts_append_iff hxs hafter
  have hcall : ¬ CallStarts ns before (c :: (xs ++ after)) := not_callStarts hns hxs hafter
  rw [endsFragment_eq_true_iff hns hne, exists_dollarTagLength_iff, exists_placeholderLength_iff]
  simp [hmark ';' (by decide), hmark '\'' (by decide), hmark '"' (by decide),
    hmark '-' (by decide), hmark '/' (by decide), hillegal, htag, hcall]

/-- A tag starts somewhere in a name exactly if the name holds one behind a dollar sign. -/
theorem exists_tagStarts_iff (hname : IsBare name) :
    (∃ front c rest tag, name = front ++ c :: rest ∧ TagStarts front.reverse (c :: rest) tag) ↔
      HoldsTag name := by
  constructor
  · rintro ⟨front, c, rest, tag, rfl, hbefore, htag, back, hback⟩
    have hrest : c :: rest = '$' :: (tag ++ '$' :: back) := by
      rw [← hback]
      simp
    rw [hrest] at hname ⊢
    rcases List.eq_nil_or_concat front with rfl | ⟨front, d, rfl⟩
    · exact absurd rfl hname.head?_ne
    · rw [List.concat_eq_append, List.reverse_append] at hbefore
      have hd : d = '$' := eq_dollar_of_isWord (hname.isIdentChar d (by simp)) hbefore
      exact ⟨front, tag, back, by simp [hd], htag⟩
  · rintro ⟨front, tag, back, rfl, htag⟩
    refine ⟨front ++ ['$'], '$', tag ++ '$' :: back, tag, by simp, ?_, htag, back, by simp⟩
    rw [List.reverse_append]
    rfl

/-- A name lies inside of a fragment exactly if it holds no tag. -/
theorem inside_name_iff (hns : ∀ d ∈ ns, Text.isWord d = true) (hne : ns ≠ [])
    (hname : IsBare name) (hafter : EndsName after) :
    Inside ns [] name after ↔ ¬ HoldsTag name := by
  have hends {front rest : List Char} {c : Char} (heq : name = front ++ c :: rest) :
      endsFragment ns (front.reverse ++ []) c (rest ++ after) = true ↔
        ∃ tag, TagStarts front.reverse (c :: rest) tag := by
    rw [List.append_nil]
    refine endsFragment_name hns hne (fun d hd => ?_) hafter
    exact hname.isIdentChar d (heq ▸ List.mem_append_right _ hd)
  rw [← exists_tagStarts_iff hname]
  constructor
  · rintro hinside ⟨front, c, rest, tag, heq, htag⟩
    have hfalse := hinside front c rest heq
    rw [(hends heq).mpr ⟨tag, htag⟩] at hfalse
    contradiction
  · intro hnone front c rest heq
    by_contra htrue
    obtain ⟨tag, htag⟩ := (hends heq).mp (by simpa using htrue)
    exact hnone ⟨front, c, rest, tag, heq, htag⟩

end Scan

namespace Scanner

variable {src ns : String} {ls : List Lexeme}

theorem cuts_tokenize (src ns : String) :
    Scan.Cuts ns.toList [] ((tokenize src ns).map Token.lexeme) [] :=
  cuts_tokens (ofText src ns)

theorem tokenize_eq_place_iff (hsrc : src.toList = Lexeme.text ls) :
    tokenize src ns = Lexeme.place .start ls ↔ Scan.Cuts ns.toList [] ls [] := by
  constructor
  · intro h
    have hcuts := cuts_tokenize src ns
    rwa [h, Lexeme.map_lexeme_place] at hcuts
  · intro h
    exact tokens_eq_place (s := ofText src ns) h hsrc

/-- What stands behind a semicolon is cut into lexemes of its own. -/
theorem exists_cuts_semicolon (hns : Settings.IsNamespace ns) (before rest : List Char) :
    ∃ ls, Lexeme.text ls = rest ∧
      Scan.Cuts ns.toList before (⟨.semicolon, [';']⟩ :: ls) [] := by
  let s : Scanner := ⟨ns.toList, .start, ';' :: before, rest⟩
  refine ⟨s.tokens.map Token.lexeme, ?_, .cons ?_ (cuts_tokens s)⟩
  · rw [Lexeme.text_map_lexeme, flatMap_chars_tokens]
  · have hplace (cs : List Char) : Scan.placeholderLength ns.toList before (';' :: cs) = none :=
      Scan.placeholderLength_of_not_isWord (fun _ => hns.isWord) hns.1 (by decide)
    simp [Scan.lexeme, Scan.dollarTagLength_of_ne, hplace]

/-- The name of a column is read as one fragment exactly if it holds no tag behind a dollar sign.
The same decides whether a semicolon behind the name is read as a semicolon. -/
theorem tokenize_bare_iff (hns : Settings.IsNamespace ns) {name : String}
    (hname : Expression.IsBare name.toList) :
    (tokenize name ns = [⟨.fragment, name, .start⟩] ↔ ¬ Scan.HoldsTag name.toList) ∧
    ∀ rest : String, (∃ ts, tokenize (name ++ ";" ++ rest) ns =
      ⟨.fragment, name, .start⟩ :: ⟨.semicolon, ";", Position.start.advance name.toList⟩ :: ts) ↔
        ¬ Scan.HoldsTag name.toList := by
  have hword : ∀ d ∈ ns.toList, Text.isWord d = true := fun _ => hns.isWord
  have hne : name.toList ≠ [] := by
    obtain ⟨c, cs, hcons, -⟩ := hname
    rw [hcons]
    exact List.cons_ne_nil _ _
  have hends : Scan.EndsName [] := by
    rintro c ⟨⟩
  have hsemicolon (rest : List Char) : Scan.EndsName (';' :: rest) := by
    rintro c ⟨⟩
    decide
  refine ⟨?_, fun rest => ⟨?_, ?_⟩⟩
  · have hplace : [⟨.fragment, name, .start⟩] =
        Lexeme.place .start [⟨.fragment, name.toList⟩] := by
      simp [Lexeme.place]
    rw [hplace, tokenize_eq_place_iff (by simp), Scan.cuts_fragment_iff hword hns.1,
      ← Scan.inside_name_iff hword hns.1 hname hends]
    exact ⟨fun h => h.2.1, fun h => ⟨hne, h, rfl, .nil⟩⟩
  · rintro ⟨ts, h⟩
    have hcuts := cuts_tokenize (name ++ ";" ++ rest) ns
    rw [h] at hcuts
    have hinside : Scan.Inside ns.toList [] name.toList
        (';' :: Lexeme.text (ts.map Token.lexeme)) := by
      simpa [Token.lexeme, Token.chars] using ((Scan.cuts_fragment_iff hword hns.1).mp hcuts).2.1
    exact (Scan.inside_name_iff hword hns.1 hname (hsemicolon _)).mp hinside
  · intro hnone
    obtain ⟨ls, hls, hcuts⟩ := exists_cuts_semicolon hns name.toList.reverse rest.toList
    have hinside := (Scan.inside_name_iff hword hns.1 hname (hsemicolon (Lexeme.text ls))).mpr hnone
    have hall : Scan.Cuts ns.toList []
        (⟨.fragment, name.toList⟩ :: ⟨.semicolon, [';']⟩ :: ls) [] := by
      rw [Scan.cuts_fragment_iff hword hns.1, List.append_nil]
      exact ⟨hne, hinside, rfl, hcuts⟩
    refine ⟨Lexeme.place ((Position.start.advance name.toList).advance [';']) ls, ?_⟩
    rw [(tokenize_eq_place_iff (by simp [hls])).mpr hall]
    simp [Lexeme.place]

/-- The name is read in one piece, for its tag does not stand behind a dollar sign. -/
theorem tokenize_bare_iff_apart :
    Settings.IsNamespace "querygen" ∧ Expression.IsBare "a$1$b$".toList ∧
      tokenize "a$1$b$" "querygen" = [⟨.fragment, "a$1$b$", .start⟩] := by
  have hns : Settings.IsNamespace "querygen" := by decide
  have hname : Expression.IsBare "a$1$b$".toList :=
    ⟨'a', "$1$b$".toList, rfl, rfl, List.all_eq_true.mp rfl⟩
  refine ⟨hns, hname, (tokenize_bare_iff hns hname).1.mpr ?_⟩
  intro htag
  exact absurd htag.infix (by decide)

/-- Not all names of columns are read in one piece: behind two dollar signs side by side a quote
can open. -/
theorem exists_bare_torn :
    ¬ ∀ ns, Settings.IsNamespace ns → ∀ name : String, Expression.IsBare name.toList →
      tokenize name ns = [⟨.fragment, name, .start⟩] := by
  intro h
  have hname : Expression.IsBare "a$$b$".toList :=
    ⟨'a', "$$b$".toList, rfl, rfl, List.all_eq_true.mp rfl⟩
  have hwhole := h "querygen" (by decide) "a$$b$" hname
  have htorn : tokenize "a$$b$" "querygen" = [⟨.fragment, "a$", .start⟩,
      ⟨.illegal .unterminatedString, "$b$", ⟨2, 1, 3⟩⟩] := by decide +kernel
  rw [htorn] at hwhole
  exact absurd (congrArg List.length hwhole) (by decide)

/-- The quote takes the semicolon in. -/
example : (tokenize "a$$b$;" "querygen").map (·.literal) = ["a$", "$b$;"] := by
  decide +kernel

end Scanner

end TypedSql
