import TypedSql.Proofs.Token.Call

/-!
# Tokens in front of another text

A token other than a fragment is read up to its own end, and a scanner looks one character further
at most. The text behind such a token may therefore be exchanged for one that starts in the same
way, or that starts with a dollar sign where a word was (`Scan.Ahead`). The text in front of it
matters to dollar quotes, which no word may touch, and to the backslashes in string literals
(`Scan.lexeme_of_ahead`).
-/

namespace TypedSql

namespace Scan

variable {ns before before' after after' cs xs ys : List Char} {c d : Char} {n : Nat}

/-- The text behind a token starts as another one does, or with a dollar sign where the other one
starts with a word. -/
def Ahead (after after' : List Char) : Prop :=
  after'.head? = after.head? ∨ after'.head? = some '$' ∧ ∃ c ∈ after.head?, Text.isWord c = true

namespace Ahead

theorem eq_nil (h : Ahead [] after') : after' = [] := by
  rcases h with h | ⟨-, c, hc, -⟩
  · exact List.head?_eq_none_iff.mp h
  · contradiction

theorem head?_eq_some_iff (h : Ahead after after') (hd : d ≠ '$') (hword : Text.isWord d = false) :
    after'.head? = some d ↔ after.head? = some d := by
  rcases h with h | ⟨h, c, hc, hcword⟩
  · rw [h]
  · rw [h, hc, Option.some_inj, Option.some_inj]
    refine iff_of_false (Ne.symm hd) ?_
    rintro rfl
    rw [hword] at hcword
    contradiction

theorem append_head?_eq_some_iff (h : Ahead after after') (hd : d ≠ '$')
    (hword : Text.isWord d = false) (cs : List Char) :
    (cs ++ after').head? = some d ↔ (cs ++ after).head? = some d := by
  cases cs with
  | nil => exact h.head?_eq_some_iff hd hword
  | cons c cs => exact Iff.rfl

end Ahead

section Dollar

/-- A dollar tag stands behind no word. Between its dollar signs is nothing or an identifier. -/
theorem dollarTagLength_eq_some_iff : dollarTagLength before xs = some n ↔
    followsWord before = false ∧ ∃ tag rest, xs = '$' :: (tag ++ '$' :: rest) ∧
      tag.length + 2 = n ∧ (tag = [] ∨ Text.IsIdent tag) := by
  have hdollar : Text.isWord '$' = false := by decide
  constructor
  · intro h
    obtain ⟨tag, rest, rfl, hn, htag⟩ := exists_dollarTag h
    have hfollows : followsWord before = false := by
      by_contra hword
      rw [Bool.not_eq_false] at hword
      cases tag with
      | nil => simp [dollarTagLength, hword] at h
      | cons c tag =>
        have hc : ('$' : Char) ≠ c := by
          rintro rfl
          exact absurd (htag _ List.mem_cons_self) (by decide)
        rw [dollarTagLength_cons (by simpa using hc.symm), if_pos hword] at h
        contradiction
    refine ⟨hfollows, tag, rest, rfl, hn, ?_⟩
    cases tag with
    | nil => exact .inl rfl
    | cons c tag =>
      right
      have hc : c ≠ '$' := by
        rintro rfl
        exact absurd (htag _ List.mem_cons_self) (by decide)
      rw [List.cons_append, dollarTagLength_cons (by simpa using hc), hfollows,
        if_neg Bool.false_ne_true] at h
      obtain ⟨m, hm, -⟩ := Option.bind_eq_some_iff.mp h
      rw [identLength] at hm
      split at hm
      · next hstart => exact ⟨c, tag, rfl, hstart, fun d hd => htag d (List.mem_cons_of_mem c hd)⟩
      · contradiction
  · rintro ⟨hfollows, tag, rest, rfl, rfl, rfl | htag⟩
    · simp [dollarTagLength, hfollows]
    · obtain ⟨c, cs, rfl, hc, hcs⟩ := htag
      have hne : c ≠ '$' := by
        rintro rfl
        exact absurd hc (by decide)
      have hident : identLength ((c :: cs) ++ '$' :: rest) = some (c :: cs).length := by
        apply identLength_append ⟨c, cs, rfl, hc, hcs⟩
        rintro d ⟨⟩
        exact hdollar
      rw [dollarTagLength_cons (by simpa using hne), hfollows, if_neg Bool.false_ne_true, hident,
        Option.bind_some, List.drop_left, List.head?_cons, if_pos rfl]

end Dollar

section Measures

variable {quote : Char} {escapes : Bool} {depth : Nat} {tag : List Char}

/-- Behind a closing quote no other one follows. -/
theorem head?_ne_of_quotedLength (h : quotedLength quote escapes (xs ++ ys) = some xs.length) :
    ys.head? ≠ some quote := by
  intro hy
  obtain ⟨zs, rfl⟩ := List.head?_eq_some_iff.mp hy
  fun_induction quotedLength quote escapes xs with
  | case1 => exact absurd (quotedLength_pos h) (Nat.lt_irrefl 0)
  | case2 c he =>
    rw [List.singleton_append, quotedLength, if_pos he] at h
    obtain ⟨m, -, hlength⟩ := Option.map_eq_some_iff.mp h
    rw [List.length_singleton] at hlength
    omega
  | case3 he =>
    rw [List.singleton_append, quotedLength, if_neg he, if_pos rfl, if_pos rfl] at h
    obtain ⟨m, -, hlength⟩ := Option.map_eq_some_iff.mp h
    rw [List.length_singleton] at hlength
    omega
  | case4 c he hc =>
    rw [List.singleton_append, quotedLength, if_neg he, if_neg hc] at h
    obtain ⟨m, hm, hlength⟩ := Option.map_eq_some_iff.mp h
    have hpos := quotedLength_pos hm
    rw [List.length_singleton] at hlength
    omega
  | case5 c d cs he ih =>
    rw [List.cons_append, List.cons_append, quotedLength, if_pos he] at h
    obtain ⟨m, hm, hlength⟩ := Option.map_eq_some_iff.mp h
    obtain rfl : m = cs.length := Nat.add_right_cancel hlength
    exact ih hm
  | case6 cs he ih =>
    rw [List.cons_append, List.cons_append, quotedLength, if_neg he, if_pos rfl, if_pos rfl] at h
    obtain ⟨m, hm, hlength⟩ := Option.map_eq_some_iff.mp h
    obtain rfl : m = cs.length := Nat.add_right_cancel hlength
    exact ih hm
  | case7 d cs hd he =>
    rw [List.cons_append, List.cons_append, quotedLength, if_neg he, if_pos rfl, if_neg hd] at h
    cases h
  | case8 c d cs he hc ih =>
    rw [List.cons_append, List.cons_append, quotedLength, if_neg he, if_neg hc] at h
    obtain ⟨m, hm, hlength⟩ := Option.map_eq_some_iff.mp h
    obtain rfl : m = (d :: cs).length := Nat.add_right_cancel hlength
    exact ih hm

theorem quotedLength_ahead (ha : Ahead after after') (hquote : quote ≠ '$')
    (hword : Text.isWord quote = false)
    (h : quotedLength quote escapes (cs ++ after) = some cs.length) :
    quotedLength quote escapes (cs ++ after') = some cs.length := by
  have hhead := head?_ne_of_quotedLength h
  apply quotedLength_append (quotedLength_of_append h (Nat.le_refl _))
  rwa [Ne, ha.head?_eq_some_iff hquote hword]

theorem commentLength_ahead (h : commentLength depth (cs ++ after) = some cs.length)
    (after' : List Char) : commentLength depth (cs ++ after') = some cs.length :=
  commentLength_append (commentLength_of_append h (Nat.le_refl _)) after'

theorem findTag_ahead (h : (findTag tag (cs ++ after)).map (· + tag.length) = some cs.length)
    (after' : List Char) : (findTag tag (cs ++ after')).map (· + tag.length) = some cs.length := by
  obtain ⟨k, hk, hlength⟩ := Option.map_eq_some_iff.mp h
  rw [findTag_append_iff hlength.le] at hk
  rw [(findTag_append_iff hlength.le).mpr hk, Option.map_some, hlength]

/-- A line comment ends in front of a line feed. -/
theorem takeWhile_ahead (ha : Ahead after after')
    (h : ((cs ++ after).takeWhile (· != '\n')).length = cs.length) :
    ((cs ++ after').takeWhile (· != '\n')).length = cs.length := by
  have hrun : (cs ++ after).takeWhile (· != '\n') = cs :=
    List.prefix_of_prefix_length_le (List.takeWhile_prefix _) (List.prefix_append _ _) h.le
      |>.eq_of_length h
  have hcs : ∀ d ∈ cs, (d != '\n') = true := by
    intro d hd
    rw [← hrun] at hd
    exact List.mem_takeWhile_imp (p := (· != '\n')) hd
  rw [List.takeWhile_append_of_pos hcs, List.append_right_eq_self] at hrun
  have hhead : ∀ d ∈ after.head?, d = '\n' := by
    intro d hd
    obtain ⟨ds, rfl⟩ := List.head?_eq_some_iff.mp hd
    by_contra hne
    rw [List.takeWhile_cons_of_pos (p := (· != '\n')) (bne_iff_ne.mpr hne)] at hrun
    contradiction
  rw [Runs.takeWhile_append hcs]
  intro d hd
  rcases ha with ha | ⟨-, e, he, hword⟩
  · rw [hhead d (ha ▸ hd)]
    rfl
  · rw [hhead e he] at hword
    contradiction

/-- A measure that starts behind the first `m` characters. -/
theorem measure_drop_ahead {f : List Char → Option Nat} {m : Nat}
    (hf : ∀ xs, f (xs ++ after) = some xs.length → f (xs ++ after') = some xs.length)
    (h : (f ((cs ++ after).drop m)).map (m + ·) = some cs.length) :
    (f ((cs ++ after').drop m)).map (m + ·) = some cs.length := by
  obtain ⟨j, hj, hlength⟩ := Option.map_eq_some_iff.mp h
  have hm : m ≤ cs.length := hlength ▸ Nat.le_add_right m j
  obtain rfl : j = (cs.drop m).length := by
    rw [List.length_drop, ← hlength, Nat.add_sub_cancel_left]
  rw [List.drop_append_of_le_length hm] at hj
  rw [List.drop_append_of_le_length hm, hf _ hj, Option.map_some, hlength]

/-- A delimited token keeps its end, or it has none and reaches up to the end of both texts. -/
theorem delimited_ahead {f : List Char → Option Nat} {kind k : TokenKind} {reason : IllegalReason}
    (hnil : after = [] → after' = [])
    (hf : f (cs ++ after) = some cs.length → f (cs ++ after') = some cs.length)
    (h : delimited kind reason (cs ++ after) (f (cs ++ after)) = (k, cs.length)) :
    delimited kind reason (cs ++ after') (f (cs ++ after')) = (k, cs.length) := by
  by_cases hafter : after = []
  · rwa [hnil hafter, ← hafter]
  cases hx : f (cs ++ after) with
  | none =>
    rw [hx] at h
    have hlength : (cs ++ after).length = cs.length := congrArg Prod.snd h
    rw [List.length_append, Nat.add_eq_left, List.length_eq_zero_iff] at hlength
    contradiction
  | some j =>
    rw [hx] at h
    obtain ⟨rfl, rfl⟩ := Prod.mk.inj h
    rw [hf hx]
    rfl

end Measures

theorem isIllegal_of_isWord (h : Text.isWord c = true) : isIllegal c = false := by
  have hdel : c = '\x7f' ↔ c.toNat = 127 := Char.toNat_inj.symm
  rw [Text.isWord_iff] at h
  have hlow : ¬ c.toNat < 0x20 := by omega
  have hne : c ≠ '\x7f' := by
    rw [Ne, hdel]
    omega
  simp [isIllegal, hlow, hne]

theorem isWord_of_mem_marks (h : c ∈ [';', '\'', '"', '-', '/', '$']) :
    Text.isWord c = false ∧ isIllegal c = false := by
  simp only [List.mem_cons, List.not_mem_nil, or_false] at h
  rcases h with rfl | rfl | rfl | rfl | rfl | rfl <;> decide

/-- What a fragment ends in front of. -/
theorem endsFragment_eq_true_iff (hns : ∀ d ∈ ns, Text.isWord d = true) (hne : ns ≠ []) :
    endsFragment ns before c cs = true ↔
      c ∈ [';', '\'', '"'] ∨ isIllegal c = true ∨ (c = '-' ∧ cs.head? = some '-') ∨
        (c = '/' ∧ cs.head? = some '*') ∨ (∃ n, dollarTagLength before (c :: cs) = some n) ∨
          ∃ n, placeholderLength ns before (c :: cs) = some n := by
  have hcall (hc : Text.isWord c = false) : placeholderLength ns before (c :: cs) = none :=
    placeholderLength_of_not_isWord hns hne hc
  have hdollar (hc : c ≠ '$') : dollarTagLength before (c :: cs) = none := dollarTagLength_of_ne hc
  have hmarks : ∀ d ∈ [';', '\'', '"', '-', '/', '$'],
      Text.isWord d = false ∧ isIllegal d = false := fun _ => isWord_of_mem_marks
  simp only [← Option.isSome_iff_exists]
  unfold endsFragment
  grind

/-- In front of a word a fragment ends only if a call starts there. -/
theorem endsFragment_of_isWord (hns : ∀ d ∈ ns, Text.isWord d = true) (hne : ns ≠ [])
    (hc : Text.isWord c = true) : endsFragment ns before c cs = true ↔
      ∃ n, placeholderLength ns before (c :: cs) = some n := by
  have hmark (d : Char) (hd : d ∈ [';', '\'', '"', '-', '/', '$']) : c ≠ d := by
    rintro rfl
    rw [(isWord_of_mem_marks hd).1] at hc
    contradiction
  rw [endsFragment_eq_true_iff hns hne, dollarTagLength_of_ne (hmark '$' (by decide))]
  simp [hmark, isIllegal_of_isWord hc]

/-- No word starts a token that is neither a fragment nor a call. -/
theorem isWord_eq_false_of_kind (hns : ∀ d ∈ ns, Text.isWord d = true) (hne : ns ≠ [])
    (hfragment : (lexeme ns before c cs).1 ≠ .fragment)
    (hplaceholder : (lexeme ns before c cs).1 ≠ .placeholder) : Text.isWord c = false := by
  by_contra hword
  have hends := (endsFragment_iff hns hne).mpr hfragment
  rw [endsFragment_of_isWord hns hne (Bool.not_eq_false _ ▸ hword)] at hends
  obtain ⟨n, hn⟩ := hends
  rw [lexeme_of_placeholderLength hns hne hn] at hplaceholder
  exact hplaceholder rfl

/-- A dollar quote in front of other text holds two tags. -/
theorem le_of_dollarString (hafter : after ≠ [])
    (h : (dollarString c (cs ++ after) n).2 = cs.length) : n ≤ cs.length := by
  simp only [dollarString] at h
  cases hfind : findTag ((c :: (cs ++ after)).take n) ((cs ++ after).drop (n - 1)) with
  | none =>
    rw [hfind] at h
    simp [delimited, hafter] at h
  | some k =>
    simp only [hfind, Option.map_some, delimited] at h
    omega

theorem dollarTagLength_ahead (hnil : after = [] → after' = [])
    (hbefore : c = '$' → followsWord before' = followsWord before)
    (h : dollarTagLength before (c :: (cs ++ after)) = some n)
    (hlength : (dollarString c (cs ++ after) n).2 = cs.length) :
    dollarTagLength before' (c :: (cs ++ after')) = some n := by
  obtain ⟨hfollows, tag, rest, htext, rfl, htag⟩ := dollarTagLength_eq_some_iff.mp h
  obtain ⟨rfl, hrest⟩ := List.cons.inj htext
  refine dollarTagLength_eq_some_iff.mpr ⟨(hbefore rfl).trans hfollows, tag, ?_⟩
  by_cases hafter : after = []
  · exact ⟨rest, by rw [hnil hafter, ← hrest, hafter], rfl, htag⟩
  have hle := le_of_dollarString hafter hlength
  obtain ⟨behind, rfl⟩ : tag ++ ['$'] <+: cs := by
    have htext : tag ++ ['$'] <+: cs ++ after := ⟨rest, by rw [hrest]; simp⟩
    apply List.prefix_of_prefix_length_le htext (List.prefix_append cs after)
    rw [List.length_append, List.length_singleton]
    omega
  exact ⟨behind ++ after', by simp, rfl, htag⟩

theorem dollarString_ahead (hnil : after = [] → after' = []) {k : TokenKind}
    (h : dollarString c (cs ++ after) n = (k, cs.length)) :
    dollarString c (cs ++ after') n = (k, cs.length) := by
  by_cases hafter : after = []
  · rwa [hnil hafter, ← hafter]
  have hn := le_of_dollarString hafter (congrArg Prod.snd h)
  have htag (ys : List Char) : (c :: (cs ++ ys)).take n = (c :: cs).take n := by
    rw [← List.cons_append, List.take_append_of_le_length (Nat.le_succ_of_le hn)]
  have hle (ys : List Char) : n ≤ (cs ++ ys).length + 1 := by
    rw [List.length_append]
    omega
  rw [dollarString_eq (hle _), htag] at h ⊢
  refine delimited_ahead (f := fun xs => ((findTag _ (xs.drop (n - 1))).map _).map _) hnil ?_ h
  exact measure_drop_ahead (f := fun xs => (findTag _ xs).map _) fun xs hxs =>
    findTag_ahead hxs after'

/-- A token is the same in front of a text that starts alike. -/
theorem lexeme_of_ahead (hns : ∀ d ∈ ns, Text.isWord d = true) (hne : ns ≠ []) {kind : TokenKind}
    (hfragment : kind ≠ .fragment) (hplaceholder : kind ≠ .placeholder) (ha : Ahead after after')
    (hdollar : c = '$' → followsWord before' = followsWord before)
    (hquote : c = '\'' → isEscapeString before' = isEscapeString before)
    (h : lexeme ns before c (cs ++ after) = (kind, cs.length)) :
    lexeme ns before' c (cs ++ after') = (kind, cs.length) := by
  have hnil : after = [] → after' = [] := by
    rintro rfl
    exact ha.eq_nil
  have hkind : (lexeme ns before c (cs ++ after)).1 = kind := congrArg Prod.fst h
  have hword : Text.isWord c = false :=
    isWord_eq_false_of_kind hns hne (hkind ▸ hfragment) (hkind ▸ hplaceholder)
  have hends := (endsFragment_iff hns hne).mpr (hkind ▸ hfragment)
  have hcall (b cs : List Char) : placeholderLength ns b (c :: cs) = none :=
    placeholderLength_of_not_isWord hns hne hword
  have hstarts : StartsAlike id c ns before (cs ++ after) ns before' (cs ++ after') := by
    refine ⟨?_, by rw [hcall, hcall, Option.map_none], ?_, ?_⟩
    · cases hn : dollarTagLength before (c :: (cs ++ after)) with
      | some n =>
        rw [lexeme, hn] at h
        exact dollarTagLength_ahead hnil hdollar hn (congrArg Prod.snd h)
      | none =>
        apply dollarTagLength_of_ne
        rintro rfl
        simp [endsFragment, hn] at hends
    · exact ha.append_head?_eq_some_iff (by decide) (by decide) cs
    · exact ha.append_head?_eq_some_iff (by decide) (by decide) cs
  refine hstarts.lexeme_rel (R := fun t t' => t = (kind, cs.length) → t' = (kind, cs.length))
    ?dollar ?call ?single ?line ?block ?string ?identifier ?fragment h
  case dollar => exact fun n _ => dollarString_ahead hnil
  case call =>
    intro n hn
    rw [hcall] at hn
    contradiction
  case single => exact fun _ => id
  case line =>
    intro hcut
    obtain ⟨rfl, hlength⟩ := Prod.mk.inj hcut
    rw [takeWhile_ahead ha hlength]
  case block =>
    exact fun _ => delimited_ahead (f := fun xs => (commentLength 0 (xs.drop 1)).map _) hnil <|
      measure_drop_ahead fun xs hxs => commentLength_ahead hxs after'
  case string =>
    intro hc
    rw [hquote hc]
    exact delimited_ahead hnil (quotedLength_ahead ha (by decide) (by decide))
  case identifier =>
    exact delimited_ahead hnil (quotedLength_ahead ha (by decide) (by decide))
  case fragment =>
    intro hcut
    exact absurd (congrArg Prod.fst hcut).symm hfragment

end Scan

end TypedSql
