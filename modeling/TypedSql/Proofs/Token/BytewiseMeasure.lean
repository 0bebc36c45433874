import TypedSql.Proofs.Text.Bytewise
import TypedSql.Proofs.Token.Measure

/-!
# Measures of tokens and bytes

The marks that tokens are recognized by are ASCII, and so are identifiers and dollar tags. A measure
that reads bytes in place of characters therefore stops between two characters, behind the bytes of
the characters that the measure of characters counts (`Scan.FindsEnd`).

This holds also where a measure goes by single bytes. A backslash takes along only the first byte of
the character behind it, but the other bytes of this character are passed over one by one
(`Scan.PassesWide`).
-/

namespace TypedSql

namespace Scan

open Text (bytewise byteCount IsAsciiClass IsBytesOf exists_isBytesOf)

/-- The bytes before a place, nearest byte first. -/
def bytesBefore (before : List Char) : List Char :=
  (bytewise before.reverse).reverse

section Before

variable {before : List Char} {c e : Char} {es : List Char}

theorem bytesBefore_reverse_append (s before : List Char) :
    bytesBefore (s.reverse ++ before) = (bytewise s).reverse ++ bytesBefore before := by
  rw [bytesBefore, List.reverse_append, List.reverse_reverse, Text.bytewise_append,
    List.reverse_append, bytesBefore]

theorem bytesBefore_cons (h : IsBytesOf c e es) (before : List Char) :
    bytesBefore (c :: before) = es.reverse ++ e :: bytesBefore before := by
  have hone := bytesBefore_reverse_append [c] before
  rw [List.reverse_singleton, List.singleton_append, h.cons, Text.bytewise_nil, List.append_nil,
    List.reverse_cons, List.append_assoc, List.singleton_append] at hone
  exact hone

theorem bytesBefore_cons_of_lt (hc : c.toNat < 128) (before : List Char) :
    bytesBefore (c :: before) = c :: bytesBefore before := by
  obtain ⟨e, es, h⟩ := exists_isBytesOf c
  obtain ⟨rfl, rfl⟩ := h.eq_of_lt hc
  exact bytesBefore_cons h before

/-- Behind a character that is not ASCII lies a byte that is none. -/
theorem exists_bytesBefore_cons (hc : 128 ≤ c.toNat) (before : List Char) :
    ∃ x xs, bytesBefore (c :: before) = x :: xs ∧ 128 ≤ x.toNat := by
  obtain ⟨e, es, h⟩ := exists_isBytesOf c
  have hwide := h.wide hc
  rw [bytesBefore_cons h]
  cases hes : es.reverse with
  | nil => exact ⟨e, _, rfl, hwide e List.mem_cons_self⟩
  | cons x xs =>
    refine ⟨x, _, rfl, hwide x (List.mem_cons_of_mem e ?_)⟩
    rw [← List.mem_reverse, hes]
    exact List.mem_cons_self

theorem any_head?_bytesBefore {p : Char → Bool} (hp : IsAsciiClass p) (before : List Char) :
    (bytesBefore before).head?.any p = before.head?.any p := by
  cases before with
  | nil => rfl
  | cons c before =>
    rcases Nat.lt_or_ge c.toNat 128 with hc | hc
    · rw [bytesBefore_cons_of_lt hc]
      rfl
    · obtain ⟨x, xs, hx, hwide⟩ := exists_bytesBefore_cons hc before
      rw [hx]
      exact (hp x hwide).trans (hp c hc).symm

theorem followsWord_bytesBefore (before : List Char) :
    followsWord (bytesBefore before) = followsWord before :=
  any_head?_bytesBefore Text.isAsciiClass_isWord before

theorem isEscapeString_bytesBefore (before : List Char) :
    isEscapeString (bytesBefore before) = isEscapeString before := by
  have hletter (c : Char) (hc : 128 ≤ c.toNat) (before : List Char) :
      isEscapeString (c :: before) = false := by
    have he : (c == 'e') = false := Text.isAsciiClass_beq (by decide) c hc
    have hE : (c == 'E') = false := Text.isAsciiClass_beq (by decide) c hc
    rw [isEscapeString, he, hE]
    rfl
  cases before with
  | nil => rfl
  | cons c before =>
    rcases Nat.lt_or_ge c.toNat 128 with hc | hc
    · rw [bytesBefore_cons_of_lt hc, isEscapeString, followsWord_bytesBefore]
      rfl
    · obtain ⟨x, xs, hx, hwide⟩ := exists_bytesBefore_cons hc before
      rw [hx, hletter x hwide, hletter c hc]

end Before

section Marks

variable {ns before cs : List Char} {n : Nat}

theorem identLength_bytewise (cs : List Char) : identLength (bytewise cs) = identLength cs := by
  cases cs with
  | nil => rfl
  | cons c cs =>
    obtain ⟨e, es, h⟩ := exists_isBytesOf c
    have hstart := h.eq_of_isAsciiClass Text.isAsciiClass_isIdentStart
    cases hc : Text.isIdentStart c with
    | true =>
      rw [Text.bytewise_cons_of_lt (Text.isAsciiClass_isIdentStart.lt hc), identLength, identLength,
        Text.isAsciiClass_isWord.takeWhile_bytewise]
    | false =>
      rw [h.cons, identLength, identLength, hstart, hc]
      rfl

theorem drop_bytewise_of_identLength (h : identLength cs = some n) :
    (bytewise cs).drop n = bytewise (cs.drop n) := by
  obtain ⟨ident, rest, rfl, rfl, hident⟩ := exists_ident h
  have hascii : Text.IsAscii ident := fun c hc => Text.isAsciiClass_isWord.lt (hident.isWord hc)
  rw [Text.bytewise_append_of_ascii hascii, List.drop_left, List.drop_left]

theorem keepsMarks_bytewise : KeepsMarks bytewise where
  dollar := Text.bytewise_cons_of_lt (by decide)
  head := Text.head?_bytewise_eq_some_iff (by decide)
  ident := identLength_bytewise
  drop := drop_bytewise_of_identLength
  opening := Text.afterStart_bytewise_of_ascii (by decide)
  quote := Text.afterStart_bytewise_of_ascii (by decide)
  closing := Text.afterStart_bytewise_of_ascii (by decide)
  blanks := Text.isAsciiClass_isAsciiBlank.dropWhile_bytewise

theorem dollarTagLength_bytewise (before cs : List Char) :
    dollarTagLength (bytesBefore before) (bytewise cs) = dollarTagLength before cs :=
  keepsMarks_bytewise.dollarTagLength_eq (followsWord_bytesBefore before) cs

/-- A dollar tag is ASCII. -/
theorem exists_asciiTag (h : dollarTagLength before cs = some n) :
    ∃ tail rest, cs = '$' :: (tail ++ rest) ∧ tail.length + 1 = n ∧ Text.IsAscii tail := by
  obtain ⟨ident, rest, rfl, rfl, hident⟩ := exists_dollarTag h
  refine ⟨ident ++ ['$'], rest, by simp, by simp, ?_⟩
  rw [Text.isAscii_append]
  exact ⟨fun c hc => Text.isAsciiClass_isWord.lt (hident c hc), by decide⟩

theorem isAsciiClass_isIllegal : IsAsciiClass isIllegal := by
  intro c hc
  have hdel : (c == '\x7f') = false := Text.isAsciiClass_beq (by decide) c hc
  have hlow : ¬ c.toNat < 0x20 := by omega
  simp [isIllegal, hdel, hlow]

theorem placeholderLength_bytewise (ns before cs : List Char) :
    placeholderLength (bytewise ns) (bytesBefore before) (bytewise cs) =
      (placeholderLength ns before cs).map (byteCount cs) := by
  have hclass : IsAsciiClass fun c => Text.isWord c || c == '.' :=
    Text.isAsciiClass_isWord.or (Text.isAsciiClass_beq (by decide))
  apply keepsMarks_bytewise.placeholderLength_eq (Text.afterStart_bytewise ns)
  · exact any_head?_bytesBefore hclass before
  · intro rest hrest
    exact (Text.byteCount_sub_of_suffix hrest).symm

end Marks

section Measures

variable {f : List Char → Option Nat} {c e : Char} {es cs : List Char}

/-- A measure that finds the same end in the bytes of a text as in its characters. -/
def FindsEnd (f : List Char → Option Nat) : Prop :=
  ∀ cs, f (bytewise cs) = (f cs).map (byteCount cs)

/-- A measure that passes over what is not ASCII. -/
def PassesWide (f : List Char → Option Nat) : Prop :=
  ∀ x xs, 128 ≤ x.toNat → f (x :: xs) = (f xs).map (· + 1)

theorem PassesWide.append (hf : PassesWide f) (hes : ∀ x ∈ es, 128 ≤ x.toNat) (cs : List Char) :
    f (es ++ cs) = (f cs).map (es.length + ·) := by
  induction es with
  | nil => simp
  | cons x es ih =>
    rw [List.cons_append, hf x _ (hes x List.mem_cons_self),
      ih fun y hy => hes y (List.mem_cons_of_mem x hy), Option.map_map]
    congr 1
    funext n
    rw [Function.comp_apply, List.length_cons]
    omega

/-- A measure that passes over a character passes over its bytes. -/
theorem PassesWide.bytewise_cons (hf : PassesWide f) (h : IsBytesOf c e es)
    (hone : c.toNat < 128 → f (c :: bytewise cs) = (f (bytewise cs)).map (· + 1))
    (ih : f (bytewise cs) = (f cs).map (byteCount cs)) :
    f (bytewise (c :: cs)) = ((f cs).map (· + 1)).map (byteCount (c :: cs)) := by
  have hbytes : f (bytewise (c :: cs)) = (f (bytewise cs)).map (es.length + 1 + ·) := by
    rcases Nat.lt_or_ge c.toNat 128 with hlt | hge
    · obtain ⟨rfl, rfl⟩ := h.eq_of_lt hlt
      rw [Text.bytewise_cons_of_lt hlt, hone hlt]
      congr 1
      funext n
      simp [Nat.add_comm]
    · rw [h.cons, ← List.cons_append, hf.append (h.wide hge), List.length_cons]
  rw [hbytes, ih, Option.map_map, Option.map_map]
  congr 1
  funext n
  rw [Function.comp_apply, Function.comp_apply, h.byteCount_succ]
  omega

theorem quotedLength_cons_of_ne {quote : Char} {escapes : Bool} (hq : c ≠ quote)
    (he : ¬ (escapes && c == '\\') = true) (cs : List Char) :
    quotedLength quote escapes (c :: cs) = (quotedLength quote escapes cs).map (· + 1) := by
  cases cs with
  | nil => simp [quotedLength, he, hq]
  | cons d cs => rw [quotedLength, if_neg he, if_neg hq]

theorem passesWide_quotedLength {quote : Char} (hq : quote.toNat < 128) (escapes : Bool) :
    PassesWide (quotedLength quote escapes) := by
  intro x xs hx
  apply quotedLength_cons_of_ne
  · rintro rfl
    omega
  · have hslash : (x == '\\') = false := Text.isAsciiClass_beq (by decide) x hx
    simp [hslash]

/-- The end of a quoted text. A backslash takes along the next byte only, but the bytes behind that
one are no quotes and no backslashes. -/
theorem findsEnd_quotedLength {quote : Char} (hq : quote.toNat < 128) (escapes : Bool) :
    FindsEnd (quotedLength quote escapes) := by
  have hwide := passesWide_quotedLength hq escapes
  intro cs
  fun_induction quotedLength quote escapes cs with
  | case1 => rfl
  | case2 c he =>
    obtain rfl : c = '\\' := by simp_all
    rw [Text.bytewise_cons_of_lt (by decide), Text.bytewise_nil, quotedLength, if_pos he]
    rfl
  | case3 he =>
    rw [Text.bytewise_cons_of_lt hq, Text.bytewise_nil, quotedLength, if_neg he, if_pos rfl,
      Option.map_some, Text.byteCount_succ_of_lt hq, Text.byteCount_zero]
  | case4 c he hc =>
    obtain ⟨e, es, h⟩ := exists_isBytesOf c
    exact hwide.bytewise_cons h (fun _ => quotedLength_cons_of_ne hc he _) rfl
  | case5 c d cs he ih =>
    obtain rfl : c = '\\' := by simp_all
    obtain ⟨e, es, h⟩ := exists_isBytesOf d
    rw [Text.bytewise_cons_of_lt (by decide), h.cons, quotedLength, if_pos he,
      hwide.append fun x hx => (h.rest x hx).1, ih, Option.map_map, Option.map_map, Option.map_map]
    congr 1
    funext n
    simp only [Function.comp_apply]
    rw [Text.byteCount_succ_of_lt (by decide), h.byteCount_succ]
  | case6 cs he ih =>
    rw [Text.bytewise_cons_of_lt hq, Text.bytewise_cons_of_lt hq, quotedLength, if_neg he,
      if_pos rfl, if_pos rfl, ih, Text.map_byteCount_of_lt hq hq]
  | case7 d cs hd he =>
    obtain ⟨e, es, h⟩ := exists_isBytesOf d
    have hne : e ≠ quote := mt (h.first quote hq).mp hd
    rw [Text.bytewise_cons_of_lt hq, h.cons, quotedLength, if_neg he, if_pos rfl, if_neg hne,
      Option.map_some, Text.byteCount_succ_of_lt hq, Text.byteCount_zero]
  | case8 c d cs he hc ih =>
    obtain ⟨e, es, h⟩ := exists_isBytesOf c
    exact hwide.bytewise_cons h (fun _ => quotedLength_cons_of_ne hc he _) ih

theorem passesWide_commentLength (depth : Nat) : PassesWide (commentLength depth) := by
  intro x xs hx
  have hne (d : Char) (hd : d.toNat < 128) : x ≠ d := by
    rintro rfl
    omega
  exact commentLength_cons (fun h => absurd h (hne '/' (by decide)))
    fun h => absurd h (hne '*' (by decide))

theorem findsEnd_commentLength (depth : Nat) : FindsEnd (commentLength depth) := by
  intro cs
  fun_induction commentLength depth cs with
  | case1 depth cs ih =>
    rw [Text.bytewise_cons_of_lt (by decide), Text.bytewise_cons_of_lt (by decide), commentLength,
      ih, Text.map_byteCount_of_lt (by decide) (by decide)]
  | case2 cs =>
    rw [Text.bytewise_cons_of_lt (by decide), Text.bytewise_cons_of_lt (by decide), commentLength,
      Option.map_some, Text.byteCount_succ_of_lt (by decide),
      Text.byteCount_succ_of_lt (by decide), Text.byteCount_zero]
  | case3 cs depth ih =>
    rw [Text.bytewise_cons_of_lt (by decide), Text.bytewise_cons_of_lt (by decide), commentLength,
      ih, Text.map_byteCount_of_lt (by decide) (by decide)]
  | case4 depth c cs hopen hclose ih =>
    obtain ⟨e, es, h⟩ := exists_isBytesOf c
    apply (passesWide_commentLength depth).bytewise_cons h _ ih
    intro hc
    apply commentLength_cons
    · intro hslash hstar
      obtain ⟨ds, rfl⟩ :=
        List.head?_eq_some_iff.mp ((Text.head?_bytewise_eq_some_iff (by decide) cs).mp hstar)
      exact hopen ds hslash rfl
    · intro hstar hslash
      obtain ⟨ds, rfl⟩ :=
        List.head?_eq_some_iff.mp ((Text.head?_bytewise_eq_some_iff (by decide) cs).mp hslash)
      exact hclose ds hstar rfl
  | case5 => rfl

theorem findTag_eq_zero {tag : List Char} (h : tag <+: cs) : findTag tag cs = some 0 := by
  cases cs with
  | nil => rw [findTag, List.prefix_nil.mp h]; rfl
  | cons c cs => rw [findTag, if_pos (List.isPrefixOf_iff_prefix.mpr h)]

theorem findTag_cons {tag : List Char} (h : ¬ tag <+: c :: cs) :
    findTag tag (c :: cs) = (findTag tag cs).map (· + 1) := by
  rw [findTag, if_neg (mt List.isPrefixOf_iff_prefix.mp h)]

/-- The end of a string between two equal tags. -/
theorem findsEnd_findTag {tag : List Char} (htag : Text.IsAscii tag) (hne : tag ≠ []) :
    FindsEnd fun cs => (findTag tag cs).map (· + tag.length) := by
  have hpass (c : Char) (cs : List Char) (hp : ¬ tag <+: c :: cs) :
      (findTag tag (c :: cs)).map (· + tag.length) =
        ((findTag tag cs).map (· + tag.length)).map (· + 1) := by
    rw [findTag_cons hp, Option.map_map, Option.map_map]
    congr 1
    funext n
    rw [Function.comp_apply, Function.comp_apply]
    omega
  have hwide : PassesWide fun cs => (findTag tag cs).map (· + tag.length) := by
    intro x xs hx
    apply hpass
    intro hp
    obtain ⟨d, rest, rfl⟩ := List.exists_cons_of_ne_nil hne
    obtain ⟨rfl, -⟩ := List.cons_prefix_cons.mp hp
    have hlt := htag d List.mem_cons_self
    omega
  intro cs
  induction cs with
  | nil =>
    have hnil : ¬ tag <+: [] := mt List.prefix_nil.mp hne
    simp [findTag, hne]
  | cons c cs ih =>
    have hstarts := Text.prefix_bytewise_iff_of_ascii htag (c :: cs)
    by_cases hp : tag <+: c :: cs
    · simp only [findTag_eq_zero hp, findTag_eq_zero (hstarts.mpr hp), Option.map_some]
      obtain ⟨rest, hrest⟩ := hp
      rw [← hrest, Nat.zero_add, Text.byteCount_left htag]
    · obtain ⟨e, es, h⟩ := exists_isBytesOf c
      simp only [hpass c cs hp]
      apply hwide.bytewise_cons h _ ih
      intro hc
      apply hpass
      rwa [← Text.bytewise_cons_of_lt hc, hstarts]

end Measures

end Scan

end TypedSql
