import TypedSql.Proofs.Token.BytewiseMeasure
import TypedSql.Proofs.Token.Lexeme

/-!
# Tokens of a text that is read byte by byte

A scanner that reads the UTF-8 bytes of a text one at a time, and of the namespace of placeholders
as well, finds the tokens that a scanner of characters finds (`Scan.lexeme_bytewise`). Each token
ends between two characters, behind the bytes of the characters that belong to it, also a fragment,
which is tested for its end in front of each byte.

It follows that both ways of reading cut a whole text in the same places
(`map_lexeme_tokenize_ofBytes`).
-/

namespace TypedSql

namespace Scan

open Text (bytewise byteCount IsAsciiClass IsBytesOf exists_isBytesOf)

section Lexemes

variable {ns before cs : List Char} {c e : Char} {es : List Char}

/-- A delimited token whose end is measured from its character `m` on. -/
theorem FindsEnd.delimited {f : List Char → Option Nat} (hf : FindsEnd f) {m : Nat}
    (hm : m ≤ cs.length) (hcs : Text.IsAscii (cs.take m)) (kind : TokenKind)
    (reason : IllegalReason) :
    Scan.delimited kind reason (bytewise cs) ((f ((bytewise cs).drop m)).map (m + ·)) =
      ((Scan.delimited kind reason cs ((f (cs.drop m)).map (m + ·))).1,
        byteCount cs (Scan.delimited kind reason cs ((f (cs.drop m)).map (m + ·))).2) := by
  obtain ⟨front, rest, rfl, rfl⟩ : ∃ front rest, cs = front ++ rest ∧ front.length = m :=
    ⟨cs.take m, cs.drop m, (List.take_append_drop m cs).symm, List.length_take_of_le hm⟩
  rw [List.take_left] at hcs
  rw [Text.bytewise_append_of_ascii hcs, List.drop_left, List.drop_left, hf rest]
  cases f rest with
  | none =>
    rw [← Text.bytewise_append_of_ascii hcs]
    exact congrArg (Prod.mk _) (Text.byteCount_length _).symm
  | some n => exact congrArg (Prod.mk _) (Text.byteCount_add hcs rest n).symm

theorem FindsEnd.delimited_all {f : List Char → Option Nat} (hf : FindsEnd f) (kind : TokenKind)
    (reason : IllegalReason) (cs : List Char) :
    Scan.delimited kind reason (bytewise cs) (f (bytewise cs)) =
      ((Scan.delimited kind reason cs (f cs)).1,
        byteCount cs (Scan.delimited kind reason cs (f cs)).2) := by
  rw [hf cs]
  cases f cs with
  | none => exact congrArg (Prod.mk _) (Text.byteCount_length _).symm
  | some n => rfl

/-- No call starts with a continuation byte. -/
theorem placeholderLength_of_continuation {x : Char} (hx : 128 ≤ x.toNat ∧ x.toNat < 192)
    (ns before xs : List Char) : placeholderLength (bytewise ns) before (x :: xs) = none := by
  cases ns with
  | nil =>
    have hdot : '.' ≠ x := by
      rintro rfl
      exact absurd hx (by decide)
    simp [placeholderLength, Text.afterStart, hdot]
  | cons c ns =>
    obtain ⟨e, es, h⟩ := exists_isBytesOf c
    rw [h.cons]
    apply placeholderLength_of_ne (List.cons_ne_nil _ _)
    rintro d ⟨⟩ rfl
    have hstart := h.start
    omega

/-- A character that is not ASCII starts a call or belongs to a fragment. -/
theorem endsFragment_of_wide (hc : 128 ≤ c.toNat) (ns before cs : List Char) :
    endsFragment ns before c cs = (placeholderLength ns before (c :: cs)).isSome := by
  have hne (d : Char) (hd : d.toNat < 128) : (c == d) = false := Text.isAsciiClass_beq hd c hc
  simp only [endsFragment, hne ';' (by decide), hne '\'' (by decide), hne '"' (by decide),
    hne '-' (by decide), hne '/' (by decide), hne '$' (by decide), isAsciiClass_isIllegal c hc]
  rfl

theorem lexeme_of_wide (hc : 128 ≤ c.toNat) (ns before cs : List Char) :
    lexeme ns before c cs =
      match placeholderLength ns before (c :: cs) with
      | some n => (.placeholder, n - 1)
      | none => (.fragment, fragmentLength ns (c :: before) cs) := by
  have hne (d : Char) (hd : d.toNat < 128) : (c == d) = false := Text.isAsciiClass_beq hd c hc
  have hdollar : dollarTagLength before (c :: cs) = none := by
    apply dollarTagLength_of_ne
    rintro rfl
    exact absurd hc (by decide)
  simp only [lexeme, hdollar, hne ';' (by decide), hne '\'' (by decide), hne '"' (by decide),
    hne '-' (by decide), hne '/' (by decide), isAsciiClass_isIllegal c hc]
  rfl

theorem fragmentLength_of_continuation (hes : ∀ x ∈ es, 128 ≤ x.toNat ∧ x.toNat < 192)
    (ns before xs : List Char) :
    fragmentLength (bytewise ns) before (es ++ xs) =
      es.length + fragmentLength (bytewise ns) (es.reverse ++ before) xs := by
  induction es generalizing before with
  | nil => simp
  | cons x es ih =>
    rw [List.forall_mem_cons] at hes
    rw [List.cons_append, fragmentLength, endsFragment_of_wide hes.1.1,
      placeholderLength_of_continuation hes.1, Option.isSome_none, if_neg Bool.false_ne_true,
      ih hes.2, List.reverse_cons, List.append_assoc, List.singleton_append, List.length_cons]
    omega

/-- A token that starts with an ASCII character is recognized by its bytes. -/
theorem startsAlike_bytewise (hc : c.toNat < 128) (ns before cs : List Char) :
    StartsAlike (byteCount (c :: cs)) c ns before cs (bytewise ns) (bytesBefore before)
      (bytewise cs) where
  dollar := by
    rw [← Text.bytewise_cons_of_lt hc]
    exact dollarTagLength_bytewise before (c :: cs)
  call := by
    rw [← Text.bytewise_cons_of_lt hc]
    exact placeholderLength_bytewise ns before (c :: cs)
  dash := Text.head?_bytewise_eq_some_iff (by decide) cs
  star := Text.head?_bytewise_eq_some_iff (by decide) cs

theorem endsFragment_bytewise (h : IsBytesOf c e es) (ns before cs : List Char) :
    endsFragment (bytewise ns) (bytesBefore before) e (es ++ bytewise cs) =
      endsFragment ns before c cs := by
  rcases Nat.lt_or_ge c.toNat 128 with hc | hc
  · obtain ⟨rfl, rfl⟩ := h.eq_of_lt hc
    exact (startsAlike_bytewise hc ns before cs).endsFragment_eq
  · have he := h.wide hc e List.mem_cons_self
    have hplace := placeholderLength_bytewise ns before (c :: cs)
    rw [h.cons] at hplace
    rw [endsFragment_of_wide he, endsFragment_of_wide hc, hplace, Option.isSome_map]

theorem fragmentLength_bytewise (ns before cs : List Char) :
    fragmentLength (bytewise ns) (bytesBefore before) (bytewise cs) =
      byteCount cs (fragmentLength ns before cs) := by
  induction cs generalizing before with
  | nil => rfl
  | cons c cs ih =>
    obtain ⟨e, es, h⟩ := exists_isBytesOf c
    rw [h.cons, fragmentLength, endsFragment_bytewise h, fragmentLength]
    split
    · rfl
    · rw [fragmentLength_of_continuation h.rest, ← bytesBefore_cons h, ih, h.byteCount_succ]

theorem dollarString_bytewise {n : Nat} (h : dollarTagLength before (c :: cs) = some n)
    (hbytes : dollarTagLength (bytesBefore before) (c :: bytewise cs) = some n) :
    dollarString c (bytewise cs) n =
      ((dollarString c cs n).1, byteCount cs (dollarString c cs n).2) := by
  have hle : n ≤ cs.length + 1 := dollarTagLength_le h
  obtain ⟨tail, rest, hcs, rfl, htail⟩ := exists_asciiTag h
  obtain ⟨rfl, rfl⟩ := List.cons.inj hcs
  have htag : Text.IsAscii ('$' :: tail) := Text.isAscii_cons.mpr ⟨by decide, htail⟩
  have htake : (bytewise (tail ++ rest)).take tail.length = tail := by
    rw [Text.bytewise_append_of_ascii htail, List.take_left]
  rw [dollarString_eq (dollarTagLength_le hbytes), dollarString_eq hle,
    List.take_succ_cons, List.take_succ_cons, htake, List.take_left, Nat.add_sub_cancel]
  apply (findsEnd_findTag htag (List.cons_ne_nil _ _)).delimited
  · rw [List.length_append]
    exact Nat.le_add_right _ _
  · rw [List.take_left]
    exact htail

/-- A token that starts with an ASCII character has the same end in bytes. -/
theorem lexeme_bytewise_of_lt (hc : c.toNat < 128) (ns before cs : List Char) :
    lexeme (bytewise ns) (bytesBefore before) c (bytewise cs) =
      ((lexeme ns before c cs).1, byteCount cs (lexeme ns before c cs).2) := by
  apply (startsAlike_bytewise hc ns before cs).lexeme_rel
    (R := fun t t' => t' = (t.1, byteCount cs t.2))
  case dollar =>
    intro n htag
    apply dollarString_bytewise htag
    exact (startsAlike_bytewise hc ns before cs).dollar.trans htag
  case call =>
    intro n hcall
    obtain ⟨n, rfl⟩ := Nat.exists_eq_add_one_of_ne_zero (placeholderLength_pos hcall).ne'
    rw [Text.byteCount_succ_of_lt hc, Nat.add_sub_cancel, Nat.add_sub_cancel]
  case single => exact fun _ => rfl
  case line =>
    have hnewline : IsAsciiClass (· == '\n') := Text.isAsciiClass_beq (by decide)
    exact congrArg (Prod.mk _) (hnewline.length_takeWhile_not_bytewise cs)
  case block =>
    intro hstar
    obtain ⟨ds, rfl⟩ := List.head?_eq_some_iff.mp hstar
    exact (findsEnd_commentLength 0).delimited (Nat.le_add_left 1 ds.length) (by simp) _ _
  case string =>
    intro _
    rw [isEscapeString_bytesBefore]
    exact (findsEnd_quotedLength (by decide) _).delimited_all _ _ _
  case identifier => exact (findsEnd_quotedLength (by decide) _).delimited_all _ _ _
  case fragment => rw [← bytesBefore_cons_of_lt hc, fragmentLength_bytewise]

/-- A scanner of bytes finds the token that a scanner of characters finds. -/
theorem lexeme_bytewise (h : IsBytesOf c e es) (ns before cs : List Char) :
    lexeme (bytewise ns) (bytesBefore before) e (es ++ bytewise cs) =
      ((lexeme ns before c cs).1, es.length + byteCount cs (lexeme ns before c cs).2) := by
  rcases Nat.lt_or_ge c.toNat 128 with hc | hc
  · obtain ⟨rfl, rfl⟩ := h.eq_of_lt hc
    rw [List.nil_append, List.length_nil, Nat.zero_add]
    exact lexeme_bytewise_of_lt hc ns before cs
  · have he := h.wide hc e List.mem_cons_self
    have hplace := placeholderLength_bytewise ns before (c :: cs)
    rw [h.cons] at hplace
    rw [lexeme_of_wide he, lexeme_of_wide hc, hplace]
    cases hcall : placeholderLength ns before (c :: cs) with
    | some n =>
      obtain ⟨n, rfl⟩ := Nat.exists_eq_add_one_of_ne_zero (placeholderLength_pos hcall).ne'
      simp only [Option.map_some, h.byteCount_succ, Nat.add_sub_cancel]
    | none =>
      simp only [Option.map_none]
      rw [fragmentLength_of_continuation h.rest, ← bytesBefore_cons h, fragmentLength_bytewise]

end Lexemes

end Scan

namespace Lexeme

/-- A lexeme of the bytes of a text. -/
def bytewise (l : Lexeme) : Lexeme :=
  ⟨l.kind, Text.bytewise l.chars⟩

theorem text_map_bytewise (ls : List Lexeme) :
    text (ls.map bytewise) = Text.bytewise (text ls) := by
  induction ls with
  | nil => rfl
  | cons l ls ih =>
    rw [List.map_cons, text_cons, text_cons, ih, Text.bytewise_append]
    rfl

end Lexeme

/-- The bytes of a text are cut where the text is cut. -/
theorem Scan.Cuts.bytewise {ns before after : List Char} {ls : List Lexeme}
    (h : Cuts ns before ls after) :
    Cuts (Text.bytewise ns) (bytesBefore before) (ls.map Lexeme.bytewise)
      (Text.bytewise after) := by
  induction h with
  | nil => exact .nil
  | @cons before after cs c kind ls head tail ih =>
    obtain ⟨e, es, h⟩ := Text.exists_isBytesOf c
    have hlexeme := lexeme_bytewise h ns before (cs ++ (Lexeme.text ls ++ after))
    rw [head, Text.bytewise_append, Text.bytewise_append, Text.byteCount, List.take_left] at hlexeme
    have hbytes : (⟨kind, c :: cs⟩ : Lexeme).bytewise = ⟨kind, e :: (es ++ Text.bytewise cs)⟩ := by
      rw [Lexeme.bytewise, h.cons]
    rw [List.map_cons, hbytes]
    apply Cuts.cons
    · rw [Lexeme.text_map_bytewise, List.append_assoc, hlexeme, List.length_append]
    · rw [← h.cons, ← bytesBefore_reverse_append]
      exact ih

/-- Reading bytes in place of characters leads to the same tokens. -/
theorem map_lexeme_tokenize_ofBytes (src ns : String) :
    (tokenize (Text.ofBytes src) (Text.ofBytes ns)).map Token.lexeme =
      ((tokenize src ns).map Token.lexeme).map Lexeme.bytewise := by
  have hcuts := (Scanner.cuts_tokens (Scanner.ofText src ns)).bytewise
  have htext : Lexeme.text ((tokenize src ns).map Token.lexeme) = src.toList := by
    rw [Lexeme.text_map_lexeme]
    exact Scanner.flatMap_chars_tokens (Scanner.ofText src ns)
  have hplace : tokenize (Text.ofBytes src) (Text.ofBytes ns) =
      Lexeme.place .start (((tokenize src ns).map Token.lexeme).map Lexeme.bytewise) := by
    apply Scanner.tokens_eq_place (s := Scanner.ofText (Text.ofBytes src) (Text.ofBytes ns))
    · simp only [Scanner.ofText, Text.toList_ofBytes]
      exact hcuts
    · rw [Lexeme.text_map_bytewise, htext]
      exact Text.toList_ofBytes src
  rw [hplace, Lexeme.map_lexeme_place]

end TypedSql
