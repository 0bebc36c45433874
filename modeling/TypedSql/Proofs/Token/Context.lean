import TypedSql.Proofs.Token.Measure

/-!
# What a token depends on

Where a token ends depends on the characters before it and on all that follows. Both dependences
have a limit. A place is fresh when no word and no dotted name reaches up to it, and what lies
before a fresh place does not matter (`Scan.lexeme_append_fresh`). Behind a semicolon the text does
not matter to the tokens in front of it, unless one of them takes the semicolon in
(`Scan.lexeme_append_semicolon`).
-/

namespace TypedSql

namespace Scan

/-- No word and no dotted name reaches up to a place behind `before`. -/
def Fresh (before : List Char) : Prop :=
  ∀ c ∈ before.head?, Text.isWord c = false ∧ c ≠ '.'

theorem fresh_nil : Fresh [] := by
  rintro c ⟨⟩

section Before

variable {p b ns : List Char}

theorem followsWord_append_fresh (hb : Fresh b) : followsWord (p ++ b) = followsWord p := by
  cases p with
  | nil =>
    cases b with
    | nil => rfl
    | cons c b => exact (hb c rfl).1
  | cons c p => rfl

theorem isEscapeString_append_fresh (hb : Fresh b) :
    isEscapeString (p ++ b) = isEscapeString p := by
  cases p with
  | nil =>
    cases b with
    | nil => rfl
    | cons c b =>
      have hc := (hb c rfl).1
      have hneq : ∀ d, Text.isWord d = true → (c == d) = false := by
        intro d hd
        rw [beq_eq_false_iff_ne]
        rintro rfl
        rw [hc] at hd
        exact Bool.noConfusion hd
      simp [isEscapeString, hneq 'e' (by decide), hneq 'E' (by decide)]
  | cons c p => simp only [List.cons_append, isEscapeString, followsWord_append_fresh hb]

theorem dollarTagLength_append_fresh (hb : Fresh b) (rest : List Char) :
    dollarTagLength (p ++ b) rest = dollarTagLength p rest := by
  simp only [dollarTagLength, followsWord_append_fresh hb]

theorem placeholderLength_append_fresh (hb : Fresh b) (rest : List Char) :
    placeholderLength ns (p ++ b) rest = placeholderLength ns p rest := by
  have hhead : ((p ++ b).head?.any fun c => Text.isWord c || c == '.') =
      p.head?.any fun c => Text.isWord c || c == '.' := by
    cases p with
    | nil =>
      cases b with
      | nil => rfl
      | cons c b => simp [hb c rfl]
    | cons c p => rfl
  simp only [placeholderLength, hhead]

theorem endsFragment_append_fresh (hb : Fresh b) (c : Char) (rest : List Char) :
    endsFragment ns (p ++ b) c rest = endsFragment ns p c rest := by
  simp only [endsFragment, dollarTagLength_append_fresh hb, placeholderLength_append_fresh hb]

theorem fragmentLength_append_fresh (hb : Fresh b) (rest : List Char) :
    fragmentLength ns (p ++ b) rest = fragmentLength ns p rest := by
  induction rest generalizing p with
  | nil => rfl
  | cons c rest ih =>
    have hrest := ih (p := c :: p)
    rw [List.cons_append] at hrest
    rw [fragmentLength, fragmentLength, endsFragment_append_fresh hb, hrest]

/-- What lies before a fresh place does not matter. -/
theorem lexeme_append_fresh (hb : Fresh b) (c : Char) (cs : List Char) :
    lexeme ns (p ++ b) c cs = lexeme ns p c cs := by
  have hfragment : fragmentLength ns (c :: (p ++ b)) cs = fragmentLength ns (c :: p) cs :=
    fragmentLength_append_fresh (p := c :: p) hb cs
  simp only [lexeme, dollarTagLength_append_fresh hb, placeholderLength_append_fresh hb,
    isEscapeString_append_fresh hb, hfragment]

end Before

/-- A token lies inside of the text. -/
theorem lexeme_le (ns before : List Char) (c : Char) (cs : List Char) :
    (lexeme ns before c cs).2 ≤ cs.length := by
  have hsame : StartsAlike id c ns before cs ns before cs :=
    ⟨rfl, (Option.map_id_apply ..).symm, Iff.rfl, Iff.rfl⟩
  apply hsame.lexeme_rel (R := fun t _ => t.2 ≤ cs.length)
  case dollar =>
    intro m htag
    have hm : m ≤ cs.length + 1 := dollarTagLength_le htag
    rw [dollarString_eq hm]
    exact (stopsAtEnd_findTag _).delimited_le (by omega)
  case call =>
    intro m hcall
    have hm := placeholderLength_le hcall
    rw [List.length_cons] at hm
    show m - 1 ≤ cs.length
    omega
  case single => exact fun _ => Nat.zero_le _
  case line => exact (List.takeWhile_prefix _).length_le
  case block =>
    intro hstar
    obtain ⟨ds, rfl⟩ := List.head?_eq_some_iff.mp hstar
    exact (stopsAtEnd_commentLength 0).delimited_le (Nat.le_add_left 1 ds.length)
  case string => exact fun _ => (stopsAtEnd_quotedLength (by decide) _).delimited_all_le
  case identifier => exact (stopsAtEnd_quotedLength (by decide) _).delimited_all_le
  case fragment => exact fragmentLength_le _ _ _

/-- What stands behind a semicolon does not matter to a token in front of it that ends there or
before. -/
theorem lexeme_append_semicolon {ns before xs more : List Char} {c : Char} {k : TokenKind} {n : Nat}
    (hns : ∀ c ∈ ns, Text.isWord c = true) (h : lexeme ns before c (xs ++ ';' :: more) = (k, n))
    (hn : n ≤ xs.length) (more' : List Char) :
    lexeme ns before c (xs ++ ';' :: more') = (k, n) := by
  have halike : StartsAlike id c ns before (xs ++ ';' :: more) ns before (xs ++ ';' :: more') :=
    (startsAlike_append_semicolon hns c).of_common (startsAlike_append_semicolon hns c)
  revert h
  apply halike.lexeme_rel (R := fun t t' => t = (k, n) → t' = (k, n))
  case dollar =>
    intro m htag h
    rw [← List.cons_append, dollarTagLength_append_semicolon] at htag
    have hm : m ≤ xs.length + 1 := dollarTagLength_le htag
    have htake (ys : List Char) : (c :: (xs ++ ';' :: ys)).take m = (c :: xs).take m := by
      rw [← List.cons_append, List.take_append_of_le_length hm]
    rw [dollarString_eq (by rw [List.length_append]; omega), htake] at h ⊢
    exact (stopsAtEnd_findTag _).delimited (by omega) h hn more'
  case call => exact fun _ _ h => h
  case single => exact fun _ h => h
  case line =>
    intro h
    obtain ⟨rfl, rfl⟩ := Prod.mk.inj h
    rw [takeWhile_append_semicolon_of_le hn more']
  case block =>
    intro hstar h
    obtain ⟨ds, rfl⟩ := List.head?_eq_some_iff.mp ((head?_append_semicolon (by decide)).mp hstar)
    exact (stopsAtEnd_commentLength 0).delimited (Nat.le_add_left 1 ds.length) h hn more'
  case string =>
    intro _ h
    exact (stopsAtEnd_quotedLength (by decide) _).delimited_all h hn more'
  case identifier =>
    intro h
    exact (stopsAtEnd_quotedLength (by decide) _).delimited_all h hn more'
  case fragment =>
    intro h
    rw [fragmentLength_append_semicolon hns] at h ⊢
    exact h

end Scan

end TypedSql
