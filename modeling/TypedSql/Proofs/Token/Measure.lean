import TypedSql.Proofs.Text.Runs
import TypedSql.Proofs.Token.Start

/-!
# What the measures of tokens look at

No mark that a token is recognized by holds a semicolon, so what stands behind a semicolon does not
matter to the measures of dollar tags, placeholder calls and fragments in front of it, nor to how a
token starts there (`Scan.startsAlike_append_semicolon`).

The measures of delimited tokens may run over semicolons. They stop at the end they find and look at
most one character further (`Scan.StopsAtEnd`).
-/

namespace TypedSql

namespace Scan

section Semicolon

variable {ns before xs more : List Char}

theorem afterStart_append_semicolon {start : List Char} (hs : ';' ∉ start) :
    Text.afterStart start (xs ++ ';' :: more) =
      (Text.afterStart start xs).map (· ++ ';' :: more) := by
  induction start generalizing xs with
  | nil => rfl
  | cons c start ih =>
    rw [List.mem_cons, not_or] at hs
    cases xs with
    | nil => simp [Text.afterStart, Ne.symm hs.1]
    | cons d xs =>
      simp only [List.cons_append, Text.afterStart]
      split
      · exact ih hs.2
      · rfl

theorem head?_append_semicolon {d : Char} (hd : d ≠ ';') :
    (xs ++ ';' :: more).head? = some d ↔ xs.head? = some d := by
  cases xs with
  | nil => simp [hd.symm]
  | cons x xs => rfl

theorem identLength_append_semicolon :
    identLength (xs ++ ';' :: more) = identLength xs := by
  cases xs with
  | nil => rfl
  | cons c xs =>
    simp only [List.cons_append, identLength, Runs.takeWhile_append_cons (p := Text.isWord)
      (show Text.isWord ';' = false by decide)]

theorem keepsMarks_append_semicolon (more : List Char) :
    KeepsMarks fun xs => xs ++ ';' :: more where
  dollar := fun _ => rfl
  head := fun _ => head?_append_semicolon (by decide)
  ident := fun _ => identLength_append_semicolon
  drop := fun hn => List.drop_append_of_le_length (identLength_le hn)
  opening := fun _ => afterStart_append_semicolon (by decide)
  quote := fun _ => afterStart_append_semicolon (by decide)
  closing := fun _ => afterStart_append_semicolon (by decide)
  blanks := fun _ => Runs.dropWhile_append_cons (by decide)

theorem dollarTagLength_append_semicolon (xs : List Char) :
    dollarTagLength before (xs ++ ';' :: more) = dollarTagLength before xs :=
  (keepsMarks_append_semicolon more).dollarTagLength_eq rfl xs

theorem placeholderLength_append_semicolon (hns : ∀ c ∈ ns, Text.isWord c = true)
    (xs : List Char) :
    placeholderLength ns before (xs ++ ';' :: more) = placeholderLength ns before xs := by
  have hsemi : ';' ∉ ns := fun h => absurd (hns _ h) (by decide)
  have hlength (rest : List Char) : rest <:+ xs →
      (xs ++ ';' :: more).length - (rest ++ ';' :: more).length = id (xs.length - rest.length) := by
    intro _
    rw [List.length_append, List.length_append, id]
    omega
  have hcall : placeholderLength ns before (xs ++ ';' :: more) =
      (placeholderLength ns before xs).map id :=
    (keepsMarks_append_semicolon more).placeholderLength_eq
      (fun _ => afterStart_append_semicolon hsemi) rfl hlength
  rw [hcall, Option.map_id_apply]

/-- No token that starts in front of a semicolon is recognized by what stands behind it. -/
theorem startsAlike_append_semicolon (hns : ∀ c ∈ ns, Text.isWord c = true) (c : Char) :
    StartsAlike id c ns before xs ns before (xs ++ ';' :: more) where
  dollar := dollarTagLength_append_semicolon (c :: xs)
  call := by
    rw [Option.map_id_apply]
    exact placeholderLength_append_semicolon hns (c :: xs)
  dash := head?_append_semicolon (by decide)
  star := head?_append_semicolon (by decide)

theorem fragmentLength_append_semicolon (hns : ∀ c ∈ ns, Text.isWord c = true) :
    fragmentLength ns before (xs ++ ';' :: more) = fragmentLength ns before xs := by
  induction xs generalizing before with
  | nil => rfl
  | cons c xs ih =>
    rw [List.cons_append, fragmentLength, fragmentLength,
      (startsAlike_append_semicolon hns c).endsFragment_eq, ih]

end Semicolon

/-- A measure of delimited text that stops at the end it finds. It looks at most one character
further, and a semicolon there tells it nothing. -/
structure StopsAtEnd (f : List Char → Option Nat) : Prop where
  le : ∀ {xs : List Char} {n : Nat}, f xs = some n → n ≤ xs.length
  append : ∀ {xs : List Char} {n : Nat} (more : List Char), f xs = some n →
    f (xs ++ ';' :: more) = some n
  of_append : ∀ {xs ys : List Char} {n : Nat}, f (xs ++ ys) = some n → n ≤ xs.length →
    f xs = some n

section Quoted

variable {quote : Char} {escapes : Bool} {xs ys : List Char} {n : Nat}

theorem quotedLength_plain {c : Char} (escapes : Bool) (hc : c ≠ quote)
    (he : escapes = true → c ≠ '\\') :
    quotedLength quote escapes (c :: xs) = (quotedLength quote escapes xs).map (· + 1) := by
  cases xs <;> cases escapes <;> simp_all [quotedLength]

theorem quotedLength_doubled (hq : quote ≠ '\\') (escapes : Bool) (xs : List Char) :
    quotedLength quote escapes (quote :: quote :: xs) =
      (quotedLength quote escapes xs).map (· + 2) := by
  simp [quotedLength, hq]

theorem quotedLength_closing (hq : quote ≠ '\\') (escapes : Bool)
    (hx : xs.head? ≠ some quote) : quotedLength quote escapes (quote :: xs) = some 1 := by
  cases xs with
  | nil => simp [quotedLength, hq]
  | cons d xs =>
    rw [List.head?_cons, Ne, Option.some_inj] at hx
    simp [quotedLength, hq, hx]

theorem quotedLength_pos (h : quotedLength quote escapes xs = some n) : 0 < n := by
  fun_induction quotedLength quote escapes xs generalizing n with
  | case1 | case2 | case4 => contradiction
  | case3 | case7 =>
    obtain rfl := Option.some.inj h
    exact Nat.one_pos
  | case5 | case6 | case8 =>
    obtain ⟨m, -, rfl⟩ := Option.map_eq_some_iff.mp h
    omega

theorem quotedLength_le (h : quotedLength quote escapes xs = some n) : n ≤ xs.length := by
  fun_induction quotedLength quote escapes xs generalizing n with
  | case1 | case2 | case4 => contradiction
  | case3 | case7 =>
    obtain rfl := Option.some.inj h
    exact Nat.le_add_left 1 _
  | case5 _ _ _ _ ih | case6 _ _ ih | case8 _ _ _ _ _ ih =>
    obtain ⟨m, hm, rfl⟩ := Option.map_eq_some_iff.mp h
    exact Nat.add_le_add_right (ih hm) _

theorem quotedLength_append (h : quotedLength quote escapes xs = some n)
    (hy : ys.head? ≠ some quote) : quotedLength quote escapes (xs ++ ys) = some n := by
  fun_induction quotedLength quote escapes xs generalizing n with
  | case1 => contradiction
  | case2 => contradiction
  | case3 he =>
    cases ys with
    | nil => rwa [List.append_nil, quotedLength, if_neg he, if_pos rfl]
    | cons d ys =>
      have hd : d ≠ quote := fun hd => hy (congrArg some hd)
      rwa [List.singleton_append, quotedLength, if_neg he, if_pos rfl, if_neg hd]
  | case4 => contradiction
  | case5 c d cs he ih =>
    obtain ⟨m, hm, rfl⟩ := Option.map_eq_some_iff.mp h
    rw [List.cons_append, List.cons_append, quotedLength, if_pos he, ih hm]
    rfl
  | case6 cs he ih =>
    obtain ⟨m, hm, rfl⟩ := Option.map_eq_some_iff.mp h
    rw [List.cons_append, List.cons_append, quotedLength, if_neg he, if_pos rfl, if_pos rfl,
      ih hm]
    rfl
  | case7 d cs hd he =>
    rw [List.cons_append, List.cons_append, quotedLength, if_neg he, if_pos rfl, if_neg hd, h]
  | case8 c d cs he hc ih =>
    obtain ⟨m, hm, rfl⟩ := Option.map_eq_some_iff.mp h
    have hcs := ih hm
    rw [List.cons_append] at hcs
    rw [List.cons_append, List.cons_append, quotedLength, if_neg he, if_neg hc, hcs]
    rfl

theorem quotedLength_of_append (h : quotedLength quote escapes (xs ++ ys) = some n)
    (hn : n ≤ xs.length) : quotedLength quote escapes xs = some n := by
  fun_induction quotedLength quote escapes xs generalizing n with
  | case1 =>
    have hpos := quotedLength_pos h
    rw [List.length_nil] at hn
    omega
  | case2 c he =>
    cases ys with
    | nil => simp [quotedLength, he] at h
    | cons d ys =>
      rw [List.singleton_append, quotedLength, if_pos he] at h
      obtain ⟨m, -, rfl⟩ := Option.map_eq_some_iff.mp h
      rw [List.length_singleton] at hn
      omega
  | case3 he =>
    cases ys with
    | nil => rwa [List.append_nil, quotedLength, if_neg he, if_pos rfl] at h
    | cons d ys =>
      rw [List.singleton_append, quotedLength, if_neg he, if_pos rfl] at h
      by_cases hd : d = quote
      · rw [if_pos hd] at h
        obtain ⟨m, -, rfl⟩ := Option.map_eq_some_iff.mp h
        rw [List.length_singleton] at hn
        omega
      · rwa [if_neg hd] at h
  | case4 c he hc =>
    cases ys with
    | nil => simp [quotedLength, he, hc] at h
    | cons d ys =>
      rw [List.singleton_append, quotedLength, if_neg he, if_neg hc] at h
      obtain ⟨m, hm, rfl⟩ := Option.map_eq_some_iff.mp h
      have hpos := quotedLength_pos hm
      rw [List.length_singleton] at hn
      omega
  | case5 c d cs he ih =>
    rw [List.cons_append, List.cons_append, quotedLength, if_pos he] at h
    obtain ⟨m, hm, rfl⟩ := Option.map_eq_some_iff.mp h
    rw [List.length_cons, List.length_cons] at hn
    rw [ih hm (by omega)]
    rfl
  | case6 cs he ih =>
    rw [List.cons_append, List.cons_append, quotedLength, if_neg he, if_pos rfl, if_pos rfl] at h
    obtain ⟨m, hm, rfl⟩ := Option.map_eq_some_iff.mp h
    rw [List.length_cons, List.length_cons] at hn
    rw [ih hm (by omega)]
    rfl
  | case7 d cs hd he =>
    rwa [List.cons_append, List.cons_append, quotedLength, if_neg he, if_pos rfl,
      if_neg hd] at h
  | case8 c d cs he hc ih =>
    rw [List.cons_append, List.cons_append, quotedLength, if_neg he, if_neg hc,
      ← List.cons_append] at h
    obtain ⟨m, hm, rfl⟩ := Option.map_eq_some_iff.mp h
    rw [List.length_cons] at hn
    rw [ih hm (by omega)]
    rfl

theorem stopsAtEnd_quotedLength (hq : quote ≠ ';') (escapes : Bool) :
    StopsAtEnd (quotedLength quote escapes) where
  le := quotedLength_le
  append := fun _ h => quotedLength_append h fun hq' => hq (Option.some.inj hq').symm
  of_append := quotedLength_of_append

end Quoted

section Comments

variable {depth n : Nat} {xs ys : List Char}

theorem commentLength_cons {c : Char} {cs : List Char}
    (hopen : c = '/' → cs.head? ≠ some '*') (hclose : c = '*' → cs.head? ≠ some '/') :
    commentLength depth (c :: cs) = (commentLength depth cs).map (· + 1) := by
  rw [commentLength]
  · rintro ds rfl rfl
    exact hopen rfl rfl
  · rintro ds rfl rfl
    exact hclose rfl rfl

theorem commentLength_ge_two (h : commentLength depth xs = some n) : 2 ≤ n := by
  fun_induction commentLength depth xs generalizing n with
  | case1 | case3 =>
    obtain ⟨m, -, rfl⟩ := Option.map_eq_some_iff.mp h
    omega
  | case2 =>
    obtain rfl := Option.some.inj h
    exact Nat.le_refl 2
  | case4 _ _ _ _ _ ih =>
    obtain ⟨m, hm, rfl⟩ := Option.map_eq_some_iff.mp h
    have := ih hm
    omega
  | case5 => contradiction

theorem commentLength_le (h : commentLength depth xs = some n) : n ≤ xs.length := by
  fun_induction commentLength depth xs generalizing n with
  | case1 _ _ ih | case3 _ _ ih | case4 _ _ _ _ _ ih =>
    obtain ⟨m, hm, rfl⟩ := Option.map_eq_some_iff.mp h
    exact Nat.add_le_add_right (ih hm) _
  | case2 =>
    obtain rfl := Option.some.inj h
    exact Nat.le_add_left 2 _
  | case5 => contradiction

theorem commentLength_append (h : commentLength depth xs = some n) (ys : List Char) :
    commentLength depth (xs ++ ys) = some n := by
  fun_induction commentLength depth xs generalizing n with
  | case1 depth cs ih =>
    obtain ⟨m, hm, rfl⟩ := Option.map_eq_some_iff.mp h
    rw [List.cons_append, List.cons_append, commentLength, ih hm]
    rfl
  | case2 cs => exact h
  | case3 cs depth ih =>
    obtain ⟨m, hm, rfl⟩ := Option.map_eq_some_iff.mp h
    rw [List.cons_append, List.cons_append, commentLength, ih hm]
    rfl
  | case4 depth c cs hopen hclose ih =>
    obtain ⟨m, hm, rfl⟩ := Option.map_eq_some_iff.mp h
    obtain ⟨d, ds, rfl⟩ : ∃ d ds, cs = d :: ds := by
      apply List.exists_cons_of_ne_nil
      rintro rfl
      contradiction
    rw [List.cons_append, commentLength_cons, ih hm]
    · rfl
    · rintro hc ⟨⟩
      exact hopen ds hc rfl
    · rintro hc ⟨⟩
      exact hclose ds hc rfl
  | case5 => contradiction

theorem commentLength_of_append (h : commentLength depth (xs ++ ys) = some n)
    (hn : n ≤ xs.length) : commentLength depth xs = some n := by
  have hge := commentLength_ge_two h
  fun_induction commentLength depth xs generalizing n with
  | case1 depth cs ih =>
    rw [List.cons_append, List.cons_append, commentLength] at h
    obtain ⟨m, hm, rfl⟩ := Option.map_eq_some_iff.mp h
    rw [List.length_cons, List.length_cons] at hn
    rw [ih hm (by omega) (commentLength_ge_two hm)]
    rfl
  | case2 cs => exact h
  | case3 cs depth ih =>
    rw [List.cons_append, List.cons_append, commentLength] at h
    obtain ⟨m, hm, rfl⟩ := Option.map_eq_some_iff.mp h
    rw [List.length_cons, List.length_cons] at hn
    rw [ih hm (by omega) (commentLength_ge_two hm)]
    rfl
  | case4 depth c cs hopen hclose ih =>
    -- The mark that ends a comment is two characters long, so `c` cannot be the last one.
    obtain ⟨d, ds, rfl⟩ : ∃ d ds, cs = d :: ds := by
      apply List.exists_cons_of_ne_nil
      rintro rfl
      rw [List.length_singleton] at hn
      omega
    rw [List.cons_append, commentLength_cons] at h
    · obtain ⟨m, hm, rfl⟩ := Option.map_eq_some_iff.mp h
      rw [List.length_cons] at hn
      rw [ih hm (by omega) (commentLength_ge_two hm)]
      rfl
    · rintro hc ⟨⟩
      exact hopen ds hc rfl
    · rintro hc ⟨⟩
      exact hclose ds hc rfl
  | case5 depth =>
    rw [List.length_nil] at hn
    omega

theorem stopsAtEnd_commentLength (depth : Nat) : StopsAtEnd (commentLength depth) where
  le := commentLength_le
  append := fun more h => commentLength_append h (';' :: more)
  of_append := commentLength_of_append

end Comments

theorem isPrefixOf_append_iff {tag xs ys : List Char} (h : tag.length ≤ xs.length) :
    tag.isPrefixOf (xs ++ ys) = true ↔ tag.isPrefixOf xs = true := by
  rw [List.isPrefixOf_iff_prefix, List.isPrefixOf_iff_prefix]
  constructor
  · intro hp
    exact List.prefix_of_prefix_length_le hp (List.prefix_append xs ys) h
  · intro hp
    exact hp.trans (List.prefix_append xs ys)

theorem findTag_add_length_le {tag xs : List Char} {k : Nat} (h : findTag tag xs = some k) :
    k + tag.length ≤ xs.length := by
  fun_induction findTag tag xs generalizing k with
  | case1 ht =>
    obtain rfl := Option.some.inj h
    simp [List.isEmpty_iff.mp ht]
  | case2 => contradiction
  | case3 c cs hp =>
    obtain rfl := Option.some.inj h
    have := (List.isPrefixOf_iff_prefix.mp hp).length_le
    omega
  | case4 c cs hp ih =>
    obtain ⟨m, hm, rfl⟩ := Option.map_eq_some_iff.mp h
    have := ih hm
    rw [List.length_cons]
    omega

/-- The first tag in a text is found whether or not more text follows. -/
theorem findTag_append_iff {tag xs ys : List Char} {k : Nat} (hk : k + tag.length ≤ xs.length) :
    findTag tag (xs ++ ys) = some k ↔ findTag tag xs = some k := by
  induction xs generalizing k with
  | nil =>
    obtain ⟨rfl, rfl⟩ : k = 0 ∧ tag = [] := by
      rw [List.length_nil] at hk
      exact ⟨by omega, List.length_eq_zero_iff.mp (by omega)⟩
    cases ys <;> simp [findTag]
  | cons c cs ih =>
    have hp : tag.isPrefixOf (c :: (cs ++ ys)) = true ↔ tag.isPrefixOf (c :: cs) = true :=
      isPrefixOf_append_iff (show tag.length ≤ (c :: cs).length by omega)
    rw [List.cons_append, findTag, findTag]
    by_cases h : tag.isPrefixOf (c :: cs) = true
    · rw [if_pos h, if_pos (hp.mpr h)]
    · rw [if_neg h, if_neg (mt hp.mp h)]
      cases k with
      | zero => simp
      | succ k =>
        rw [List.length_cons] at hk
        simpa using ih (k := k) (by omega)

/-- The measure of the rest of a string between two equal tags. -/
theorem stopsAtEnd_findTag (tag : List Char) :
    StopsAtEnd fun xs => (findTag tag xs).map (· + tag.length) where
  le := by
    intro xs n h
    obtain ⟨k, hk, rfl⟩ := Option.map_eq_some_iff.mp h
    exact findTag_add_length_le hk
  append := by
    intro xs n more h
    obtain ⟨k, hk, rfl⟩ := Option.map_eq_some_iff.mp h
    have hle := findTag_add_length_le hk
    rw [(findTag_append_iff hle).mpr hk]
    rfl
  of_append := by
    intro xs ys n h hn
    obtain ⟨k, hk, rfl⟩ := Option.map_eq_some_iff.mp h
    rw [(findTag_append_iff hn).mp hk]
    rfl

/-- A delimited token that ends in front of a semicolon is the same whatever stands behind the
semicolon. The token is measured from its character `m` on. -/
theorem StopsAtEnd.delimited {f : List Char → Option Nat} (hf : StopsAtEnd f) {kind k : TokenKind}
    {reason : IllegalReason} {xs more : List Char} {m n : Nat} (hm : m ≤ xs.length)
    (h : delimited kind reason (xs ++ ';' :: more)
      ((f ((xs ++ ';' :: more).drop m)).map (m + ·)) = (k, n))
    (hn : n ≤ xs.length) (more' : List Char) :
    Scan.delimited kind reason (xs ++ ';' :: more')
      ((f ((xs ++ ';' :: more').drop m)).map (m + ·)) = (k, n) := by
  rw [List.drop_append_of_le_length hm] at h ⊢
  cases hx : f (xs.drop m ++ ';' :: more) with
  | none =>
    rw [hx] at h
    obtain ⟨-, rfl⟩ := Prod.mk.inj h
    rw [List.length_append, List.length_cons] at hn
    omega
  | some j =>
    rw [hx] at h
    obtain ⟨rfl, rfl⟩ := Prod.mk.inj h
    have hj : j ≤ (xs.drop m).length := by
      have hmj : m + j ≤ xs.length := hn
      rw [List.length_drop]
      omega
    rw [hf.append more' (hf.of_append hx hj)]
    rfl

theorem StopsAtEnd.delimited_all {f : List Char → Option Nat} (hf : StopsAtEnd f)
    {kind k : TokenKind} {reason : IllegalReason} {xs more : List Char} {n : Nat}
    (h : Scan.delimited kind reason (xs ++ ';' :: more) (f (xs ++ ';' :: more)) = (k, n))
    (hn : n ≤ xs.length) (more' : List Char) :
    Scan.delimited kind reason (xs ++ ';' :: more') (f (xs ++ ';' :: more')) = (k, n) := by
  have hzero (o : Option Nat) : o.map (0 + ·) = o := by
    rw [show (0 + · : Nat → Nat) = id from funext Nat.zero_add, Option.map_id_fun, id]
  have hall := hf.delimited (k := k) (m := 0) (Nat.zero_le xs.length)
    (by rw [List.drop_zero, hzero]; exact h) hn more'
  rwa [List.drop_zero, hzero] at hall

theorem dollarString_eq {c : Char} {cs : List Char} {n : Nat} (hn : n ≤ cs.length + 1) :
    dollarString c cs n = delimited .stringLiteral .unterminatedString cs
      (((findTag ((c :: cs).take n) (cs.drop (n - 1))).map
        (· + ((c :: cs).take n).length)).map (n - 1 + ·)) := by
  have hlength : ((c :: cs).take n).length = n := by
    rw [List.length_take, List.length_cons]
    omega
  rw [dollarString, hlength, Option.map_map]
  congr 2
  funext k
  rw [Function.comp_apply]
  omega

theorem fragmentLength_le (ns before rest : List Char) :
    fragmentLength ns before rest ≤ rest.length := by
  induction rest generalizing before with
  | nil => exact Nat.le_refl 0
  | cons c rest ih =>
    rw [fragmentLength]
    split
    · exact Nat.zero_le _
    · exact Nat.add_le_add_right (ih (c :: before)) 1

theorem StopsAtEnd.delimited_le {f : List Char → Option Nat} (hf : StopsAtEnd f) {kind : TokenKind}
    {reason : IllegalReason} {cs : List Char} {m : Nat} (hm : m ≤ cs.length) :
    (Scan.delimited kind reason cs ((f (cs.drop m)).map (m + ·))).2 ≤ cs.length := by
  cases hx : f (cs.drop m) with
  | none => exact Nat.le_refl _
  | some j =>
    have hle := hf.le hx
    rw [List.length_drop] at hle
    show m + j ≤ cs.length
    omega

theorem StopsAtEnd.delimited_all_le {f : List Char → Option Nat} (hf : StopsAtEnd f)
    {kind : TokenKind} {reason : IllegalReason} {cs : List Char} :
    (Scan.delimited kind reason cs (f cs)).2 ≤ cs.length := by
  cases hx : f cs with
  | none => exact Nat.le_refl _
  | some j => exact hf.le hx

theorem placeholderLength_le {ns before rest : List Char} {n : Nat}
    (h : placeholderLength ns before rest = some n) : n ≤ rest.length := by
  simp only [placeholderLength, Option.bind_eq_bind, Option.bind_eq_some_iff] at h
  obtain ⟨_, _, h⟩ := h
  split at h
  · simp at h
  · simp only [Option.bind_eq_some_iff, Option.some.injEq] at h
    obtain ⟨_, _, _, _, _, _, _, _, _, _, rfl⟩ := h
    exact Nat.sub_le _ _

/-- A line comment that does not take a semicolon in ends in front of it. -/
theorem takeWhile_append_semicolon_of_le {xs more : List Char}
    (h : ((xs ++ ';' :: more).takeWhile (· != '\n')).length ≤ xs.length) (more' : List Char) :
    (xs ++ ';' :: more').takeWhile (· != '\n') = (xs ++ ';' :: more).takeWhile (· != '\n') := by
  rw [List.takeWhile_append] at h ⊢
  rw [List.takeWhile_append]
  split at h
  · rw [List.length_append, List.takeWhile_cons_of_pos (by decide), List.length_cons] at h
    omega
  · rename_i hlength
    rw [if_neg hlength, if_neg hlength]

end Scan

end TypedSql
