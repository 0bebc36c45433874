import TypedSql.Proofs.Settings.Namespace
import TypedSql.Proofs.Token.Lexeme

/-!
# Where a text can be cut

The lexemes behind a fresh place do not depend on the text in front of it. A place is fresh behind a
semicolon, behind blanks and behind a block comment. Behind a line comment it need not be, but
there a line feed follows (`Scan.Cuts.fresh_or_newline`).

A fragment can also be cut inside: what is behind a part of it is a fragment again
(`Scan.Cuts.trim`). Blanks in front of a statement can therefore be cut off together with all that
lies before them.
-/

namespace TypedSql

namespace Lexeme

/-- A lexeme that belongs to no statement, or ends one. -/
def IsOutside (l : Lexeme) : Prop :=
  l.kind = .semicolon ∨ l.kind.isComment = true ∨
    l.kind = .fragment ∧ ∀ c ∈ l.chars, Text.isBlank c = true

/-- The blanks that a fragment starts with. -/
def blanks (l : Lexeme) : List Char :=
  match l.kind with
  | .fragment => l.chars.takeWhile Text.isBlank
  | _ => []

/-- The same lexeme without the blanks that a fragment starts with. -/
def trimStart (l : Lexeme) : Lexeme :=
  ⟨l.kind, l.chars.drop l.blanks.length⟩

variable {l : Lexeme}

theorem blanks_of_fragment (h : l.kind = .fragment) :
    l.blanks = l.chars.takeWhile Text.isBlank := by
  rw [blanks, h]

theorem blanks_of_ne (h : l.kind ≠ .fragment) : l.blanks = [] := by
  unfold blanks
  split
  · contradiction
  · rfl

theorem trimStart_of_ne (h : l.kind ≠ .fragment) : l.trimStart = l := by
  rw [trimStart, blanks_of_ne h]
  rfl

theorem blanks_append_trimStart (l : Lexeme) : l.blanks ++ l.trimStart.chars = l.chars := by
  have hprefix : l.blanks <+: l.chars := by
    by_cases h : l.kind = .fragment
    · rw [blanks_of_fragment h]
      exact List.takeWhile_prefix _
    · rw [blanks_of_ne h]
      exact List.nil_prefix
  obtain ⟨rest, hrest⟩ := hprefix
  rw [trimStart, ← hrest, List.drop_left]

theorem isBlank_of_mem_blanks {c : Char} (h : c ∈ l.blanks) : Text.isBlank c = true := by
  by_cases hk : l.kind = .fragment
  · rw [blanks_of_fragment hk] at h
    exact List.mem_takeWhile_imp h
  · rw [blanks_of_ne hk] at h
    contradiction

/-- What is left of a fragment inside of a statement. -/
theorem trimStart_chars_ne_nil (hk : l.kind = .fragment) (h : ¬ l.IsOutside) :
    l.trimStart.chars ≠ [] := by
  intro hnil
  apply h
  refine .inr (.inr ⟨hk, fun c hc => ?_⟩)
  rw [← blanks_append_trimStart, hnil, List.append_nil] at hc
  exact isBlank_of_mem_blanks hc

end Lexeme

namespace Token

variable {t : Token}

theorem significantStart_eq (t : Token) : t.significantStart = t.pos.advance t.lexeme.blanks := by
  by_cases hk : t.kind = .fragment
  · rw [Lexeme.blanks_of_fragment (by exact hk), significantStart, hk]
    rfl
  · rw [Lexeme.blanks_of_ne (by exact hk), significantStart_of_ne hk]
    rfl

theorem lexeme_trimStart (t : Token) : t.trimStart.lexeme = t.lexeme.trimStart := by
  by_cases hk : t.kind = .fragment
  · have hchars := Lexeme.blanks_append_trimStart t.lexeme
    rw [Lexeme.blanks_of_fragment (by exact hk)] at hchars
    have htrim : t.lexeme.trimStart.chars = Text.trimStart t.chars :=
      List.append_cancel_left (hchars.trans (Text.takeWhile_append_trimStart t.chars).symm)
    have hlexeme : t.lexeme.trimStart = ⟨.fragment, Text.trimStart t.chars⟩ := by
      rw [← htrim, ← hk]
      rfl
    have htoken : t.trimStart =
        ⟨.fragment, String.ofList (Text.trimStart t.chars), t.significantStart⟩ := by
      rw [trimStart, hk]
    rw [htoken, hlexeme]
    exact congrArg (Lexeme.mk .fragment) String.toList_ofList
  · rw [Lexeme.trimStart_of_ne (by exact hk), trimStart_of_ne hk]

theorem blanks_append_trimStart (t : Token) : t.lexeme.blanks ++ t.trimStart.chars = t.chars := by
  have hchars : t.trimStart.chars = t.lexeme.trimStart.chars :=
    congrArg Lexeme.chars t.lexeme_trimStart
  rw [hchars, Lexeme.blanks_append_trimStart]
  rfl

theorem isOutside_lexeme_iff : t.lexeme.IsOutside ↔ t.kind = .semicolon ∨ t.isTrivia = true := by
  simp [Lexeme.IsOutside, isTrivia, isBlank, lexeme]

end Token

namespace Scan

section Fragments

variable {ns before front rest : List Char} {c : Char} {n : Nat}

/-- No token starts inside of a fragment. -/
theorem fragmentLength_of_append
    (h : fragmentLength ns before (front ++ c :: rest) = front.length + (n + 1)) :
    endsFragment ns (front.reverse ++ before) c rest = false ∧
      fragmentLength ns (c :: (front.reverse ++ before)) rest = n := by
  induction front generalizing before with
  | nil =>
    rw [List.nil_append, fragmentLength] at h
    split at h
    · contradiction
    · rename_i hc
      refine ⟨by simpa using hc, ?_⟩
      rw [List.length_nil] at h
      rw [List.reverse_nil, List.nil_append]
      omega
  | cons d front ih =>
    rw [List.cons_append, fragmentLength] at h
    split at h
    · rw [List.length_cons] at h
      omega
    · rw [List.reverse_cons, List.append_assoc, List.singleton_append]
      apply ih
      rw [List.length_cons] at h
      omega

theorem lexeme_of_fragment_append (hns : ∀ d ∈ ns, Text.isWord d = true) (hne : ns ≠ [])
    {b : Char} (h : lexeme ns before b (front ++ c :: rest) = (.fragment, front.length + (n + 1))) :
    lexeme ns ((b :: front).reverse ++ before) c rest = (.fragment, n) := by
  have hlength := length_of_kind_fragment (congrArg Prod.fst h)
  rw [h] at hlength
  obtain ⟨hinside, hn⟩ := fragmentLength_of_append hlength.symm
  rw [List.reverse_cons, List.append_assoc, List.singleton_append]
  have hkind : (lexeme ns (front.reverse ++ b :: before) c rest).1 = .fragment := by
    by_contra hkind
    rw [(endsFragment_iff hns hne).mpr hkind] at hinside
    contradiction
  exact Prod.ext hkind ((length_of_kind_fragment hkind).trans hn)

end Fragments

section Comments

variable {ns before cs xs : List Char} {c : Char} {depth n : Nat}

theorem exists_take_commentLength (h : commentLength depth xs = some n) :
    ∃ ys, xs.take n = ys ++ ['/'] := by
  fun_induction commentLength depth xs generalizing n with
  | case1 depth cs ih =>
    obtain ⟨m, hm, rfl⟩ := Option.map_eq_some_iff.mp h
    obtain ⟨ys, hys⟩ := ih hm
    exact ⟨'/' :: '*' :: ys, congrArg ('/' :: '*' :: ·) hys⟩
  | case2 cs =>
    obtain rfl := Option.some.inj h
    exact ⟨['*'], rfl⟩
  | case3 cs depth ih =>
    obtain ⟨m, hm, rfl⟩ := Option.map_eq_some_iff.mp h
    obtain ⟨ys, hys⟩ := ih hm
    exact ⟨'*' :: '/' :: ys, congrArg ('*' :: '/' :: ·) hys⟩
  | case4 depth c cs _ _ ih =>
    obtain ⟨m, hm, rfl⟩ := Option.map_eq_some_iff.mp h
    obtain ⟨ys, hys⟩ := ih hm
    exact ⟨c :: ys, congrArg (c :: ·) hys⟩
  | case5 => contradiction

/-- A block comment ends in a slash. -/
theorem exists_take_of_kind_blockComment (hns : ∀ d ∈ ns, Text.isWord d = true) (hne : ns ≠ [])
    (h : lexeme ns before c cs = (.blockComment, n)) : ∃ ys, c :: cs.take n = ys ++ ['/'] := by
  obtain ⟨rfl, hstar⟩ := eq_of_kind_blockComment (congrArg Prod.fst h)
  obtain ⟨ds, rfl⟩ := List.head?_eq_some_iff.mp hstar
  have hdollar : dollarTagLength before ('/' :: '*' :: ds) = none :=
    dollarTagLength_of_ne (by decide)
  have hplace : placeholderLength ns before ('/' :: '*' :: ds) = none :=
    placeholderLength_of_not_isWord hns hne (by decide)
  have hcomment : delimited .blockComment .unterminatedComment ('*' :: ds)
      ((commentLength 0 ds).map (· + 1)) = (.blockComment, n) := by
    simpa [lexeme, hdollar, hplace] using h
  cases hlength : commentLength 0 ds with
  | none =>
    rw [hlength] at hcomment
    simp [delimited] at hcomment
  | some m =>
    rw [hlength] at hcomment
    obtain rfl : m + 1 = n := congrArg Prod.snd hcomment
    obtain ⟨ys, hys⟩ := exists_take_commentLength hlength
    exact ⟨'/' :: '*' :: ys, congrArg ('/' :: '*' :: ·) hys⟩

/-- Behind a line comment a line feed follows, or nothing. -/
theorem head?_drop_of_kind_lineComment (hns : ∀ d ∈ ns, Text.isWord d = true) (hne : ns ≠ [])
    (h : lexeme ns before c cs = (.lineComment, n)) : ∀ d ∈ (cs.drop n).head?, d = '\n' := by
  obtain ⟨rfl, hdash⟩ := eq_of_kind_lineComment (congrArg Prod.fst h)
  obtain ⟨ds, rfl⟩ := List.head?_eq_some_iff.mp hdash
  have hdollar : dollarTagLength before ('-' :: '-' :: ds) = none :=
    dollarTagLength_of_ne (by decide)
  have hplace : placeholderLength ns before ('-' :: '-' :: ds) = none :=
    placeholderLength_of_not_isWord hns hne (by decide)
  obtain rfl : (('-' :: ds).takeWhile (· != '\n')).length = n := by
    simpa [lexeme, hdollar, hplace] using congrArg Prod.snd h
  obtain ⟨run, rest, hsplit, hrun, hrest⟩ :=
    Runs.exists_eq_append (fun d : Char => d != '\n') ('-' :: ds)
  rw [hsplit, Runs.takeWhile_append hrun hrest, List.drop_left]
  intro d hd
  simpa using hrest d hd

end Comments

section Fresh

variable {ns before after blanks : List Char} {ls : List Lexeme} {l : Lexeme}

theorem fresh_cons {c : Char} (hc : Text.isWord c = false ∧ c ≠ '.') (before : List Char) :
    Fresh (c :: before) := by
  rintro d ⟨⟩
  exact hc

theorem fresh_cons_of_isBlank {c : Char} (hc : Text.isBlank c = true) (before : List Char) :
    Fresh (c :: before) := by
  apply fresh_cons
  constructor
  · by_contra hword
    rw [Text.isBlank_of_isWord (by simpa using hword)] at hc
    contradiction
  · rintro rfl
    exact absurd hc (by decide)

/-- A place behind blanks is fresh. -/
theorem fresh_reverse_append_of_isBlank (hblanks : ∀ c ∈ blanks, Text.isBlank c = true)
    (h : blanks = [] → Fresh before) : Fresh (blanks.reverse ++ before) := by
  rcases List.eq_nil_or_concat blanks with rfl | ⟨front, c, rfl⟩
  · exact h rfl
  · rw [List.concat_eq_append, List.reverse_append, List.reverse_singleton]
    apply fresh_cons_of_isBlank
    apply hblanks
    simp

/-- A lexeme outside of statements leads to a fresh place, or to the end of a line. -/
theorem Cuts.fresh_or_newline (hns : ∀ d ∈ ns, Text.isWord d = true) (hne : ns ≠ [])
    (h : Cuts ns before [l] after) (hl : l.IsOutside) :
    Fresh (l.chars.reverse ++ before) ∨ ∀ d ∈ after.head?, d = '\n' := by
  cases h with
  | @cons _ _ cs c kind _ head tail =>
    rw [Lexeme.text_nil, List.nil_append] at head
    rcases hl with hk | hk | ⟨-, hblank⟩
    · left
      obtain ⟨rfl, hlength⟩ := eq_of_kind_semicolon ((congrArg Prod.fst head).trans hk)
      rw [head, List.length_eq_zero_iff] at hlength
      subst hlength
      exact fresh_cons (by decide) before
    · cases kind with
      | lineComment =>
        right
        have hafter := head?_drop_of_kind_lineComment hns hne head
        rwa [List.drop_left] at hafter
      | blockComment =>
        left
        obtain ⟨ys, hys⟩ := exists_take_of_kind_blockComment hns hne head
        rw [List.take_left] at hys
        simp only [hys, List.reverse_append, List.reverse_singleton, List.singleton_append]
        exact fresh_cons (by decide) _
      | _ => contradiction
    · left
      exact fresh_reverse_append_of_isBlank hblank fun hnil => absurd hnil (List.cons_ne_nil c cs)

/-- Lexemes behind a part of a fragment, which is cut off. -/
theorem Cuts.trim (hns : ∀ d ∈ ns, Text.isWord d = true) (hne : ns ≠ []) {front cs : List Char}
    (hcs : cs ≠ []) (h : Cuts ns before (⟨.fragment, front ++ cs⟩ :: ls) after) :
    Cuts ns (front.reverse ++ before) (⟨.fragment, cs⟩ :: ls) after := by
  obtain ⟨c, cs, rfl⟩ := List.exists_cons_of_ne_nil hcs
  cases front with
  | nil => exact h
  | cons b front =>
    cases h with
    | cons head tail =>
      apply Cuts.cons
      · apply lexeme_of_fragment_append hns hne
        simpa using head
      · simpa using tail

/-- A terminated statement behind what belongs to no statement is cut into the same lexemes when it
is cut out of the text, without the blanks in front of it. -/
theorem Cuts.cut_out (hns : ∀ d ∈ ns, Text.isWord d = true) (hne : ns ≠ []) {ms : List Lexeme}
    (h : Cuts ns [] (ls ++ (l :: ms ++ [⟨.semicolon, [';']⟩])) after)
    (hls : ∀ m ∈ ls.getLast?, m.IsOutside) (hl : ¬ l.IsOutside) :
    Cuts ns [] (l.trimStart :: ms ++ [⟨.semicolon, [';']⟩]) [] := by
  have hright := h.of_append_right
  rw [List.append_nil] at hright
  have hfirst : l.blanks = [] → Fresh (Lexeme.text ls).reverse := by
    intro hblanks
    rcases List.eq_nil_or_concat ls with rfl | ⟨front, m, rfl⟩
    · exact fresh_nil
    rw [List.concat_eq_append] at h hls hright ⊢
    have hm := h.of_append.of_append_right
    rw [List.append_nil] at hm
    rcases hm.fresh_or_newline hns hne (hls m (by simp)) with hfresh | hnewline
    · simpa using hfresh
    -- The statement starts with a line feed, which is a blank of a fragment.
    · exfalso
      cases hright with
      | @cons _ _ cs c kind _ head tail =>
        obtain rfl : c = '\n' := hnewline c rfl
        have hblank : ∀ d ∈ ns.head?, Text.isBlank d = false := fun d hd =>
          Text.isBlank_of_isWord (hns d (List.mem_of_head? hd))
        rw [lexeme_of_isBlank hblank hne (by decide), if_neg (by decide)] at head
        obtain rfl : TokenKind.fragment = kind := congrArg Prod.fst head
        rw [Lexeme.blanks_of_fragment rfl, List.takeWhile_cons_of_pos (by decide)] at hblanks
        contradiction
  have hcut : Cuts ns (l.blanks.reverse ++ (Lexeme.text ls).reverse)
      (l.trimStart :: ms ++ [⟨.semicolon, [';']⟩]) after := by
    by_cases hk : l.kind = .fragment
    · obtain ⟨kind, chars⟩ := l
      obtain rfl : kind = .fragment := hk
      apply Cuts.trim hns hne (Lexeme.trimStart_chars_ne_nil rfl hl)
      rwa [Lexeme.blanks_append_trimStart]
    · rw [Lexeme.blanks_of_ne hk, Lexeme.trimStart_of_ne hk]
      exact hright
  have hfresh := fresh_reverse_append_of_isBlank (fun c => Lexeme.isBlank_of_mem_blanks) hfirst
  exact (hcut.fresh_append (p := []) hfresh fresh_nil).through_semicolon hns hne []

end Fresh

end Scan

end TypedSql
