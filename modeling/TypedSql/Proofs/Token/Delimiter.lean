import Mathlib.Order.Lattice.Nat
import TypedSql.Proofs.Token.Call

/-!
# The grammar of delimited tokens

Quoted strings, quoted identifiers, dollar quotes and block comments are given here by what their
texts look like, without a scanner that reads them (`Delimiter.Closes`). A text may be closed at no
place, or at many of them, and then the first one counts.

Each kind of token has a measure that reads its text from left to right. That such a measure finds
the first place is one statement for all of them (`Scan.FindsFirst`).
-/

namespace TypedSql

/-- A delimited token by the way it opens. -/
inductive Delimiter where
  /-- A single quote. With `escapes`, a backslash takes the next character along. -/
  | string (escapes : Bool)
  /-- A double quote. -/
  | identifier
  /-- A tag between two dollar signs. -/
  | dollar (tag : List Char)
  /-- A slash and a star. -/
  | comment

/-- Whether a token of this kind has delimiters, of which the second may be missing. -/
def TokenKind.isDelimited : TokenKind → Bool
  | .stringLiteral | .quotedIdentifier | .blockComment => true
  | .illegal reason => reason != .character
  | .endOfInput | .lineComment | .fragment | .semicolon | .placeholder => false

namespace Scan

/-- What may stand between two quotes: other characters and doubled quotes. With `escapes`, a
backslash is no character of its own, it stands with any character behind it. -/
inductive QuotedBody (quote : Char) (escapes : Bool) : List Char → Prop where
  | nil : QuotedBody quote escapes []
  | plain {c : Char} {cs : List Char} (other : c ≠ quote)
      (no_escape : escapes = true → c ≠ '\\') (rest : QuotedBody quote escapes cs) :
      QuotedBody quote escapes (c :: cs)
  | doubled {cs : List Char} (rest : QuotedBody quote escapes cs) :
      QuotedBody quote escapes (quote :: quote :: cs)
  | escaped {cs : List Char} (escape : escapes = true) (c : Char)
      (rest : QuotedBody quote escapes cs) : QuotedBody quote escapes ('\\' :: c :: cs)

/-- A text from quote to quote that ends here: the quote behind the body is no half of a doubled
one. -/
def Quoted (quote : Char) (escapes : Bool) (text after : List Char) : Prop :=
  ∃ body, QuotedBody quote escapes body ∧ text = quote :: (body ++ [quote]) ∧
    after.head? ≠ some quote

/-- How much deeper in comments the end of a text is than its start: the marks that open a comment
less the marks that close one, read from left to right without overlap. -/
def nesting : List Char → Int
  | '/' :: '*' :: cs => nesting cs + 1
  | '*' :: '/' :: cs => nesting cs - 1
  | _ :: cs => nesting cs
  | [] => 0

/-- A placeholder call starts here. -/
def CallStarts (ns before rest : List Char) : Prop :=
  Fresh before ∧ ∃ ident call, IsCall ns ident call ∧ call <+: rest

/-- A dollar quote with this tag opens here. -/
def TagStarts (before rest tag : List Char) : Prop :=
  followsWord before = false ∧ (tag = [] ∨ Text.IsIdent tag) ∧ '$' :: (tag ++ ['$']) <+: rest

end Scan

namespace Delimiter

/-- What a token is that has both delimiters. -/
def kind : Delimiter → TokenKind
  | string _ | dollar _ => .stringLiteral
  | identifier => .quotedIdentifier
  | comment => .blockComment

/-- What is wrong with a token that does not end. -/
def reason : Delimiter → IllegalReason
  | string _ | dollar _ => .unterminatedString
  | identifier => .unterminatedIdentifier
  | comment => .unterminatedComment

/-- A text from one delimiter to the other, in front of the text `after`. A text of this kind may
hold shorter ones. -/
def Closes : (d : Delimiter) → (text after : List Char) → Prop
  | string escapes, text, after => Scan.Quoted '\'' escapes text after
  | identifier, text, after => Scan.Quoted '"' false text after
  | dollar tag, text, _ => ∃ body, text = '$' :: (tag ++ ['$']) ++ (body ++ '$' :: (tag ++ ['$']))
  | comment, text, _ => ∃ body, text = '/' :: '*' :: body ∧ Scan.nesting text = 0

/-- The lengths at which a text with this delimiter at its start is closed. -/
def lengths (d : Delimiter) (rest : List Char) : Set Nat :=
  {n | ∃ text after, rest = text ++ after ∧ d.Closes text after ∧ n = text.length}

/-- A delimited token opens here. A dollar sign that continues a word opens nothing, and a single
quote opens a string with escapes directly behind a letter E that is a word of its own. -/
def Opens (ns before rest : List Char) : Delimiter → Prop
  | string escapes => ['\''] <+: rest ∧ ¬ Scan.CallStarts ns before rest ∧
      (escapes = true ↔
        ∃ e front, before = e :: front ∧ (e = 'e' ∨ e = 'E') ∧ Scan.followsWord front = false)
  | identifier => ['"'] <+: rest ∧ ¬ Scan.CallStarts ns before rest
  | dollar tag => Scan.TagStarts before rest tag
  | comment => ['/', '*'] <+: rest ∧ ¬ Scan.CallStarts ns before rest

end Delimiter

namespace Scan

/-- A measure finds the least of some lengths, if there is any. -/
def FindsFirst (measure : Option Nat) (lengths : Set Nat) : Prop :=
  ∀ n, measure = some n ↔ IsLeast lengths n

namespace FindsFirst

variable {measure : Option Nat} {lengths : Set Nat} {k : Nat}

theorem eq_none_iff (h : FindsFirst measure lengths) : measure = none ↔ lengths = ∅ := by
  constructor
  · rintro rfl
    by_contra hne
    rw [← Ne, ← Set.nonempty_iff_ne_empty] at hne
    have hleast : IsLeast lengths (sInf lengths) := ⟨Nat.sInf_mem hne, fun _ => Nat.sInf_le⟩
    cases (h _).mpr hleast
  · rintro rfl
    apply Option.eq_none_iff_forall_ne_some.mpr
    intro n hn
    exact ((h n).mp hn).1

/-- There is one length at most. -/
theorem of_unique (h : ∀ n, measure = some n ↔ n ∈ lengths) : FindsFirst measure lengths := by
  intro n
  rw [h]
  refine ⟨fun hn => ⟨hn, fun m hm => ?_⟩, fun hn => hn.1⟩
  obtain rfl : n = m := Option.some.inj (((h n).mpr hn).symm.trans ((h m).mpr hm))
  exact Nat.le_refl _

/-- The same measure counted from a place further ahead. -/
theorem map_add {lengths' : Set Nat} (h : FindsFirst measure lengths)
    (hmem : ∀ n, n + k ∈ lengths' ↔ n ∈ lengths) (hk : ∀ n ∈ lengths', k ≤ n) :
    FindsFirst (measure.map (· + k)) lengths' := by
  have hsub (n : Nat) (hn : n ∈ lengths') : n - k ∈ lengths := by
    rwa [← hmem, Nat.sub_add_cancel (hk n hn)]
  intro n
  constructor
  · intro hn
    obtain ⟨m, hm, rfl⟩ := Option.map_eq_some_iff.mp hn
    obtain ⟨hm, hleast⟩ := (h m).mp hm
    refine ⟨(hmem m).mpr hm, fun j hj => ?_⟩
    have hkj := hk j hj
    have hle := hleast (hsub j hj)
    show m + k ≤ j
    omega
  · rintro ⟨hn, hleast⟩
    have hkn := hk n hn
    have hm : measure = some (n - k) := by
      refine (h (n - k)).mpr ⟨hsub n hn, fun j hj => ?_⟩
      have hle := hleast ((hmem j).mpr hj)
      omega
    rw [hm, Option.map_some, Nat.sub_add_cancel hkn]

end FindsFirst

section Quotes

variable {quote : Char} {escapes : Bool} {body after xs : List Char} {n : Nat}

theorem quotedLength_of_body (hq : quote ≠ '\\') (h : QuotedBody quote escapes body)
    (hafter : after.head? ≠ some quote) :
    quotedLength quote escapes (body ++ quote :: after) = some (body.length + 1) := by
  induction h with
  | nil => exact quotedLength_closing hq escapes hafter
  | plain other no_escape _ ih =>
    rw [List.cons_append, quotedLength_plain escapes other no_escape, ih]
    rfl
  | doubled _ ih =>
    rw [List.cons_append, List.cons_append, quotedLength_doubled hq, ih]
    rfl
  | escaped escape c _ ih =>
    rw [List.cons_append, List.cons_append, quotedLength, ih, if_pos (by simp [escape])]
    rfl

theorem exists_body_of_quotedLength (h : quotedLength quote escapes xs = some n) :
    ∃ body after, QuotedBody quote escapes body ∧ xs = body ++ quote :: after ∧
      after.head? ≠ some quote ∧ body.length + 1 = n := by
  fun_induction quotedLength quote escapes xs generalizing n with
  | case1 | case2 | case4 => contradiction
  | case3 => exact ⟨[], [], .nil, rfl, by simp, Option.some.inj h⟩
  | case5 c d cs he ih =>
    obtain ⟨m, hm, rfl⟩ := Option.map_eq_some_iff.mp h
    obtain ⟨body, after, hbody, rfl, hafter, rfl⟩ := ih hm
    obtain ⟨rfl, rfl⟩ : escapes = true ∧ c = '\\' := by simpa using he
    exact ⟨'\\' :: d :: body, after, .escaped rfl d hbody, rfl, hafter, rfl⟩
  | case6 cs _ ih =>
    obtain ⟨m, hm, rfl⟩ := Option.map_eq_some_iff.mp h
    obtain ⟨body, after, hbody, rfl, hafter, rfl⟩ := ih hm
    exact ⟨quote :: quote :: body, after, .doubled hbody, rfl, hafter, rfl⟩
  | case7 d cs hd => exact ⟨[], d :: cs, .nil, rfl, by simpa using hd, Option.some.inj h⟩
  | case8 c d cs he hc ih =>
    obtain ⟨m, hm, rfl⟩ := Option.map_eq_some_iff.mp h
    obtain ⟨body, after, hbody, hxs, hafter, rfl⟩ := ih hm
    have hplain : escapes = true → c ≠ '\\' := by simpa using he
    exact ⟨c :: body, after, .plain hc hplain hbody, congrArg (c :: ·) hxs, hafter, rfl⟩

/-- The text behind an opening quote is read up to the closing quote, of which there is one at
most. -/
theorem quotedLength_eq_some_iff (hq : quote ≠ '\\') :
    quotedLength quote escapes xs = some n ↔
      ∃ body after, QuotedBody quote escapes body ∧ xs = body ++ quote :: after ∧
        after.head? ≠ some quote ∧ body.length + 1 = n := by
  refine ⟨exists_body_of_quotedLength, ?_⟩
  rintro ⟨body, after, hbody, rfl, hafter, rfl⟩
  exact quotedLength_of_body hq hbody hafter

end Quotes

section Comments

variable {depth n : Nat} {cs : List Char} {c : Char}

theorem nesting_cons (hopen : c = '/' → cs.head? ≠ some '*')
    (hclose : c = '*' → cs.head? ≠ some '/') : nesting (c :: cs) = nesting cs := by
  rw [nesting]
  · rintro ds rfl rfl
    exact hopen rfl rfl
  · rintro ds rfl rfl
    exact hclose rfl rfl

@[simp] theorem nesting_nil : nesting [] = 0 := rfl

@[simp] theorem nesting_singleton (c : Char) : nesting [c] = 0 :=
  nesting_cons (fun _ => nofun) fun _ => nofun

/-- Half of a mark neither opens nor closes a comment. -/
theorem two_le_of_nesting_take {a b : Char}
    (h : nesting ((a :: b :: cs).take n) = -(depth + 1 : Int)) : 2 ≤ n := by
  match n, h with
  | 0, h =>
    rw [List.take_zero, nesting_nil] at h
    omega
  | 1, h =>
    rw [List.take_succ_cons, List.take_zero, nesting_singleton] at h
    omega
  | n + 2, _ => exact Nat.le_add_left 2 n

/-- A comment ends where the nesting first is one less than outside of it. -/
theorem findsFirst_commentLength (depth : Nat) (cs : List Char) :
    FindsFirst (commentLength depth cs)
      {n | n ≤ cs.length ∧ nesting (cs.take n) = -(depth + 1 : Int)} := by
  fun_induction commentLength depth cs with
  | case1 depth cs ih =>
    refine ih.map_add (fun n => ?_) fun n hn => two_le_of_nesting_take hn.2
    simp [nesting]
    omega
  | case2 cs =>
    have htwo : 2 ∈ {n | n ≤ ('*' :: '/' :: cs).length ∧
        nesting (('*' :: '/' :: cs).take n) = -(((0 : Nat) : Int) + 1)} :=
      ⟨Nat.le_add_left 2 _, by simp [nesting]⟩
    intro n
    constructor
    · rintro ⟨⟩
      exact ⟨htwo, fun n hn => two_le_of_nesting_take hn.2⟩
    · rintro ⟨hn, hleast⟩
      rw [Nat.le_antisymm (hleast htwo) (two_le_of_nesting_take hn.2)]
  | case3 cs depth ih =>
    refine ih.map_add (fun n => ?_) fun n hn => two_le_of_nesting_take hn.2
    simp [nesting]
    omega
  | case4 depth c cs hopen hclose ih =>
    have hhead {d : Char} {n : Nat} (h : (cs.take n).head? = some d) : ∃ ds, cs = d :: ds := by
      rw [List.head?_take] at h
      split at h
      · contradiction
      · exact List.head?_eq_some_iff.mp h
    have hnesting (n : Nat) : nesting (c :: cs.take n) = nesting (cs.take n) := by
      apply nesting_cons
      · intro hc hstar
        obtain ⟨ds, hds⟩ := hhead hstar
        exact hopen ds hc hds
      · intro hc hslash
        obtain ⟨ds, hds⟩ := hhead hslash
        exact hclose ds hc hds
    refine ih.map_add (fun n => ?_) fun n hn => ?_
    · simp [hnesting]
    · rw [Nat.one_le_iff_ne_zero]
      rintro rfl
      simp at hn
      omega
  | case5 depth =>
    intro n
    simp [IsLeast]
    omega

end Comments

section Tags

variable {tag : List Char}

theorem findsFirst_findTag (tag xs : List Char) :
    FindsFirst (findTag tag xs) {k | k ≤ xs.length ∧ tag <+: xs.drop k} := by
  induction xs with
  | nil =>
    apply FindsFirst.of_unique
    intro k
    cases tag <;> simp [findTag, eq_comm]
  | cons c xs ih =>
    rw [findTag]
    by_cases htag : tag.isPrefixOf (c :: xs) = true
    · rw [if_pos htag]
      rw [List.isPrefixOf_iff_prefix] at htag
      have hzero : 0 ∈ {k | k ≤ (c :: xs).length ∧ tag <+: (c :: xs).drop k} :=
        ⟨Nat.zero_le _, htag⟩
      intro k
      constructor
      · rintro ⟨⟩
        exact ⟨hzero, fun _ _ => Nat.zero_le _⟩
      · rintro ⟨-, hleast⟩
        rw [Nat.le_zero.mp (hleast hzero)]
    · rw [if_neg htag]
      rw [List.isPrefixOf_iff_prefix] at htag
      refine ih.map_add (fun k => ?_) fun k hk => ?_
      · simp
      · rw [Nat.one_le_iff_ne_zero]
        rintro rfl
        exact htag hk.2

end Tags

end Scan

namespace Delimiter

open Scan

theorem mem_lengths_iff {d : Delimiter} {rest : List Char} {n : Nat} :
    n ∈ d.lengths rest ↔ n ≤ rest.length ∧ d.Closes (rest.take n) (rest.drop n) := by
  constructor
  · rintro ⟨text, after, rfl, hcloses, rfl⟩
    rw [List.take_left, List.drop_left, List.length_append]
    exact ⟨Nat.le_add_right _ _, hcloses⟩
  · rintro ⟨hn, hcloses⟩
    exact ⟨_, _, (List.take_append_drop n rest).symm, hcloses, (List.length_take_of_le hn).symm⟩

theorem findsFirst_quoted {quote : Char} (hq : quote ≠ '\\') (escapes : Bool) (cs : List Char) :
    FindsFirst ((quotedLength quote escapes cs).map (· + 1))
      {n | ∃ text after, quote :: cs = text ++ after ∧ Quoted quote escapes text after ∧
        n = text.length} := by
  have hmeasure : FindsFirst (quotedLength quote escapes cs)
      {n | ∃ body after, QuotedBody quote escapes body ∧ cs = body ++ quote :: after ∧
        after.head? ≠ some quote ∧ body.length + 1 = n} :=
    .of_unique fun n => quotedLength_eq_some_iff hq
  refine hmeasure.map_add (fun n => ?_) fun n hn => ?_
  · constructor
    · rintro ⟨text, after, htext, ⟨body, hbody, rfl, hafter⟩, hn⟩
      exact ⟨body, after, hbody, by simpa using htext, hafter, by simpa using hn.symm⟩
    · rintro ⟨body, after, hbody, rfl, hafter, rfl⟩
      exact ⟨_, after, by simp, ⟨body, hbody, rfl, hafter⟩, by simp⟩
  · obtain ⟨_, _, -, ⟨body, -, rfl, -⟩, rfl⟩ := hn
    exact Nat.le_add_left 1 _

theorem findsFirst_comment (cs : List Char) :
    FindsFirst ((commentLength 0 cs).map (· + 2)) (comment.lengths ('/' :: '*' :: cs)) := by
  refine (findsFirst_commentLength 0 cs).map_add (fun n => ?_) fun n hn => ?_
  · rw [mem_lengths_iff]
    simp [Closes, nesting]
    omega
  · obtain ⟨_, _, -, ⟨body, rfl, -⟩, rfl⟩ := hn
    exact Nat.le_add_left 2 _

theorem findsFirst_dollar (tag cs : List Char) :
    FindsFirst ((findTag ('$' :: (tag ++ ['$'])) cs).map (· + 2 * (tag.length + 2)))
      ((dollar tag).lengths ('$' :: (tag ++ ['$']) ++ cs)) := by
  refine (findsFirst_findTag _ cs).map_add (fun n => ?_) fun n hn => ?_
  · constructor
    · rintro ⟨text, after, htext, ⟨body, rfl⟩, hn⟩
      obtain rfl : n = body.length := by
        simp at hn
        omega
      obtain rfl : cs = body ++ ('$' :: (tag ++ ['$']) ++ after) := by simpa using htext
      exact ⟨by simp, by rw [List.drop_left]; exact List.prefix_append _ _⟩
    · rintro ⟨hn, after, hafter⟩
      refine ⟨_, after, ?_, ⟨cs.take n, rfl⟩, ?_⟩
      · rw [List.append_assoc, List.append_assoc, hafter, List.take_append_drop]
      · simp [List.length_take_of_le hn]
        omega
  · obtain ⟨_, _, -, ⟨body, rfl⟩, rfl⟩ := hn
    simp
    omega

end Delimiter

end TypedSql
