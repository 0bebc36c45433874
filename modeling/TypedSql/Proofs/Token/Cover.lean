import Mathlib.Data.List.TakeWhile
import TypedSql.Token.Scan

/-!
# Tokens cover the text

The tokens of a text stand one directly behind another, from the start of the text to its end, and
none of them is empty (`Scanner.abut_tokens`). What a place in a text comes to is therefore a
matter of the tokens before it, and later tokens have later places.

A token that is no comment and no blank fragment starts, behind the blanks of a fragment, with a
character that is not blank. The one exception is the vertical tab: it is blank, and as a control
character it is an illegal token of its own (`Scanner.startsAt_of_mem_tokens`).
-/

namespace TypedSql

namespace Position

@[simp] theorem offset_step (p : Position) (c : Char) :
    (p.step c).offset = p.offset + c.utf8Size := by
  unfold step
  split <;> rfl

@[simp] theorem line_step (p : Position) (c : Char) :
    (p.step c).line = if c = '\n' then p.line + 1 else p.line := by
  unfold step
  split <;> rfl

theorem line_advance (p : Position) (s : List Char) :
    (p.advance s).line = p.line + s.count '\n' := by
  induction s generalizing p with
  | nil => rfl
  | cons c s ih =>
    rw [advance_cons, ih, line_step, List.count_cons]
    by_cases hc : c = '\n'
    · simp [hc]
      omega
    · simp [hc]

theorem offset_le_advance (p : Position) (s : List Char) : p.offset ≤ (p.advance s).offset := by
  induction s generalizing p with
  | nil => exact Nat.le_refl _
  | cons c s ih =>
    have h := ih (p.step c)
    rw [offset_step] at h
    exact Nat.le_trans (Nat.le_add_right _ _) h

theorem offset_lt_advance (p : Position) {s : List Char} (hs : s ≠ []) :
    p.offset < (p.advance s).offset := by
  obtain ⟨c, s, rfl⟩ := List.exists_cons_of_ne_nil hs
  have h := offset_le_advance (p.step c) s
  rw [offset_step] at h
  have := c.utf8Size_pos
  rw [advance_cons]
  omega

end Position

namespace Token

/-- The tokens of a list stand one directly behind another from one place to another, and none of
them is empty. -/
def Abut : Position → List Token → Position → Prop
  | p, [], q => p = q
  | p, t :: ts, q => t.pos = p ∧ t.chars ≠ [] ∧ Abut t.stop ts q

@[simp] theorem abut_nil {p q : Position} : Abut p [] q ↔ p = q := Iff.rfl

@[simp] theorem abut_cons {p q : Position} {t : Token} {ts : List Token} :
    Abut p (t :: ts) q ↔ t.pos = p ∧ t.chars ≠ [] ∧ Abut t.stop ts q := Iff.rfl

theorem abut_append {p q : Position} {ts us : List Token} :
    Abut p (ts ++ us) q ↔ ∃ m, Abut p ts m ∧ Abut m us q := by
  induction ts generalizing p with
  | nil => simp
  | cons t ts ih => simp [ih, and_assoc]

/-- Each part of tokens without gaps has none. -/
theorem Abut.exists_of_mem {p q : Position} {tss : List (List Token)} (h : Abut p tss.flatten q)
    {ts : List Token} (hts : ts ∈ tss) : ∃ p' q', Abut p' ts q' := by
  obtain ⟨before, after, rfl⟩ := List.append_of_mem hts
  rw [List.flatten_append, List.flatten_cons] at h
  obtain ⟨p', -, h⟩ := abut_append.mp h
  obtain ⟨q', h, -⟩ := abut_append.mp h
  exact ⟨p', q', h⟩

/-- Where tokens end is where their texts lead to. -/
theorem Abut.eq_advance {p q : Position} {ts : List Token} (h : Abut p ts q) :
    q = p.advance (ts.flatMap Token.chars) := by
  induction ts generalizing p with
  | nil => exact h.symm
  | cons t ts ih =>
    obtain ⟨rfl, -, h⟩ := h
    rw [List.flatMap_cons, Position.advance_append]
    exact ih h

/-- A token stands behind the texts of the tokens before it. -/
theorem Abut.pos_eq_advance {p q : Position} {ts us : List Token} {u : Token}
    (h : Abut p (ts ++ u :: us) q) : u.pos = p.advance (ts.flatMap Token.chars) := by
  obtain ⟨m, hm, hu, -⟩ := abut_append.mp h
  rw [hu, hm.eq_advance]

theorem Abut.offset_le {p q : Position} {ts : List Token} (h : Abut p ts q) :
    p.offset ≤ q.offset := by
  rw [h.eq_advance]
  exact Position.offset_le_advance p _

theorem Abut.line_le {p q : Position} {ts : List Token} (h : Abut p ts q) : p.line ≤ q.line := by
  rw [h.eq_advance, Position.line_advance]
  exact Nat.le_add_right _ _

@[simp] theorem line_stop (t : Token) : t.stop.line = t.endLine :=
  Position.line_advance t.pos t.chars

/-- A token in front of another ends on the line of that one or before it. -/
theorem Abut.endLine_le {p q : Position} {ts us : List Token} {t u : Token}
    (h : Abut p (ts ++ u :: us) q) (ht : t ∈ ts) : t.endLine ≤ u.pos.line := by
  obtain ⟨before, after, rfl⟩ := List.append_of_mem ht
  obtain ⟨m, h, hm, -⟩ := abut_append.mp h
  obtain ⟨_, -, -, -, h⟩ := abut_append.mp h
  rw [hm, ← line_stop]
  exact h.line_le

/-- The place of the first character of a token that is not blank. -/
def StartsAt (t : Token) (p : Position) : Prop :=
  ∃ blanks c rest, t.chars = blanks ++ c :: rest ∧ (∀ b ∈ blanks, Text.isBlank b = true) ∧
    Text.isBlank c = false ∧ p = t.pos.advance blanks

/-- An illegal character that is blank. -/
def IsVerticalTab (t : Token) : Prop :=
  t.kind = .illegal .character ∧ t.literal = "\x0b"

/-- What a fragment starts with lies inside of it, unless the fragment is blank. -/
theorem startsAt_of_fragment {t : Token} (hk : t.kind = .fragment) (hb : t.isBlank = false) :
    t.StartsAt t.significantStart := by
  have hsplit := List.takeWhile_append_dropWhile (p := Text.isBlank) (l := t.chars)
  cases hd : t.chars.dropWhile Text.isBlank with
  | nil =>
    have hall : t.chars.all Text.isBlank = true := by
      rw [List.all_eq_true]
      intro c hc
      rw [hd, List.append_nil] at hsplit
      rw [← hsplit] at hc
      exact List.mem_takeWhile_imp hc
    simp [isBlank, hk, hall] at hb
  | cons c rest =>
    have hc := List.head?_dropWhile_not Text.isBlank t.chars
    rw [hd, List.head?_cons] at hc
    refine ⟨_, c, rest, by rw [← hd, hsplit], fun b hb => List.mem_takeWhile_imp hb, hc, ?_⟩
    simp [significantStart, hk]

theorem StartsAt.offset_lt_stop {t : Token} {p : Position} (h : t.StartsAt p) :
    p.offset < t.stop.offset := by
  obtain ⟨blanks, c, rest, hc, -, -, rfl⟩ := h
  rw [stop, hc, Position.advance_append]
  exact Position.offset_lt_advance _ (by simp)

theorem significantStart_of_ne {t : Token} (hk : t.kind ≠ .fragment) :
    t.significantStart = t.pos := by
  unfold significantStart
  split
  · contradiction
  · rfl

theorem trimStart_of_ne {t : Token} (hk : t.kind ≠ .fragment) : t.trimStart = t := by
  unfold trimStart
  split
  · contradiction
  · rfl

theorem exists_significantStart (t : Token) :
    ∃ s rest, t.chars = s ++ rest ∧ t.significantStart = t.pos.advance s := by
  by_cases hk : t.kind = .fragment
  · refine ⟨_, _, (List.takeWhile_append_dropWhile (p := Text.isBlank)).symm, ?_⟩
    simp [significantStart, hk]
  · exact ⟨[], t.chars, rfl, significantStart_of_ne hk⟩

theorem offset_le_significantStart (t : Token) : t.pos.offset ≤ t.significantStart.offset := by
  obtain ⟨s, rest, -, h⟩ := t.exists_significantStart
  rw [h]
  exact Position.offset_le_advance _ _

theorem line_le_significantStart (t : Token) : t.pos.line ≤ t.significantStart.line := by
  obtain ⟨s, rest, -, h⟩ := t.exists_significantStart
  rw [h, Position.line_advance]
  exact Nat.le_add_right _ _

theorem significantStart_lt_stop {t : Token} (hne : t.chars ≠ []) (hb : t.isBlank = false) :
    t.significantStart.offset < t.stop.offset := by
  by_cases hk : t.kind = .fragment
  · exact (startsAt_of_fragment hk hb).offset_lt_stop
  · rw [significantStart_of_ne hk]
    exact Position.offset_lt_advance _ hne

end Token

namespace Scan

variable {ns before cs : List Char} {c : Char}

theorem dollarTagLength_of_ne (hc : c ≠ '$') : dollarTagLength before (c :: cs) = none := by
  unfold dollarTagLength
  split
  · rename_i h
    exact absurd (List.cons.inj h).1 hc
  · rename_i h
    exact absurd (List.cons.inj h).1 hc
  · rfl

theorem placeholderLength_of_ne (hne : ns ≠ []) (hc : ∀ d ∈ ns.head?, d ≠ c) :
    placeholderLength ns before (c :: cs) = none := by
  obtain ⟨d, ns, rfl⟩ := List.exists_cons_of_ne_nil hne
  simp [placeholderLength, Text.afterStart, hc d rfl]

/-- No delimited token starts with a blank. -/
theorem lexeme_of_isBlank (hns : ∀ d ∈ ns.head?, Text.isBlank d = false) (hne : ns ≠ [])
    (hc : Text.isBlank c = true) :
    lexeme ns before c cs =
      if isIllegal c then (.illegal .character, 0)
      else (.fragment, fragmentLength ns (c :: before) cs) := by
  have hneq : ∀ d, Text.isBlank d = false → c ≠ d := by
    rintro d hd rfl
    rw [hc] at hd
    exact Bool.noConfusion hd
  have hdollar : dollarTagLength before (c :: cs) = none :=
    dollarTagLength_of_ne (hneq '$' (by decide))
  have hplace : placeholderLength ns before (c :: cs) = none :=
    placeholderLength_of_ne hne fun d hd => (hneq d (hns d hd)).symm
  have h₁ := hneq ';' (by decide)
  have h₂ := hneq '-' (by decide)
  have h₃ := hneq '/' (by decide)
  have h₄ := hneq '\'' (by decide)
  have h₅ := hneq '"' (by decide)
  simp [lexeme, hdollar, hplace, h₁, h₂, h₃, h₄, h₅]

theorem eq_of_isIllegal_of_isBlank (hi : isIllegal c = true) (hb : Text.isBlank c = true) :
    c = '\x0b' := by
  have hcode : ∀ d : Char, c ≠ d → c.toNat ≠ d.toNat := fun d hd h => hd (Char.toNat_inj.mp h)
  by_cases hd : c = '\x7f'
  · subst hd
    exact absurd hb (by decide)
  · have hlow : c.toNat < 32 ∧ ((c ≠ '\t' ∧ c ≠ '\n') ∧ c ≠ '\r') ∧ c ≠ '\x0c' := by
      simpa [isIllegal, hd] using hi
    obtain ⟨hlt, ⟨⟨ht, hl⟩, hr⟩, hf⟩ := hlow
    have h₁ : c.toNat ≠ 9 := hcode '\t' ht
    have h₂ : c.toNat ≠ 10 := hcode '\n' hl
    have h₃ : c.toNat ≠ 12 := hcode '\x0c' hf
    have h₄ : c.toNat ≠ 13 := hcode '\r' hr
    have hrange : 9 ≤ c.toNat ∧ c.toNat ≤ 13 := by
      simp [Text.isBlank] at hb
      omega
    exact Char.toNat_inj.mp (show c.toNat = 11 by omega)

end Scan

namespace Scanner

variable {s : Scanner} {c : Char} {cs : List Char}

theorem tokens_of_nil (h : s.rest = []) : s.tokens = [] := by
  unfold tokens
  simp [h]

theorem tokens_of_ne_nil (h : s.rest ≠ []) : s.tokens = s.next.1 :: s.next.2.tokens := by
  rw [tokens]
  simp [h]

theorem next_of_cons (h : s.rest = c :: cs) :
    s.next = (⟨(Scan.lexeme s.ns s.before c cs).1,
      String.ofList (c :: cs.take (Scan.lexeme s.ns s.before c cs).2), s.pos⟩,
      s.skip c cs (Scan.lexeme s.ns s.before c cs).2) := by
  unfold next
  rw [h]

/-- Where the next token ends, the scanner stands. -/
theorem stop_next (h : s.rest ≠ []) : s.next.1.stop = s.next.2.pos := by
  obtain ⟨c, cs, hr⟩ := List.exists_cons_of_ne_nil h
  rw [next_of_cons hr]
  simp [Token.stop, Token.chars, skip]

theorem pos_next (h : s.rest ≠ []) : s.next.1.pos = s.pos := by
  obtain ⟨c, cs, hr⟩ := List.exists_cons_of_ne_nil h
  rw [next_of_cons hr]

/-- The next token is what is missing from the rest of the text. -/
theorem chars_next_append (h : s.rest ≠ []) : s.next.1.chars ++ s.next.2.rest = s.rest := by
  obtain ⟨c, cs, hr⟩ := List.exists_cons_of_ne_nil h
  rw [next_of_cons hr, hr]
  simp [Token.chars, skip]

theorem chars_next_ne_nil (h : s.rest ≠ []) : s.next.1.chars ≠ [] := by
  obtain ⟨c, cs, hr⟩ := List.exists_cons_of_ne_nil h
  rw [next_of_cons hr]
  simp [Token.chars]

theorem ns_next (h : s.rest ≠ []) : s.next.2.ns = s.ns := by
  obtain ⟨c, cs, hr⟩ := List.exists_cons_of_ne_nil h
  rw [next_of_cons hr]
  rfl

/-- The tokens of a text cover it from the place of the scanner to the end. -/
theorem abut_tokens (s : Scanner) : Token.Abut s.pos s.tokens (s.pos.advance s.rest) := by
  induction s using tokens.induct with
  | case1 s h => simp [tokens_of_nil h, h]
  | case2 s h _ ih =>
    rw [tokens_of_ne_nil h]
    refine ⟨pos_next h, chars_next_ne_nil h, ?_⟩
    rw [stop_next h]
    have hend : s.pos.advance s.rest = s.next.2.pos.advance s.next.2.rest := by
      rw [← chars_next_append h, Position.advance_append, ← stop_next h, Token.stop, pos_next h]
    rw [hend]
    exact ih

/-- Each token of a text was measured at some place in it. -/
theorem exists_lexeme_of_mem_tokens {t : Token} (h : t ∈ s.tokens) :
    ∃ before c cs, t.kind = (Scan.lexeme s.ns before c cs).1 ∧
      t.chars = c :: cs.take (Scan.lexeme s.ns before c cs).2 := by
  induction s using tokens.induct with
  | case1 s hr => simp [tokens_of_nil hr] at h
  | case2 s hr _ ih =>
    rw [tokens_of_ne_nil hr, List.mem_cons] at h
    rcases h with rfl | h
    · obtain ⟨c, cs, hc⟩ := List.exists_cons_of_ne_nil hr
      refine ⟨s.before, c, cs, ?_⟩
      rw [next_of_cons hc]
      simp [Token.chars]
    · rw [← ns_next hr]
      exact ih h

/-- Where a token that is not blank starts. -/
theorem startsAt_of_mem_tokens {t : Token} (hns : ∀ d ∈ s.ns.head?, Text.isBlank d = false)
    (hne : s.ns ≠ []) (ht : t ∈ s.tokens) (hb : t.isBlank = false) :
    t.StartsAt t.significantStart ∨ t.IsVerticalTab ∧ t.significantStart = t.pos := by
  by_cases hk : t.kind = .fragment
  · exact .inl (Token.startsAt_of_fragment hk hb)
  · rw [Token.significantStart_of_ne hk]
    obtain ⟨before, c, cs, hkind, hchars⟩ := exists_lexeme_of_mem_tokens ht
    by_cases hc : Text.isBlank c = true
    · right
      rw [Scan.lexeme_of_isBlank hns hne hc] at hkind hchars
      by_cases hi : Scan.isIllegal c = true
      · rw [if_pos hi] at hkind hchars
        obtain rfl := Scan.eq_of_isIllegal_of_isBlank hi hc
        refine ⟨⟨hkind, ?_⟩, rfl⟩
        rw [← String.toList_inj]
        exact hchars
      · rw [if_neg hi] at hkind
        exact absurd hkind hk
    · left
      exact ⟨[], c, _, hchars, by simp, by simpa using hc, rfl⟩

end Scanner

end TypedSql
