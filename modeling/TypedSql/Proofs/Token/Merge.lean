import TypedSql.Proofs.Token.Boundary

/-!
# Fragments in pieces

Fragments that stand side by side are one fragment (`Lexeme.merge`). A lexeme fits between two texts
when it would be cut off there, but a piece of a fragment only has to lie inside of one: no other
token starts in it (`Scan.Fits`). Lexemes of which each fits between the others are cut off once
their fragments are merged, and no others are (`Scan.cuts_merge_iff`).
-/

namespace TypedSql

namespace Lexeme

/-- Fragments that stand side by side become one. -/
def merge : List Lexeme → List Lexeme
  | [] => []
  | l :: ls =>
    match l.kind, merge ls with
    | .fragment, ⟨.fragment, cs⟩ :: ms => ⟨.fragment, l.chars ++ cs⟩ :: ms
    | _, ms => l :: ms

variable {l : Lexeme} {ls ms : List Lexeme} {cs : List Char}

theorem merge_cons_of_ne (h : l.kind ≠ .fragment) : merge (l :: ls) = l :: merge ls := by
  rw [merge]
  split
  · next hk _ => exact absurd hk h
  · rfl

theorem merge_fragment_cons (h : merge ls = ⟨.fragment, cs⟩ :: ms) (ds : List Char) :
    merge (⟨.fragment, ds⟩ :: ls) = ⟨.fragment, ds ++ cs⟩ :: ms := by
  rw [merge, h]

theorem merge_fragment_of_head (h : ∀ m ∈ (merge ls).head?, m.kind ≠ .fragment) (ds : List Char) :
    merge (⟨.fragment, ds⟩ :: ls) = ⟨.fragment, ds⟩ :: merge ls := by
  rw [merge]
  split
  · next hm =>
    rw [hm] at h
    exact absurd rfl (h _ rfl)
  · rfl

@[simp] theorem text_merge (ls : List Lexeme) : text (merge ls) = text ls := by
  induction ls with
  | nil => rfl
  | cons l ls ih =>
    rw [merge, text_cons, ← ih]
    split
    · next hm => rw [hm, text_cons, text_cons, List.append_assoc]
    · rfl

/-- Merging makes no new kinds of lexemes. -/
theorem exists_kind_of_mem_merge (h : l ∈ merge ls) : ∃ m ∈ ls, m.kind = l.kind := by
  induction ls generalizing l with
  | nil => contradiction
  | cons k ls ih =>
    have htail (m : Lexeme) (hm : m ∈ merge ls) : ∃ n ∈ k :: ls, n.kind = m.kind := by
      obtain ⟨n, hn, hkind⟩ := ih hm
      exact ⟨n, List.mem_cons_of_mem k hn, hkind⟩
    rw [merge] at h
    split at h
    · next hk hm =>
      rcases List.mem_cons.mp h with rfl | h
      · exact ⟨k, List.mem_cons_self, hk⟩
      · exact htail l (hm ▸ List.mem_cons_of_mem _ h)
    · rcases List.mem_cons.mp h with rfl | h
      · exact ⟨l, List.mem_cons_self, rfl⟩
      · exact htail l h

end Lexeme

namespace Scan

variable {ns before after xs ys cs : List Char} {c : Char} {l : Lexeme} {ls : List Lexeme}

/-- No token starts in `cs` that would end a fragment. -/
def Inside (ns before cs after : List Char) : Prop :=
  ∀ front c rest, cs = front ++ c :: rest →
    endsFragment ns (front.reverse ++ before) c (rest ++ after) = false

theorem inside_nil : Inside ns before [] after := by
  intro front c rest h
  simp at h

theorem inside_cons : Inside ns before (c :: cs) after ↔
    endsFragment ns before c (cs ++ after) = false ∧ Inside ns (c :: before) cs after := by
  constructor
  · intro h
    refine ⟨h [] c cs rfl, fun front d rest he => ?_⟩
    have := h (c :: front) d rest (congrArg (c :: ·) he)
    rwa [List.reverse_cons, List.append_assoc] at this
  · rintro ⟨hc, h⟩ front d rest he
    cases front with
    | nil =>
      obtain ⟨rfl, rfl⟩ := List.cons.inj he
      exact hc
    | cons e front =>
      obtain ⟨rfl, hrest⟩ := List.cons.inj he
      rw [List.reverse_cons, List.append_assoc]
      exact h front d rest hrest

theorem inside_append : Inside ns before (xs ++ ys) after ↔
    Inside ns before xs (ys ++ after) ∧ Inside ns (xs.reverse ++ before) ys after := by
  induction xs generalizing before with
  | nil => simp [inside_nil]
  | cons c xs ih =>
    rw [List.cons_append, inside_cons, inside_cons, ih, List.append_assoc, and_assoc,
      List.reverse_cons, List.append_assoc]
    rfl

/-- A fragment goes on behind what lies inside of it. -/
theorem fragmentLength_append_iff :
    fragmentLength ns before (cs ++ after) = cs.length ↔
      Inside ns before cs after ∧ fragmentLength ns (cs.reverse ++ before) after = 0 := by
  induction cs generalizing before with
  | nil => simp [inside_nil]
  | cons c cs ih =>
    rw [List.cons_append, fragmentLength, inside_cons, List.length_cons, List.reverse_cons,
      List.append_assoc]
    cases endsFragment ns before c (cs ++ after) with
    | true => simp
    | false => simp [← ih]

/-- A fragment ends before a token of another kind. -/
theorem fragmentLength_of_cuts (hns : ∀ d ∈ ns, Text.isWord d = true) (hne : ns ≠ [])
    (h : Cuts ns before ls []) (hk : ∀ l ∈ ls.head?, l.kind ≠ .fragment) :
    fragmentLength ns before (Lexeme.text ls) = 0 := by
  cases h with
  | nil => rfl
  | @cons _ _ cs c kind ls head tail =>
    rw [Lexeme.text_cons, List.cons_append, fragmentLength, if_pos]
    rw [List.append_nil] at head
    rw [endsFragment_iff hns hne, head]
    exact hk _ rfl

/-- A fragment is cut off from its start to a token of another kind. -/
theorem cuts_fragment_iff (hns : ∀ d ∈ ns, Text.isWord d = true) (hne : ns ≠ []) :
    Cuts ns before (⟨.fragment, cs⟩ :: ls) [] ↔
      cs ≠ [] ∧ Inside ns before cs (Lexeme.text ls) ∧
        fragmentLength ns (cs.reverse ++ before) (Lexeme.text ls) = 0 ∧
        Cuts ns (cs.reverse ++ before) ls [] := by
  cases cs with
  | nil =>
    refine iff_of_false ?_ fun h => h.1 rfl
    rintro ⟨⟩
  | cons c cs =>
    have hlexeme : lexeme ns before c (cs ++ (Lexeme.text ls ++ [])) = (.fragment, cs.length) ↔
        Inside ns before (c :: cs) (Lexeme.text ls) ∧
          fragmentLength ns ((c :: cs).reverse ++ before) (Lexeme.text ls) = 0 := by
      rw [List.append_nil, inside_cons, List.reverse_cons, List.append_assoc, and_assoc,
        List.singleton_append, ← fragmentLength_append_iff]
      constructor
      · intro h
        have hk := congrArg Prod.fst h
        have hl := length_of_kind_fragment hk
        rw [h] at hl
        refine ⟨?_, hl.symm⟩
        rw [← Bool.not_eq_true, endsFragment_iff hns hne, not_not]
        exact hk
      · rintro ⟨he, hl⟩
        rw [← Bool.not_eq_true, endsFragment_iff hns hne, not_not] at he
        exact Prod.ext he ((length_of_kind_fragment he).trans hl)
    constructor
    · intro h
      cases h with
      | cons head tail =>
        obtain ⟨hi, hl⟩ := hlexeme.mp head
        exact ⟨List.cons_ne_nil _ _, hi, hl, tail⟩
    · rintro ⟨-, hi, hl, tail⟩
      exact .cons (hlexeme.mpr ⟨hi, hl⟩) tail

/-- A lexeme can stand between two texts. A fragment may go on on both sides. -/
def Fits (ns before : List Char) (l : Lexeme) (after : List Char) : Prop :=
  match l.kind, l.chars with
  | .fragment, cs => Inside ns before cs after
  | _, [] => False
  | kind, c :: cs => lexeme ns before c (cs ++ after) = (kind, cs.length)

/-- Each lexeme can stand between the others. -/
def FitTogether (ns : List Char) : (before : List Char) → List Lexeme → Prop
  | _, [] => True
  | before, l :: ls =>
    Fits ns before l (Lexeme.text ls) ∧ FitTogether ns (l.chars.reverse ++ before) ls

theorem fits_fragment : Fits ns before ⟨.fragment, cs⟩ after ↔ Inside ns before cs after :=
  Iff.rfl

theorem fits_of_ne {kind : TokenKind} (h : kind ≠ .fragment) :
    Fits ns before ⟨kind, c :: cs⟩ after ↔
      lexeme ns before c (cs ++ after) = (kind, cs.length) := by
  cases kind <;> first | exact Iff.rfl | exact absurd rfl h

theorem fitTogether_iff_forall : FitTogether ns before ls ↔
    ∀ front l back, ls = front ++ l :: back →
      Fits ns ((Lexeme.text front).reverse ++ before) l (Lexeme.text back) := by
  induction ls generalizing before with
  | nil => simp [FitTogether]
  | cons l ls ih =>
    rw [FitTogether, ih]
    constructor
    · rintro ⟨hl, h⟩ front m back he
      cases front with
      | nil =>
        obtain ⟨rfl, rfl⟩ := List.cons.inj he
        exact hl
      | cons k front =>
        obtain ⟨rfl, hrest⟩ := List.cons.inj he
        rw [Lexeme.text_cons, List.reverse_append, List.append_assoc]
        exact h front m back hrest
    · intro h
      refine ⟨h [] l ls rfl, fun front m back he => ?_⟩
      have := h (l :: front) m back (congrArg (l :: ·) he)
      rwa [Lexeme.text_cons, List.reverse_append, List.append_assoc] at this

theorem ne_nil_of_mem_merge (hl : ∀ l ∈ ls, l.chars ≠ []) :
    ∀ l ∈ Lexeme.merge ls, l.chars ≠ [] := by
  induction ls with
  | nil => exact hl
  | cons l ls ih =>
    rw [List.forall_mem_cons] at hl
    have hs := ih hl.2
    rw [Lexeme.merge]
    split
    · next hm =>
      rw [hm, List.forall_mem_cons] at hs
      exact List.forall_mem_cons.mpr ⟨by simp [hl.1], hs.2⟩
    · exact List.forall_mem_cons.mpr ⟨hl.1, hs⟩

/-- Lexemes that fit together are cut off once their fragments are merged, and no others are. -/
theorem cuts_merge_iff (hns : ∀ d ∈ ns, Text.isWord d = true) (hne : ns ≠ [])
    (hl : ∀ l ∈ ls, l.chars ≠ []) :
    Cuts ns before (Lexeme.merge ls) [] ↔ FitTogether ns before ls := by
  induction ls generalizing before with
  | nil => exact iff_of_true .nil trivial
  | cons l ls ih =>
    rw [List.forall_mem_cons] at hl
    obtain ⟨hchars, hls⟩ := hl
    rw [FitTogether, ← ih hls]
    obtain ⟨kind, chars⟩ := l
    obtain ⟨c, cs, rfl⟩ := List.exists_cons_of_ne_nil hchars
    by_cases hk : kind = .fragment
    · subst hk
      rw [fits_fragment]
      by_cases hm : ∃ ds ms, Lexeme.merge ls = ⟨.fragment, ds⟩ :: ms
      · obtain ⟨ds, ms, hm⟩ := hm
        have hds : ds ≠ [] := ne_nil_of_mem_merge hls _ (hm ▸ List.mem_cons_self)
        have htext : Lexeme.text ls = ds ++ Lexeme.text ms := by
          rw [← Lexeme.text_merge, hm, Lexeme.text_cons]
        rw [Lexeme.merge_fragment_cons hm, hm, cuts_fragment_iff hns hne, cuts_fragment_iff hns hne,
          inside_append, htext, List.reverse_append, List.append_assoc]
        simp [hds, and_assoc]
      · have hhead : ∀ m ∈ (Lexeme.merge ls).head?, m.kind ≠ .fragment := by
          rintro ⟨kind, ds⟩ hd rfl
          obtain ⟨ms, hms⟩ := List.head?_eq_some_iff.mp hd
          exact hm ⟨ds, ms, hms⟩
        rw [Lexeme.merge_fragment_of_head hhead, cuts_fragment_iff hns hne, Lexeme.text_merge]
        constructor
        · rintro ⟨-, hi, -, htail⟩
          exact ⟨hi, htail⟩
        · rintro ⟨hi, htail⟩
          refine ⟨List.cons_ne_nil _ _, hi, ?_, htail⟩
          rw [← Lexeme.text_merge]
          exact fragmentLength_of_cuts hns hne htail hhead
    · rw [Lexeme.merge_cons_of_ne hk, fits_of_ne hk]
      constructor
      · intro h
        cases h with
        | cons head tail =>
          rw [List.append_nil, Lexeme.text_merge] at head
          exact ⟨head, tail⟩
      · rintro ⟨head, tail⟩
        refine .cons ?_ tail
        rwa [List.append_nil, Lexeme.text_merge]

end Scan

end TypedSql
