import Mathlib.Data.List.Basic
import TypedSql.Proofs.Text.Pieces
import TypedSql.Proofs.Token.Boundary
import TypedSql.Proofs.Token.Place

/-!
# Placeholder calls

A call that names a parameter has a form of its own, given here without a scanner: the namespace,
`.arg(`, an identifier in single quotes with ASCII blanks around it, and a closing parenthesis
(`Scan.IsCall`). A scanner recognizes a call when it starts a token and also while it extends a
fragment. Both ways agree with the form (`Scan.placeholderLength_eq_some_iff`).

No call starts inside of another, and none starts inside of a fragment. A call is therefore a token
of its own unless a quoted or commented token runs over its start, and then it is plain text
(`Scanner.placeholders_are_calls`).
-/

namespace TypedSql

namespace TokenKind

/-- Whether a token of this kind is taken in whole up to its own end, so that calls inside of it
are plain text. -/
def hidesCalls : TokenKind → Bool
  | .lineComment | .blockComment | .stringLiteral | .quotedIdentifier => true
  | .illegal reason => reason != .character
  | .endOfInput | .fragment | .semicolon | .placeholder => false

end TokenKind

namespace Text

variable {sep : Char} {xs : List Char}

theorem not_mem_of_forall {f : Char → Bool} (h : ∀ c ∈ xs, f c = true) (hsep : f sep = false) :
    sep ∉ xs := by
  intro hmem
  rw [h sep hmem] at hsep
  contradiction

end Text

namespace Scan

variable {ns before ident call xs : List Char} {n : Nat}

/-- The text of a call that names a parameter. -/
inductive IsCall (ns ident : List Char) : List Char → Prop where
  | intro {front back : List Char} (name : Text.IsIdent ident)
      (front_blank : ∀ c ∈ front, Text.isAsciiBlank c = true)
      (back_blank : ∀ c ∈ back, Text.isAsciiBlank c = true) :
      IsCall ns ident
        (ns ++ (['.', 'a', 'r', 'g', '('] ++
          (front ++ (['\''] ++ (ident ++ (['\''] ++ (back ++ [')'])))))))

namespace IsCall

theorem ne_nil (h : IsCall ns ident call) : call ≠ [] := by
  cases h
  simp

theorem getLast?_eq (h : IsCall ns ident call) : call.getLast? = some ')' := by
  cases h
  simp [List.getLast?_append, List.getLast?_cons]

/-- The one dot of a call stands behind the namespace. -/
theorem exists_dot (h : IsCall ns ident call) : ∃ tail, call = ns ++ '.' :: tail ∧ '.' ∉ tail := by
  cases h with
  | @intro front back name front_blank back_blank =>
    refine ⟨_, rfl, ?_⟩
    have hfront : '.' ∉ front := Text.not_mem_of_forall front_blank (by decide)
    have hback : '.' ∉ back := Text.not_mem_of_forall back_blank (by decide)
    have hident : '.' ∉ ident := Text.not_mem_of_forall (fun c => name.isWord) (by decide)
    simp [hfront, hback, hident]

/-- The two quotes of a call stand around the name. -/
theorem exists_quotes (hns : ∀ c ∈ ns, Text.isWord c = true) (h : IsCall ns ident call) :
    ∃ front back, call = front ++ '\'' :: (ident ++ '\'' :: back) ∧ '\'' ∉ front ∧ '\'' ∉ back := by
  cases h with
  | @intro front back name front_blank back_blank =>
    have hname : '\'' ∉ ns := Text.not_mem_of_forall hns (by decide)
    have hfront : '\'' ∉ front := Text.not_mem_of_forall front_blank (by decide)
    have hback : '\'' ∉ back := Text.not_mem_of_forall back_blank (by decide)
    exact ⟨ns ++ (['.', 'a', 'r', 'g', '('] ++ front), back ++ [')'], by simp,
      by simp [hname, hfront], by simp [hback]⟩

/-- The name of a parameter is read off a call by its quotes. -/
theorem placeholderName_eq (hns : ∀ c ∈ ns, Text.isWord c = true) {t : Token}
    (h : IsCall ns ident t.chars) (hk : t.kind = .placeholder) :
    t.placeholderName = some (String.ofList ident) := by
  obtain ⟨front, back, htext, hfront, hback⟩ := h.exists_quotes hns
  simp [Token.placeholderName, hk, htext, Text.splitAtFirst_append hfront,
    Text.splitAtLast_append hback]

end IsCall

theorem fresh_iff :
    Fresh before ↔ (before.head?.any fun c => Text.isWord c || c == '.') = false := by
  cases before with
  | nil => simp [Fresh]
  | cons c before => simp [Fresh]

theorem identLength_append (h : Text.IsIdent ident)
    (hx : ∀ c ∈ xs.head?, Text.isWord c = false) :
    identLength (ident ++ xs) = some ident.length := by
  obtain ⟨c, cs, rfl, hc, hcs⟩ := h
  rw [List.cons_append, identLength, if_pos hc, Runs.takeWhile_append hcs hx, List.length_cons,
    Nat.add_comm]

/-- Calls are measured exactly. -/
theorem placeholderLength_eq_some_iff :
    placeholderLength ns before xs = some n ↔
      Fresh before ∧ ∃ ident call rest, IsCall ns ident call ∧ xs = call ++ rest ∧
        call.length = n := by
  constructor
  · intro h
    simp only [placeholderLength, Option.bind_eq_bind, Option.bind_eq_some_iff] at h
    obtain ⟨afterName, hname, h⟩ := h
    split at h
    · simp at h
    rename_i hfresh
    simp only [Option.bind_eq_some_iff, Option.some.injEq] at h
    obtain ⟨afterOpen, hopen, afterQuote, hquote, m, hident, afterIdent, hclose, afterCall, hcall,
      rfl⟩ := h
    obtain ⟨ident, behind, rfl, rfl, hname'⟩ := exists_ident hident
    rw [List.drop_left] at hclose
    have hform : IsCall ns ident _ := .intro hname'
      (fun c (hc : c ∈ afterOpen.takeWhile Text.isAsciiBlank) => List.mem_takeWhile_imp hc)
      (fun c (hc : c ∈ afterIdent.takeWhile Text.isAsciiBlank) => List.mem_takeWhile_imp hc)
    refine ⟨fresh_iff.mpr (by simpa using hfresh), ident, _, afterCall, hform, ?_⟩
    have htext : xs = ns ++ (['.', 'a', 'r', 'g', '('] ++
        (afterOpen.takeWhile Text.isAsciiBlank ++ (['\''] ++ (ident ++ (['\''] ++
          (afterIdent.takeWhile Text.isAsciiBlank ++ ([')'] ++ afterCall))))))) := by
      rw [← Text.eq_append_of_afterStart hcall, List.takeWhile_append_dropWhile,
        ← Text.eq_append_of_afterStart hclose, ← Text.eq_append_of_afterStart hquote,
        List.takeWhile_append_dropWhile, ← Text.eq_append_of_afterStart hopen,
        ← Text.eq_append_of_afterStart hname]
    constructor
    · rw [htext]
      simp only [List.append_assoc]
    · rw [htext]
      simp only [List.length_append]
      omega
  · rintro ⟨hfresh, ident, call, rest, ⟨hname, hfront, hback⟩, rfl, rfl⟩
    rename_i front back
    have hquote (ys : List Char) : ∀ c ∈ (['\''] ++ ys).head?, Text.isAsciiBlank c = false := by
      rintro c ⟨⟩
      decide
    have hparen : ∀ c ∈ ([')'] ++ rest).head?, Text.isAsciiBlank c = false := by
      rintro c ⟨⟩
      decide
    have hend (ys : List Char) : ∀ c ∈ (['\''] ++ ys).head?, Text.isWord c = false := by
      rintro c ⟨⟩
      decide
    simp only [List.append_assoc, placeholderLength, Text.afterStart_append, fresh_iff.mp hfresh,
      Option.bind_eq_bind, Option.bind_some, Runs.dropWhile_append hfront (hquote _),
      identLength_append hname (hend _), List.drop_left, Runs.dropWhile_append hback hparen]
    simp
    omega

section Inside

variable {rest cs front : List Char} {c d : Char} {kind : TokenKind} {m : Nat}

/-- No call starts inside of another one. -/
theorem IsCall.not_inside (hns : ∀ c ∈ ns, Text.isWord c = true)
    {ident' call' front back : List Char} (h : IsCall ns ident (front ++ back))
    (hfront : front ≠ []) (hback : back ≠ []) (h' : IsCall ns ident' call')
    (rest rest' : List Char) : back ++ rest ≠ call' ++ rest' := by
  intro heq
  obtain ⟨tail, htail, hnotail⟩ := h.exists_dot
  obtain ⟨tail', rfl, -⟩ := h'.exists_dot
  rw [List.append_assoc, List.cons_append] at heq
  have hrun {xs : List Char} (hxs : ∀ c ∈ xs, Text.isWord c = true) {d : Char}
      (hd : Text.isWord d = false) (ys : List Char) :
      (xs ++ d :: ys).takeWhile Text.isWord = xs :=
    Runs.takeWhile_append hxs (by rintro c ⟨⟩; exact hd)
  have hdot : Text.isWord '.' = false := by decide
  have hns_dot : '.' ∉ ns := Text.not_mem_of_forall hns hdot
  by_cases hmem : '.' ∈ back
  -- The dot of the outer call is the dot of the inner one, so both start in the same place.
  · obtain ⟨name, behind, rfl, -⟩ := List.eq_append_cons_of_mem hmem
    rw [← List.append_assoc, eq_comm, List.append_cons_inj_of_notMem _ hnotail] at htail
    · obtain ⟨rfl, -, rfl⟩ := htail
      have hname := fun c hc => hns c (List.mem_append_right front hc)
      have hsame := congrArg (List.takeWhile Text.isWord) heq
      rw [List.append_assoc, List.cons_append, hrun hname hdot, hrun hns hdot] at hsame
      exact hfront (List.append_left_eq_self.mp hsame.symm)
    · exact hns_dot
  -- Else the outer call ends inside of the namespace of the inner one, with a parenthesis.
  · have hparen : ')' ∈ back := by
      apply List.mem_of_getLast?
      rw [← h.getLast?_eq, List.getLast?_append_of_ne_nil _ hback]
    have hne {xs : List Char} (h : '.' ∉ xs) : ∀ c ∈ xs, (c != '.') = true := by
      intro c hc
      rw [bne_iff_ne]
      rintro rfl
      exact h hc
    have hsame := congrArg (List.takeWhile (· != '.')) heq
    rw [List.takeWhile_append_of_pos (hne hmem), Runs.takeWhile_append (hne hns_dot) (by simp)]
      at hsame
    have hmem : ')' ∈ ns := hsame ▸ List.mem_append_left _ hparen
    exact absurd hmem (Text.not_mem_of_forall hns (by decide))

/-- Where a call stands, a scanner that starts a token takes it. -/
theorem lexeme_of_placeholderLength (hns : ∀ c ∈ ns, Text.isWord c = true) (hne : ns ≠ [])
    (h : placeholderLength ns before (c :: cs) = some n) :
    lexeme ns before c cs = (.placeholder, n - 1) := by
  have hword : Text.isWord c = true := by
    by_contra hc
    rw [placeholderLength_of_not_isWord hns hne (by simpa using hc)] at h
    contradiction
  have hdollar : dollarTagLength before (c :: cs) = none := by
    apply dollarTagLength_of_ne
    rintro rfl
    exact absurd hword (by decide)
  rw [lexeme, hdollar, h]

theorem placeholderLength_of_lexeme (h : lexeme ns before c cs = (.placeholder, n)) :
    placeholderLength ns before (c :: cs) = some (n + 1) := by
  have hkind := congrArg Prod.fst h
  unfold lexeme at h hkind
  cases hdollar : dollarTagLength before (c :: cs) with
  | some n => grind [kind_delimited, dollarString]
  | none =>
    cases hcall : placeholderLength ns before (c :: cs) with
    | some n =>
      have hpos := placeholderLength_pos hcall
      grind
    | none => grind [kind_delimited]

theorem length_of_kind_character (h : (lexeme ns before c cs).1 = .illegal .character) :
    (lexeme ns before c cs).2 = 0 := by
  unfold lexeme at h ⊢
  grind [kind_delimited, dollarString]

/-- A token that a call starts inside of hides it. -/
theorem hidesCalls_of_inside (hns : ∀ c ∈ ns, Text.isWord c = true) (hne : ns ≠ [])
    (h : lexeme ns before c (front ++ d :: rest) = (kind, front.length + (n + 1)))
    (hcall : placeholderLength ns ((c :: front).reverse ++ before) (d :: rest) = some m) :
    kind.hidesCalls = true := by
  cases kind with
  | lineComment | blockComment | stringLiteral | quotedIdentifier => rfl
  | endOfInput => exact absurd (congrArg Prod.fst h) (kind_lexeme_ne_endOfInput _ _ _ _)
  | semicolon =>
    obtain ⟨-, hlength⟩ := eq_of_kind_semicolon (congrArg Prod.fst h)
    rw [h] at hlength
    contradiction
  | illegal reason =>
    cases reason with
    | character =>
      have hlength := length_of_kind_character (congrArg Prod.fst h)
      rw [h] at hlength
      contradiction
    | _ => rfl
  | fragment =>
    have hfragment := lexeme_of_fragment_append hns hne h
    rw [lexeme_of_placeholderLength hns hne hcall] at hfragment
    exact TokenKind.noConfusion (congrArg Prod.fst hfragment)
  | placeholder =>
    obtain ⟨-, ident, call, behind, hform, htext, hlength⟩ :=
      placeholderLength_eq_some_iff.mp (placeholderLength_of_lexeme h)
    obtain ⟨-, ident', call', behind', hform', htext', -⟩ := placeholderLength_eq_some_iff.mp hcall
    rw [← List.cons_append] at htext
    rcases List.append_eq_append_iff.mp htext with ⟨back, rfl, hback⟩ | ⟨_, hcall, -⟩
    · refine absurd (hback.symm.trans htext')
        (hform.not_inside hns (List.cons_ne_nil _ _) ?_ hform' _ _)
      rintro rfl
      simp at hlength
    · have hle := congrArg List.length hcall
      simp at hle
      omega

end Inside

/-- A call stands at an offset of a text. It continues no word and no dotted name. -/
inductive CallAt (src ns ident call : String) : Nat → Prop where
  | intro {before after : String} (text : src = before ++ (call ++ after))
      (fresh : Fresh before.toList.reverse) (form : IsCall ns.toList ident.toList call.toList) :
      CallAt src ns ident call before.utf8ByteSize

end Scan

namespace Token

/-- Each character of a text belongs to a token. -/
theorem exists_of_flatMap_chars {ts : List Token} {front rest : List Char}
    (h : ts.flatMap chars = front ++ rest) (hrest : rest ≠ []) :
    ∃ us t vs inner back, ts = us ++ t :: vs ∧ t.chars = inner ++ back ∧ back ≠ [] ∧
      front = us.flatMap chars ++ inner ∧ rest = back ++ vs.flatMap chars := by
  induction ts generalizing front with
  | nil => simp_all
  | cons t ts ih =>
    rw [List.flatMap_cons] at h
    have later (gap : List Char) (hfront : front = t.chars ++ gap)
        (hgap : ts.flatMap chars = gap ++ rest) : ∃ us u vs inner back, t :: ts = us ++ u :: vs ∧
          u.chars = inner ++ back ∧ back ≠ [] ∧ front = us.flatMap chars ++ inner ∧
          rest = back ++ vs.flatMap chars := by
      obtain ⟨us, u, vs, inner, back, rfl, hu, hne, rfl, hvs⟩ := ih hgap
      refine ⟨t :: us, u, vs, inner, back, rfl, hu, hne, ?_, hvs⟩
      rw [hfront, List.flatMap_cons, List.append_assoc]
    rcases List.append_eq_append_iff.mp h with ⟨gap, hfront, hgap⟩ | ⟨back, hchars, hback⟩
    · exact later gap hfront hgap
    · by_cases hne : back = []
      · rw [hne, List.append_nil] at hchars
        rw [hne, List.nil_append] at hback
        exact later [] (by rw [hchars, List.append_nil]) hback.symm
      · exact ⟨[], t, ts, front, back, rfl, hchars, hne, rfl, hback⟩

/-- No token starts inside of another one. -/
theorem Abut.eq_of_offset {p q : Position} {ts : List Token} (h : Abut p ts q) {t u : Token}
    (ht : t ∈ ts) (hu : u ∈ ts) (hle : u.pos.offset ≤ t.pos.offset)
    (hlt : t.pos.offset < u.stop.offset) : t = u := by
  obtain ⟨before, after, rfl⟩ := List.append_of_mem hu
  obtain ⟨m, hbefore, rfl, -, hafter⟩ := abut_append.mp h
  rcases List.mem_append.mp ht with ht | ht
  · obtain ⟨front, back, rfl⟩ := List.append_of_mem ht
    obtain ⟨_, -, rfl, hne, hback⟩ := abut_append.mp hbefore
    have hstop : t.pos.offset < t.stop.offset := Position.offset_lt_advance t.pos hne
    have hend := hback.offset_le
    omega
  · rcases List.mem_cons.mp ht with rfl | ht
    · rfl
    · obtain ⟨front, back, rfl⟩ := List.append_of_mem ht
      obtain ⟨_, hfront, rfl, -, -⟩ := abut_append.mp hafter
      have hend := hfront.offset_le
      omega

theorem Abut.offset_lt_stop {p q : Position} {ts : List Token} (h : Abut p ts q) {t : Token}
    (ht : t ∈ ts) : t.pos.offset < t.stop.offset := by
  obtain ⟨before, after, rfl⟩ := List.append_of_mem ht
  obtain ⟨_, -, -, hne, -⟩ := abut_append.mp h
  exact Position.offset_lt_advance t.pos hne

end Token

namespace Scanner

variable {src ns : String} {us vs : List Token} {t : Token}

/-- A placeholder token is a call. -/
theorem callAt_of_placeholder (h : tokenize src ns = us ++ t :: vs) (hk : t.kind = .placeholder) :
    ∃ ident, Scan.CallAt src ns ident t.literal t.pos.offset := by
  obtain ⟨c, cs, hchars, hlexeme⟩ := lexeme_of_tokenize_eq h
  rw [hk] at hlexeme
  obtain ⟨hfresh, ident, call, rest, hform, hsplit, hlength⟩ :=
    Scan.placeholderLength_eq_some_iff.mp (Scan.placeholderLength_of_lexeme hlexeme)
  rw [← List.cons_append, ← hchars] at hsplit
  obtain ⟨rfl, -⟩ := List.append_inj hsplit (by rw [hchars, hlength, List.length_cons])
  refine ⟨String.ofList ident, ?_⟩
  rw [pos_of_tokenize_eq h, (Position.isEnd_advance _).offset]
  have htext : src = String.ofList (us.flatMap Token.chars) ++
      (t.literal ++ String.ofList (vs.flatMap Token.chars)) := by
    rw [← String.toList_inj, toList_of_tokenize_eq h]
    simp [Token.chars]
  apply Scan.CallAt.intro htext
  · rwa [String.toList_ofList]
  · rwa [String.toList_ofList]

/-- Where a call stands, a placeholder token starts or a token that hides the call runs over it. -/
theorem exists_of_callAt {ident call : String} {i : Nat} (hns : Settings.IsNamespace ns)
    (h : Scan.CallAt src ns ident call i) :
    ∃ t ∈ tokenize src ns,
      t.kind = .placeholder ∧ t.pos.offset = i ∧ t.literal = call ∧
          t.placeholderName = some ident ∨
        t.kind.hidesCalls = true ∧ t.pos.offset < i ∧ i < t.stop.offset := by
  have hword : ∀ c ∈ ns.toList, Text.isWord c = true := fun c => hns.isWord
  cases h with
  | @intro before after text fresh form =>
    have hmeasure : Scan.placeholderLength ns.toList before.toList.reverse
        (call.toList ++ after.toList) = some call.toList.length :=
      Scan.placeholderLength_eq_some_iff.mpr ⟨fresh, ident.toList, call.toList, after.toList, form,
        rfl, rfl⟩
    have hchars : (tokenize src ns).flatMap Token.chars =
        before.toList ++ (call.toList ++ after.toList) := by
      rw [tokenize, flatMap_chars_tokens, ofText, text, String.toList_append, String.toList_append]
    obtain ⟨us, t, vs, inner, back, htokens, ht, hback, hbefore, hrest⟩ :=
      Token.exists_of_flatMap_chars hchars (by simp [form.ne_nil])
    obtain ⟨c, cs, hcons, hlexeme⟩ := lexeme_of_tokenize_eq htokens
    have hpos := pos_of_tokenize_eq htokens
    refine ⟨t, by rw [htokens]; exact List.mem_append_right us List.mem_cons_self, ?_⟩
    rw [hrest, hbefore] at hmeasure
    cases inner with
    | nil =>
      left
      rw [hcons] at ht
      obtain rfl : c :: cs = back := ht
      simp only [List.append_nil, List.cons_append] at hmeasure
      rw [Scan.lexeme_of_placeholderLength hword hns.1 hmeasure] at hlexeme
      obtain ⟨hk, hlength⟩ := Prod.mk.inj hlexeme
      have hliteral : t.literal = call := by
        have hpos := List.length_pos_iff.mpr form.ne_nil
        obtain ⟨hcall, -⟩ := List.append_inj hrest (by rw [List.length_cons]; omega)
        rw [← String.toList_inj, hcall]
        exact hcons
      have hname : Scan.IsCall ns.toList ident.toList t.chars := by
        rwa [Token.chars, hliteral]
      refine ⟨hk.symm, ?_, hliteral, ?_⟩
      · rw [hpos, ← Position.offset_advance_toList, hbefore, List.append_nil]
      · rw [hname.placeholderName_eq hword hk.symm, String.ofList_toList]
    | cons d inner =>
      right
      obtain ⟨e, back, rfl⟩ := List.exists_cons_of_ne_nil hback
      rw [hcons, List.cons_append] at ht
      obtain ⟨rfl, rfl⟩ := List.cons.inj ht
      rw [List.reverse_append, List.cons_append] at hmeasure
      rw [List.append_assoc, List.cons_append, List.length_append, List.length_cons] at hlexeme
      refine ⟨Scan.hidesCalls_of_inside hword hns.1 hlexeme hmeasure, ?_, ?_⟩
      · rw [hpos, ← Position.offset_advance_toList, hbefore, Position.advance_append]
        exact Position.offset_lt_advance _ (List.cons_ne_nil _ _)
      · rw [Token.stop, hpos, ← Position.offset_advance_toList, hbefore, hcons,
          ← Position.advance_append, ← List.cons_append, ← List.append_assoc,
          Position.advance_append _ _ (e :: back)]
        exact Position.offset_lt_advance _ (List.cons_ne_nil _ _)

/-- Placeholder tokens are exactly the calls that no quoted or commented token hides. -/
theorem placeholders_are_calls {ns : String} (hns : Settings.IsNamespace ns) (src : String) :
    (∀ i, (∃ t ∈ tokenize src ns, t.kind = .placeholder ∧ t.pos.offset = i) ↔
      (∃ ident call, Scan.CallAt src ns ident call i) ∧
        ∀ t ∈ tokenize src ns, t.kind.hidesCalls = true →
          ¬ (t.pos.offset < i ∧ i < t.stop.offset)) ∧
      ∀ t ∈ tokenize src ns, t.kind = .placeholder →
        ∀ ident call, Scan.CallAt src ns ident call t.pos.offset →
          t.literal = call ∧ t.placeholderName = some ident := by
  have habut : Token.Abut .start (tokenize src ns) _ := abut_tokens (ofText src ns)
  refine ⟨fun i => ⟨?_, ?_⟩, ?_⟩
  · rintro ⟨t, ht, hk, rfl⟩
    obtain ⟨us, vs, hsplit⟩ := List.append_of_mem ht
    obtain ⟨ident, hcall⟩ := callAt_of_placeholder hsplit hk
    refine ⟨⟨ident, t.literal, hcall⟩, ?_⟩
    rintro u hu - ⟨hlt, hstop⟩
    rw [habut.eq_of_offset ht hu hlt.le hstop] at hlt
    exact Nat.lt_irrefl _ hlt
  · rintro ⟨⟨ident, call, hcall⟩, hplain⟩
    obtain ⟨t, ht, ⟨hk, hi, -⟩ | ⟨hhides, hinside⟩⟩ := exists_of_callAt hns hcall
    · exact ⟨t, ht, hk, hi⟩
    · exact absurd hinside (hplain t ht hhides)
  · intro t ht hk ident call hcall
    have hstop := habut.offset_lt_stop ht
    obtain ⟨u, hu, ⟨-, hi, hread⟩ | ⟨hhides, hlt, hin⟩⟩ := exists_of_callAt hns hcall
    · rw [← habut.eq_of_offset hu ht hi.ge (hi ▸ hstop)]
      exact hread
    · rw [habut.eq_of_offset ht hu hlt.le hin] at hlt
      exact absurd hlt (Nat.lt_irrefl _)

/-- A call with blanks in it, one that goes on a dotted name, a quoted one and one in a comment. -/
theorem placeholders_are_calls_select :
    let src := "SELECT q.arg( 'b_2'\t), x.q.arg('a'), $$q.arg('b')$$ -- q.arg('c')"
    Settings.IsNamespace "q" ∧ (∃ ident call, Scan.CallAt src "q" ident call 7) ∧
      ∀ ident call, Scan.CallAt src "q" ident call 7 →
        "q.arg( 'b_2'\t)" = call ∧ "b_2" = ident := by
  intro src
  have hns : Settings.IsNamespace "q" := by decide
  have htoken : ∃ t ∈ tokenize src "q", t.kind = .placeholder ∧ t.pos.offset = 7 ∧
      t.literal = "q.arg( 'b_2'\t)" ∧ t.placeholderName = some "b_2" := by
    decide +kernel
  obtain ⟨t, ht, hk, hi, hliteral, hname⟩ := htoken
  obtain ⟨hstarts, hread⟩ := placeholders_are_calls hns src
  refine ⟨hns, ((hstarts 7).mp ⟨t, ht, hk, hi⟩).1, fun ident call hcall => ?_⟩
  obtain ⟨hcall, hident⟩ := hread t ht hk ident call (hi ▸ hcall)
  exact ⟨hliteral.symm.trans hcall, Option.some.inj (hname.symm.trans hident)⟩

end Scanner

end TypedSql
