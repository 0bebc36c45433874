import Mathlib.Data.List.SplitBy
import TypedSql.Proofs.Text.Runs
import TypedSql.Proofs.Token.Cover
import TypedSql.QueryFile.Parse

/-!
# Segments of a file

A file is cut behind every semicolon. `Token.segments` says so without looking at comments or
statements, and `Segment.map_tokens_cut` shows that reading a file cuts it in the same places.
Inside a segment everything up to the first token of substance is comments and blanks; a segment
without such a token is an empty statement.

Comments in front of a statement are put into groups while they are read, one comment after
another. The groups are the longest runs of comments in which each adjoins the next
(`CommentGroup.ofTrivia_eq_map_splitBy`).
-/

namespace TypedSql

namespace Token

/-- Whether a token makes a statement: it is no comment, no blank fragment and no semicolon. -/
def isSubstance (t : Token) : Bool :=
  !t.isTrivia && t.kind != .semicolon

def isIllegal (t : Token) : Bool :=
  t.kind matches .illegal _

/-- Tokens cut behind every semicolon. -/
def segments : List Token → List (List Token)
  | [] => []
  | t :: ts =>
    if t.kind = .semicolon then [t] :: segments ts
    else
      match segments ts with
      | [] => [[t]]
      | segment :: rest => (t :: segment) :: rest

@[simp] theorem segments_nil : segments [] = [] := rfl

@[simp] theorem flatten_segments (ts : List Token) : (segments ts).flatten = ts := by
  induction ts with
  | nil => rfl
  | cons t ts ih =>
    rw [segments]
    split
    · simp [ih]
    · split
      · rename_i hs
        rw [hs] at ih
        simpa using ih
      · rename_i hs
        rw [hs] at ih
        simpa using ih

theorem segments_append_semicolon {ts rest : List Token} {semicolon : Token}
    (hts : ∀ t ∈ ts, t.kind ≠ .semicolon) (hs : semicolon.kind = .semicolon) :
    segments (ts ++ semicolon :: rest) = (ts ++ [semicolon]) :: segments rest := by
  induction ts with
  | nil => simp [segments, hs]
  | cons t ts ih =>
    have ht := hts t List.mem_cons_self
    rw [List.cons_append, segments, if_neg ht, ih fun u hu => hts u (List.mem_cons_of_mem t hu)]
    rfl

theorem segments_of_forall_ne {ts : List Token} (hts : ∀ t ∈ ts, t.kind ≠ .semicolon)
    (hne : ts ≠ []) : segments ts = [ts] := by
  induction ts with
  | nil => contradiction
  | cons t ts ih =>
    have ht := hts t List.mem_cons_self
    rw [segments, if_neg ht]
    by_cases hts' : ts = []
    · simp [hts']
    · rw [ih (fun u hu => hts u (List.mem_cons_of_mem t hu)) hts']

end Token

namespace Segment

/-- The tokens of a segment in order. -/
def tokens (s : Segment) : List Token :=
  s.trivia ++ (s.body ++ s.semicolon.toList)

/-- What is true of the segments that a file is cut into. -/
structure Formed (s : Segment) : Prop where
  trivia : ∀ t ∈ s.trivia, t.isTrivia = true
  head : ∀ t ∈ s.body.head?, t.isTrivia = false
  body : ∀ t ∈ s.body, t.kind ≠ .semicolon
  semicolon : ∀ t ∈ s.semicolon, t.kind = .semicolon

theorem kind_ne_of_isTrivia {t : Token} (h : t.isTrivia = true) : t.kind ≠ .semicolon := by
  intro hk
  simp [Token.isTrivia, Token.isBlank, TokenKind.isComment, hk] at h

theorem isTrivia_of_kind {t : Token} (h : t.kind = .semicolon) : t.isTrivia = false := by
  simp [Token.isTrivia, Token.isBlank, TokenKind.isComment, h]

namespace Formed

variable {s : Segment}

/-- What comes behind the comments and blanks of a segment is none of them. -/
theorem isTrivia_head (h : s.Formed) (rest : List Token) (hs : s.semicolon.isSome ∨ rest = []) :
    ∀ t ∈ (s.body ++ s.semicolon.toList ++ rest).head?, t.isTrivia = false := by
  intro t ht
  match hb : s.body, hc : s.semicolon with
  | first :: _, _ =>
    rw [hb] at ht
    exact h.head t (by rw [hb]; exact ht)
  | [], some semicolon =>
    rw [hb, hc] at ht
    obtain rfl : semicolon = t := by simpa using ht
    exact isTrivia_of_kind (h.semicolon semicolon hc)
  | [], none =>
    rw [hc] at hs
    obtain rfl : rest = [] := by simpa using hs
    simp [hb, hc] at ht

theorem kind_head (h : s.Formed) (rest : List Token) (hs : s.semicolon.isSome ∨ rest = []) :
    ∀ t ∈ (s.semicolon.toList ++ rest).head?, (t.kind != .semicolon) = false := by
  intro t ht
  cases hc : s.semicolon with
  | some semicolon =>
    rw [hc] at ht
    obtain rfl : semicolon = t := by simpa using ht
    simp [h.semicolon semicolon hc]
  | none =>
    rw [hc] at hs
    obtain rfl : rest = [] := by simpa using hs
    simp [hc] at ht

theorem kind_body (h : s.Formed) : ∀ t ∈ s.body, (t.kind != .semicolon) = true := by
  intro t ht
  simpa using h.body t ht

/-- No token of a segment is a semicolon, but for the one that ends it. -/
theorem kind_front (h : s.Formed) : ∀ t ∈ s.trivia ++ s.body, t.kind ≠ .semicolon := by
  intro t ht
  rcases List.mem_append.mp ht with ht | ht
  · exact kind_ne_of_isTrivia (h.trivia t ht)
  · exact h.body t ht

end Formed

/-- The last segment of a file has no semicolon. -/
theorem cut_last {s : Segment} (h : s.Formed) (hs : s.semicolon = none) (hne : s.tokens ≠ []) :
    cut s.tokens = [s] := by
  obtain ⟨trivia, body, semicolon⟩ := s
  subst hs
  have hhead := h.isTrivia_head [] (.inr rfl)
  simp only [tokens, Option.toList_none, List.append_nil] at hne hhead ⊢
  have hdrop : ((trivia ++ body).dropWhile Token.isTrivia).dropWhile
      (fun t => t.kind != .semicolon) = [] := by
    rw [Runs.dropWhile_append h.trivia hhead]
    simpa using h.body
  rw [cut, if_neg hne]
  simp only [Runs.takeWhile_append h.trivia hhead, Runs.dropWhile_append h.trivia hhead]
  split
  · rfl
  · rename_i h'
    rw [hdrop] at h'
    contradiction

/-- Cutting goes on behind a semicolon. -/
theorem cut_append {s : Segment} {rest : List Token} (h : s.Formed) (hs : s.semicolon.isSome) :
    cut (s.tokens ++ rest) = s :: cut rest := by
  have hhead := h.isTrivia_head rest (.inl hs)
  have hkind := h.kind_head rest (.inl hs)
  obtain ⟨trivia, body, semicolon⟩ := s
  obtain ⟨semicolon, rfl⟩ := Option.isSome_iff_exists.mp hs
  simp only [tokens, Option.toList_some, List.append_assoc, List.cons_append, List.nil_append]
    at hhead hkind ⊢
  have hdrop : ((trivia ++ (body ++ semicolon :: rest)).dropWhile Token.isTrivia).dropWhile
      (fun t => t.kind != .semicolon) = semicolon :: rest := by
    rw [Runs.dropWhile_append h.trivia hhead]
    exact Runs.dropWhile_append h.kind_body hkind
  have hne : trivia ++ (body ++ semicolon :: rest) ≠ [] := by simp
  rw [cut, if_neg hne]
  simp only [Runs.takeWhile_append h.trivia hhead, Runs.dropWhile_append h.trivia hhead]
  split
  · rename_i h'
    rw [hdrop] at h'
    contradiction
  · rename_i h'
    rw [hdrop] at h'
    obtain ⟨rfl, rfl⟩ := List.cons.inj h'
    exact congrArg (fun body => ⟨trivia, body, some semicolon⟩ :: cut rest)
      (Runs.takeWhile_append h.kind_body hkind)

/-- A file that is not empty starts with a segment. -/
theorem exists_formed {tokens : List Token} (hne : tokens ≠ []) :
    ∃ (s : Segment) (rest : List Token), s.Formed ∧ tokens = s.tokens ++ rest ∧ s.tokens ≠ [] ∧
      (s.semicolon.isSome ∨ s.semicolon = none ∧ rest = []) := by
  obtain ⟨trivia, statement, rfl, htrivia, hhead⟩ := Runs.exists_eq_append Token.isTrivia tokens
  obtain ⟨body, rest, rfl, hbody, hrest⟩ :=
    Runs.exists_eq_append (fun t : Token => t.kind != .semicolon) statement
  have hhead' : ∀ t ∈ body.head?, t.isTrivia = false := by
    intro t ht
    apply hhead
    rw [List.head?_append, Option.mem_def.mp ht]
    rfl
  have hbody' : ∀ t ∈ body, t.kind ≠ .semicolon := fun t ht => by simpa using hbody t ht
  cases rest with
  | nil =>
    refine ⟨⟨trivia, body, none⟩, [], ⟨htrivia, hhead', hbody', by simp⟩, ?_, ?_, .inr ⟨rfl, rfl⟩⟩
    · simp [Segment.tokens]
    · simpa [Segment.tokens] using hne
  | cons semicolon rest =>
    have hkind : semicolon.kind = .semicolon := by simpa using hrest semicolon rfl
    refine ⟨⟨trivia, body, some semicolon⟩, rest, ⟨htrivia, hhead', hbody', ?_⟩, ?_, ?_, .inl rfl⟩
    · rintro t ⟨⟩
      exact hkind
    · simp [Segment.tokens]
    · simp [Segment.tokens]

/-- A property of whole files follows segment by segment, from the last one on. -/
theorem cut_induction {motive : List Token → List Segment → Prop} (nil : motive [] [])
    (last : ∀ s : Segment, s.Formed → s.semicolon = none → s.tokens ≠ [] → motive s.tokens [s])
    (cons : ∀ (s : Segment) (rest : List Token), s.Formed → s.semicolon.isSome →
      motive rest (cut rest) → motive (s.tokens ++ rest) (s :: cut rest))
    (tokens : List Token) : motive tokens (cut tokens) := by
  induction hn : tokens.length using Nat.strongRecOn generalizing tokens with
  | ind n ih =>
    by_cases hne : tokens = []
    · subst hne
      rw [cut, if_pos rfl]
      exact nil
    · obtain ⟨s, rest, hs, rfl, hs', hsemi | ⟨hsemi, rfl⟩⟩ := exists_formed hne
      · rw [cut_append hs hsemi]
        refine cons s rest hs hsemi (ih rest.length ?_ rest rfl)
        have := List.length_pos_of_ne_nil hs'
        rw [List.length_append] at hn
        omega
      · rw [List.append_nil, cut_last hs hsemi hs']
        exact last s hs hsemi hs'

theorem formed_of_mem_cut {tokens : List Token} {s : Segment} (h : s ∈ cut tokens) :
    s.Formed := by
  induction tokens using cut_induction with
  | nil => simp at h
  | last s' hs' => simpa [List.mem_singleton.mp h] using hs'
  | cons s' rest hs' _ ih =>
    rcases List.mem_cons.mp h with rfl | h
    · exact hs'
    · exact ih h

/-- Reading a file cuts it behind every semicolon. -/
theorem map_tokens_cut (tokens : List Token) :
    (cut tokens).map Segment.tokens = Token.segments tokens := by
  induction tokens using cut_induction with
  | nil => rfl
  | last s hs hsemi hne =>
    have hfront := hs.kind_front
    rw [List.map_singleton]
    rw [Segment.tokens, hsemi, Option.toList_none, List.append_nil] at hne ⊢
    exact (Token.segments_of_forall_ne hfront hne).symm
  | cons s rest hs hsemi ih =>
    obtain ⟨semicolon, hsemi⟩ := Option.isSome_iff_exists.mp hsemi
    rw [List.map_cons, ih, Segment.tokens, hsemi, Option.toList_some, ← List.append_assoc,
      List.append_assoc _ _ rest, List.singleton_append]
    exact (Token.segments_append_semicolon hs.kind_front (hs.semicolon semicolon hsemi)).symm

theorem flatten_tokens_cut (tokens : List Token) :
    ((cut tokens).map Segment.tokens).flatten = tokens := by
  rw [map_tokens_cut, Token.flatten_segments]

theorem mem_of_mem_cut {tokens : List Token} {s : Segment} (hs : s ∈ cut tokens) {t : Token}
    (ht : t ∈ s.tokens) : t ∈ tokens := by
  rw [← flatten_tokens_cut tokens]
  exact List.mem_flatten_of_mem (List.mem_map_of_mem hs) ht

end Segment

namespace Segment.Formed

variable {s : Segment}

/-- The comments and blanks in front of a statement. -/
theorem takeWhile_isTrivia (h : s.Formed) : s.tokens.takeWhile Token.isTrivia = s.trivia := by
  have hhead := h.isTrivia_head [] (.inr rfl)
  rw [List.append_nil] at hhead
  exact Runs.takeWhile_append h.trivia hhead

theorem find?_isSubstance (h : s.Formed) : s.tokens.find? Token.isSubstance = s.body.head? := by
  have htrivia : s.trivia.find? Token.isSubstance = none := by
    rw [List.find?_eq_none]
    intro t ht
    simp [Token.isSubstance, h.trivia t ht]
  rw [Segment.tokens, List.find?_append, htrivia, Option.none_or]
  cases hb : s.body with
  | nil =>
    cases hc : s.semicolon with
    | none => rfl
    | some semicolon => simp [Token.isSubstance, h.semicolon semicolon hc]
  | cons first body =>
    have hfirst : first.isSubstance = true := by
      have hk := h.body first (by simp [hb])
      have ht := h.head first (by simp [hb])
      simp [Token.isSubstance, ht, hk]
    simp [hfirst]

theorem any_isSubstance (h : s.Formed) :
    s.tokens.any Token.isSubstance = !s.body.isEmpty := by
  rw [← List.isSome_find?, h.find?_isSubstance]
  cases s.body <;> rfl

theorem find?_semicolon (h : s.Formed) :
    s.tokens.find? (fun t => t.kind == .semicolon) = s.semicolon := by
  have hfront : (s.trivia ++ s.body).find? (fun t => t.kind == .semicolon) = none := by
    rw [List.find?_eq_none]
    intro t ht
    simpa using h.kind_front t ht
  rw [Segment.tokens, ← List.append_assoc, List.find?_append, hfront, Option.none_or]
  cases hc : s.semicolon with
  | none => rfl
  | some semicolon => simp [h.semicolon semicolon hc]

theorem any_isIllegal (h : s.Formed) :
    s.tokens.any Token.isIllegal = s.body.any Token.isIllegal := by
  have htrivia : s.trivia.any Token.isIllegal = false := by
    rw [List.any_eq_false]
    intro t ht hi
    have := h.trivia t ht
    cases hk : t.kind <;>
      simp_all [Token.isIllegal, Token.isTrivia, Token.isBlank, TokenKind.isComment]
  have hsemi : s.semicolon.toList.any Token.isIllegal = false := by
    rw [List.any_eq_false]
    intro t ht
    have := h.semicolon t (by simpa using ht)
    simp [Token.isIllegal, this]
  rw [Segment.tokens, List.any_append, List.any_append, htrivia, hsemi, Bool.false_or,
    Bool.or_false]

end Segment.Formed

namespace CommentGroup

/-- Whether a comment and the next one belong to one group: no blank line lies between them. -/
def adjoins (t u : Token) : Bool :=
  u.pos.line ≤ t.endLine + 1

theorem adjoins_eq_touches {comments : List Token} {t : Token} (u : Token)
    (ht : comments.getLast? = some t) : adjoins t u = touches ⟨comments⟩ u.pos.line := by
  simp [adjoins, touches, endLine, ht]

/-- A comment that adjoins the last group goes into it. -/
theorem splitBy_append_of_adjoins {comments group : List Token} {groups : List (List Token)}
    {t u : Token} (h : comments.splitBy adjoins = groups ++ [group]) (ht : group.getLast? = some t)
    (hu : adjoins t u = true) :
    (comments ++ [u]).splitBy adjoins = groups ++ [group ++ [u]] := by
  obtain ⟨rfl, hnil, hchain, hbreak⟩ := List.splitBy_eq_iff.mp h
  have hgroup : group ≠ [] := by
    rintro rfl
    simp at hnil
  rw [List.splitBy_eq_iff]
  refine ⟨by simp, by simpa [hgroup] using hnil, ?_, ?_⟩
  · intro m hm
    rcases List.mem_append.mp hm with hm | hm
    · exact hchain m (List.mem_append_left _ hm)
    · obtain rfl := List.mem_singleton.mp hm
      refine List.isChain_append.mpr ⟨hchain group (by simp), by simp, ?_⟩
      intro x hx y hy
      obtain rfl : t = x := by simpa [ht] using hx
      obtain rfl : u = y := by simpa using hy
      exact hu
  · obtain ⟨hgroups, -, hlink⟩ := List.isChain_append.mp hbreak
    refine List.isChain_append.mpr ⟨hgroups, by simp, ?_⟩
    intro x hx y hy
    obtain rfl : group ++ [u] = y := by simpa using hy
    obtain ⟨hx', hg, hfalse⟩ := hlink x hx group (by simp)
    exact ⟨hx', by simp, by rwa [List.head_append_of_ne_nil hg]⟩

theorem foldl_addTo (comments : List Token) :
    comments.foldl addTo [] = (comments.splitBy adjoins).map CommentGroup.mk := by
  induction comments using List.reverseRecOn with
  | nil => rfl
  | append_singleton comments u ih =>
    rw [List.foldl_append, ih, List.foldl_cons, List.foldl_nil]
    rcases List.eq_nil_or_concat (comments.splitBy adjoins) with hsplit | ⟨groups, group, hsplit⟩
    · obtain rfl := List.splitBy_eq_nil.mp hsplit
      rfl
    · rw [List.concat_eq_append] at hsplit
      have hne : comments ≠ [] := by
        rintro rfl
        simp at hsplit
      have hgroup' : group ≠ [] := List.ne_nil_of_mem_splitBy (by rw [hsplit]; simp)
      have hgroup : group.getLast? = some (comments.getLast hne) := by
        have hlast := List.getLast_getLast_splitBy adjoins hne
        simp only [hsplit, List.getLast_append_singleton] at hlast
        rw [List.getLast?_eq_some_getLast hgroup', hlast]
      have htouch := adjoins_eq_touches u hgroup
      rw [hsplit]
      simp only [addTo, List.map_append, List.map_singleton, List.getLast?_concat,
        List.dropLast_concat]
      cases hu : adjoins (comments.getLast hne) u with
      | true =>
        rw [splitBy_append_of_adjoins hsplit hgroup hu, if_pos (by rw [← htouch, hu])]
        simp
      | false =>
        rw [List.splitBy_append_cons (a := u) [], hsplit, if_neg (by rw [← htouch, hu]; simp)]
        · simp [List.splitBy, List.splitBy.loop]
        · intro x hx
          rw [List.getLast?_eq_some_getLast hne] at hx
          obtain rfl : comments.getLast hne = x := by simpa using hx
          exact hu

/-- The groups in front of a statement are the longest runs of adjoining comments. -/
theorem ofTrivia_eq_map_splitBy (tokens : List Token) :
    ofTrivia tokens =
      ((tokens.filter (·.kind.isComment)).splitBy adjoins).map CommentGroup.mk :=
  foldl_addTo _

/-- The comments of a group stand in the order of the text. -/
theorem sublist_of_mem_ofTrivia {g : CommentGroup} {tokens : List Token}
    (h : g ∈ ofTrivia tokens) : g.comments ≠ [] ∧ g.comments.Sublist tokens := by
  rw [ofTrivia_eq_map_splitBy] at h
  obtain ⟨comments, hmem, rfl⟩ := List.mem_map.mp h
  refine ⟨List.ne_nil_of_mem_splitBy hmem, ?_⟩
  have hsub := List.sublist_flatten_of_mem hmem
  rw [List.flatten_splitBy] at hsub
  exact hsub.trans List.filter_sublist

end CommentGroup

end TypedSql
