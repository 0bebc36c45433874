import TypedSql.Proofs.QueryFile.Statements
import TypedSql.Proofs.Token.Boundary
import TypedSql.Proofs.Token.Place

/-!
# Statements outside of their file

The statement of a source query is a piece of its file, from the first character that is not blank
through the semicolon. It can be read again without the file: the text in front of it ends in a
fresh place, and what follows stands behind a semicolon. The tokens of the piece are therefore those
that were found in the file, and so are the placeholder calls among them
(`QueryFile.prepared_standalone`).

This holds for each query of a file, whether or not reading stopped in front of the end.
-/

namespace TypedSql

namespace Draft

variable {d : Draft} {stop : Position} {s : Segment} {q : Query}

theorem mem_queries_addStatement {first : Token}
    (h : q ∈ (d.addStatement stop s first).queries) : q ∈ d.queries ∨ q = s.query stop first := by
  have hread : (s.body.foldl addToken { d with seen := true }).queries = d.queries :=
    queries_foldl_addToken s.body _
  rw [addStatement_eq] at h
  simp only at h
  split at h
  · rw [hread] at h
    exact .inl h
  · cases hfault : s.fault? first <;> simpa [hfault, hread] using h

theorem mem_queries_addSegment (h : q ∈ (d.addSegment stop s).queries) :
    q ∈ d.queries ∨ s.query? stop = some q := by
  unfold addSegment at h
  split at h
  · exact .inl h
  · simp only at h
    cases hb : s.body with
    | nil =>
      rw [hb] at h
      exact .inl (by simpa using h)
    | cons first body =>
      rw [hb] at h
      rcases mem_queries_addStatement h with h | rfl
      · exact .inl (by simpa using h)
      · right
        rw [Segment.query?, hb]
        rfl

theorem mem_queries_foldl_addSegment {segments : List Segment}
    (h : q ∈ (segments.foldl (addSegment stop) d).queries) :
    q ∈ d.queries ∨ ∃ s ∈ segments, s.query? stop = some q := by
  induction segments generalizing d with
  | nil => exact .inl h
  | cons s segments ih =>
    rcases ih h with hq | ⟨t, ht, hq⟩
    · rcases mem_queries_addSegment hq with hq | hq
      · exact .inl hq
      · exact .inr ⟨s, List.mem_cons_self, hq⟩
    · exact .inr ⟨t, List.mem_cons_of_mem s ht, hq⟩

/-- Each query of a file is the query of one of its segments. -/
theorem exists_of_mem_queries_ofTokens {tokens : List Token}
    (h : q ∈ (ofTokens stop tokens).queries) :
    ∃ s ∈ Segment.cut tokens, s.query? stop = some q := by
  rcases mem_queries_foldl_addSegment h with hq | hq
  · contradiction
  · exact hq

end Draft

namespace Segment

variable {s : Segment} {stop : Position} {first semicolon : Token} {body : List Token}

/-- A terminated statement without illegal tokens. -/
structure IsTerminated (s : Segment) (first : Token) (body : List Token) (semicolon : Token) :
    Prop where
  body : s.body = first :: body
  semicolon : s.semicolon = some semicolon
  legal : ∀ t ∈ s.body, t.isIllegal = false

/-- A source query is made of a terminated statement. -/
theorem exists_isTerminated {q : SourceQuery} (h : s.query? stop = some (.source q)) :
    ∃ first body semicolon a, s.IsTerminated first body semicolon ∧
      q = Draft.sourceQuery a s.statement ⟨first.significantStart, semicolon.stop⟩ := by
  obtain ⟨first, hfirst, hquery⟩ := Option.map_eq_some_iff.mp h
  obtain ⟨body, hbody⟩ := List.head?_eq_some_iff.mp hfirst
  unfold query at hquery
  cases hsemi : s.semicolon with
  | none =>
    rw [hsemi] at hquery
    contradiction
  | some semicolon =>
    rw [hsemi] at hquery
    cases hlegal : s.body.any Token.isIllegal with
    | true => simp [hlegal] at hquery
    | false =>
      simp only [hlegal, Bool.false_eq_true, if_false] at hquery
      split at hquery
      · rename_i a _
        refine ⟨first, body, semicolon, a, ⟨hbody, hsemi, ?_⟩, (Query.source.inj hquery).symm⟩
        intro t ht
        simpa using List.any_eq_false.mp hlegal t ht
      · contradiction

/-- A segment stands in its file behind a semicolon, or at the start. -/
theorem exists_of_mem_cut {tokens : List Token} (h : s ∈ cut tokens) :
    ∃ before after, tokens = before ++ (s.tokens ++ after) ∧
      ∀ t ∈ before.getLast?, t.kind = .semicolon := by
  induction tokens using cut_induction with
  | nil => contradiction
  | last s' =>
    obtain rfl := List.mem_singleton.mp h
    exact ⟨[], [], by simp, nofun⟩
  | cons s' rest hs' hsemi ih =>
    rcases List.mem_cons.mp h with rfl | h
    · exact ⟨[], rest, rfl, nofun⟩
    · obtain ⟨before, after, hrest, hbefore⟩ := ih h
      obtain ⟨semicolon, hsemi⟩ := Option.isSome_iff_exists.mp hsemi
      refine ⟨s'.tokens ++ before, after, by rw [hrest, List.append_assoc], ?_⟩
      rcases List.eq_nil_or_concat before with rfl | ⟨front, t, rfl⟩
      · have hlast : s'.tokens.getLast? = some semicolon := by
          rw [tokens, hsemi, Option.toList_some, ← List.append_assoc, List.getLast?_concat]
        rw [List.append_nil, hlast]
        rintro t ⟨⟩
        exact hs'.semicolon semicolon hsemi
      · rw [List.concat_eq_append, ← List.append_assoc, List.getLast?_concat]
        rintro u ⟨⟩
        exact hbefore t (by simp)

theorem IsTerminated.tokens_eq (h : s.IsTerminated first body semicolon) :
    s.tokens = s.trivia ++ (first :: body ++ [semicolon]) := by
  rw [tokens, h.body, h.semicolon, Option.toList_some]

theorem IsTerminated.statement_eq (h : s.IsTerminated first body semicolon) :
    s.statement = first.trimStart :: (body ++ [semicolon]) := by
  rw [statement, h.body, h.semicolon]
  rfl

theorem IsTerminated.map_lexeme_statement (h : s.IsTerminated first body semicolon)
    (hsemi : semicolon.lexeme = ⟨.semicolon, [';']⟩) :
    s.statement.map Token.lexeme =
      first.lexeme.trimStart :: body.map Token.lexeme ++ [⟨.semicolon, [';']⟩] := by
  rw [h.statement_eq, List.map_cons, List.map_append, List.map_singleton, hsemi,
    Token.lexeme_trimStart, List.cons_append]

/-- The text of the statement of a segment. -/
def text (s : Segment) : String :=
  String.join (s.statement.map Token.literal)

theorem toList_text (s : Segment) : s.text.toList = s.statement.flatMap Token.chars := by
  rw [text, String.toList_join, List.flatMap_map]
  rfl

/-- A terminated statement is cut into the same lexemes when it is read alone. -/
theorem IsTerminated.cuts {src ns : String} (h : s.IsTerminated first body semicolon)
    (hns : Settings.IsNamespace ns) (hs : s ∈ cut (tokenize src ns)) :
    Scan.Cuts ns.toList [] (s.statement.map Token.lexeme) [] := by
  obtain ⟨before, after, htokens, hbefore⟩ := exists_of_mem_cut hs
  have hformed := formed_of_mem_cut hs
  have hsemi : semicolon.lexeme = ⟨.semicolon, [';']⟩ := by
    apply Scanner.lexeme_of_kind_semicolon (s := Scanner.ofText src ns)
    · change semicolon ∈ tokenize src ns
      rw [htokens, h.tokens_eq]
      simp
    · exact hformed.semicolon semicolon h.semicolon
  have hfile : Scan.Cuts ns.toList [] ((tokenize src ns).map Token.lexeme) [] :=
    Scanner.cuts_tokens (Scanner.ofText src ns)
  have hsplit : (tokenize src ns).map Token.lexeme = (before ++ s.trivia).map Token.lexeme ++
      (first.lexeme :: body.map Token.lexeme ++ [⟨.semicolon, [';']⟩]) ++
        after.map Token.lexeme := by
    rw [htokens, h.tokens_eq]
    simp [hsemi]
  rw [hsplit] at hfile
  rw [h.map_lexeme_statement hsemi]
  apply hfile.of_append.cut_out (fun c hc => hns.isWord hc) hns.1
  · intro m hm
    rw [List.getLast?_map] at hm
    obtain ⟨t, ht, rfl⟩ := Option.map_eq_some_iff.mp hm
    rw [Token.isOutside_lexeme_iff]
    rcases List.eq_nil_or_concat s.trivia with htrivia | ⟨front, u, htrivia⟩
    · rw [htrivia, List.append_nil] at ht
      exact .inl (hbefore t ht)
    · rw [htrivia, List.concat_eq_append, ← List.append_assoc, List.getLast?_concat] at ht
      obtain rfl := Option.some.inj ht
      exact .inr (hformed.trivia u (by simp [htrivia]))
  · have hfirst : first ∈ s.body.head? := by
      rw [h.body]
      rfl
    rw [Token.isOutside_lexeme_iff, not_or, hformed.head first hfirst]
    exact ⟨hformed.body first (List.mem_of_head? hfirst), Bool.false_ne_true⟩

/-- Reading a statement alone gives the placeholder calls that were found in the file. -/
theorem IsTerminated.ofText_eq {src ns : String} (h : s.IsTerminated first body semicolon)
    (hns : Settings.IsNamespace ns) (hs : s ∈ cut (tokenize src ns)) :
    Prepared.ofText s.text ns = Prepared.ofTokens s.statement := by
  have htext : s.text.toList = Lexeme.text (s.statement.map Token.lexeme) := by
    rw [toList_text, Lexeme.text_map_lexeme]
  have htokens : tokenize s.text ns = Lexeme.place .start (s.statement.map Token.lexeme) :=
    Scanner.tokens_eq_place (s := Scanner.ofText s.text ns) (h.cuts hns hs) htext
  apply Prepared.ofTokens_eq_of_map_lexeme
  rw [htokens, Lexeme.map_lexeme_place]

/-- A terminated statement is the text between its places. -/
theorem IsTerminated.isSlice {src ns : String} (h : s.IsTerminated first body semicolon)
    (hs : s ∈ cut (tokenize src ns)) :
    Text.IsSlice src first.significantStart.offset semicolon.stop.offset s.text := by
  obtain ⟨before, after, htokens, -⟩ := exists_of_mem_cut hs
  have hcover := Scanner.abut_tokenize src ns
  have hsrc : (tokenize src ns).flatMap Token.chars = src.toList :=
    Scanner.flatMap_chars_tokens (Scanner.ofText src ns)
  have hfirst : tokenize src ns =
      (before ++ s.trivia) ++ first :: (body ++ semicolon :: after) := by
    rw [htokens, h.tokens_eq]
    simp
  have hlast : tokenize src ns =
      (before ++ s.trivia ++ first :: body) ++ semicolon :: after := by
    rw [hfirst]
    simp
  have hstart : first.significantStart = Position.start.advance
      ((before ++ s.trivia).flatMap Token.chars ++ first.lexeme.blanks) := by
    rw [hfirst] at hcover
    rw [Token.significantStart_eq, hcover.pos_eq_advance, Position.advance_append]
  have hstop : semicolon.stop = Position.start.advance
      ((before ++ s.trivia).flatMap Token.chars ++ first.lexeme.blanks ++ s.text.toList) := by
    rw [hlast] at hcover
    rw [Token.stop, hcover.pos_eq_advance, ← Position.advance_append, toList_text, h.statement_eq]
    simp [← first.blanks_append_trimStart]
  have hpieces : src.toList = (before ++ s.trivia).flatMap Token.chars ++ first.lexeme.blanks ++
      (s.text.toList ++ after.flatMap Token.chars) := by
    rw [← hsrc, hfirst, toList_text, h.statement_eq]
    simp [← first.blanks_append_trimStart]
  have hslice := Text.isSlice_advance hpieces
  rwa [← hstart, ← hstop, String.ofList_toList] at hslice

end Segment

namespace QueryFile

/-- The statement of each source query is the text that its span covers, and preparing it alone
gives what was prepared in the file. -/
theorem prepared_standalone {ns : String} (hns : Settings.IsNamespace ns) (name src : String)
    (q : SourceQuery) (hq : .source q ∈ (parse name src ns).file.queries) :
    Text.IsSlice src q.span.start.offset q.span.stop.offset q.sourceSql ∧
      Prepared.ofText q.sourceSql ns = ⟨q.preparedSql, q.params⟩ := by
  obtain ⟨s, hs, hquery⟩ := Draft.exists_of_mem_queries_ofTokens hq
  obtain ⟨first, body, semicolon, a, h, rfl⟩ := Segment.exists_isTerminated hquery
  exact ⟨h.isSlice hs, h.ofText_eq hns hs⟩

/-- A statement behind a line comment that ends in a word, with a call that is none because it
goes on a dotted name, and semicolons in strings. -/
theorem prepared_standalone_behindComment :
    let src := "-- name: A :one\nSELECT 'é;';-- name: B :many\n  ns.arg('Id'), x.ns.arg('No'), " ++
      "E'\\';' $q$;$q$, ns.arg( 'Id' ) ;"
    let q : SourceQuery :=
      { name := "B"
        doc := []
        sourceSql := "ns.arg('Id'), x.ns.arg('No'), E'\\';' $q$;$q$, ns.arg( 'Id' ) ;"
        preparedSql := "$1, x.ns.arg('No'), E'\\';' $q$;$q$, $1 ;"
        params := ["Id"]
        kind := .many
        protoType := none
        span := ⟨⟨48, 3, 3⟩, ⟨110, 3, 65⟩⟩ }
    Settings.IsNamespace "ns" ∧ .source q ∈ (parse "a.sql" src "ns").file.queries ∧
      Text.IsSlice src 48 110 q.sourceSql ∧
      Prepared.ofText q.sourceSql "ns" = ⟨q.preparedSql, q.params⟩ := by
  intro src q
  have hns : Settings.IsNamespace "ns" := by decide +kernel
  have hq : .source q ∈ (parse "a.sql" src "ns").file.queries := by decide +kernel
  exact ⟨hns, hq, prepared_standalone hns "a.sql" src q hq⟩

end QueryFile

end TypedSql
