import TypedSql.Proofs.Annotation.Print
import TypedSql.Proofs.QueryFile.Annotated
import TypedSql.Proofs.QueryFile.Heading

/-!
# Query files that are written and read back

A query is written as its comment, line by line, and its statement with a semicolon; a file of
queries has a blank line between each query and the next. Reading such a file gives the queries
back (`QueryFile.parse_fileText`).

The tokens of the statement are found in the file as they are found in the statement alone. What
stands before it ends in a line feed, which is a fresh place, and what follows stands behind its
semicolon.
-/

namespace TypedSql

/-- A query to be written: the statement is without its semicolon. -/
structure QuerySpec where
  annotation : Annotation
  body : String

namespace QuerySpec

/-- The statement through its semicolon. -/
def statement (q : QuerySpec) : String :=
  q.body ++ ";"

/-- The text of a query. -/
def text (q : QuerySpec) : String :=
  String.join (q.annotation.lines.map fun line => "-- " ++ line ++ "\n") ++ q.statement

/-- The text of a file of queries. -/
def fileText (specs : List QuerySpec) : String :=
  String.intercalate "\n\n" (specs.map text)

/-- Tokens of one legal statement: some that are neither semicolons nor illegal, and a semicolon
behind them. -/
def IsStatement (tokens : List Token) : Prop :=
  ∃ ts semicolon, tokens = ts ++ [semicolon] ∧ ts ≠ [] ∧
    (∀ t ∈ ts, t.kind ≠ .semicolon ∧ t.isIllegal = false) ∧ semicolon.kind = .semicolon

instance : DecidablePred IsStatement := fun tokens =>
  decidable_of_iff (tokens.dropLast ≠ [] ∧
      (tokens.dropLast.all fun t => t.kind ≠ .semicolon ∧ t.isIllegal = false) = true ∧
      tokens.getLast?.any (·.kind == .semicolon) = true) <| by
    simp only [List.all_eq_true, decide_eq_true_eq]
    constructor
    · rintro ⟨hne, hts, hlast⟩
      rcases List.eq_nil_or_concat tokens with rfl | ⟨ts, semicolon, rfl⟩
      · exact absurd rfl hne
      · rw [List.concat_eq_append, List.dropLast_concat] at hne hts
        rw [List.concat_eq_append, List.getLast?_concat] at hlast
        exact ⟨ts, semicolon, List.concat_eq_append, hne, hts, by simpa using hlast⟩
    · rintro ⟨ts, semicolon, rfl, hne, hts, hkind⟩
      rw [List.dropLast_concat, List.getLast?_concat]
      exact ⟨hne, hts, by simp [hkind]⟩

/-- A query whose statement is a legal one and starts with neither a blank nor a comment. -/
structure IsPrintable (ns : String) (q : QuerySpec) : Prop where
  annotation : q.annotation.IsPrintable
  blank : ∀ c ∈ q.body.toList.head?, Text.isBlank c = false
  comment : ¬ "--".toList <+: q.body.toList ∧ ¬ "/*".toList <+: q.body.toList
  tokens : IsStatement (tokenize q.statement ns)

instance (ns : String) : DecidablePred (IsPrintable ns) := fun q =>
  decidable_of_iff (q.annotation.IsPrintable ∧
      q.body.toList.head?.all (!Text.isBlank ·) = true ∧
      (¬ "--".toList <+: q.body.toList ∧ ¬ "/*".toList <+: q.body.toList) ∧
      IsStatement (tokenize q.statement ns)) <| by
    simp only [Option.all_eq_true, Bool.not_eq_true']
    exact ⟨fun ⟨h₁, h₂, h₃, h₄⟩ => ⟨h₁, h₂, h₃, h₄⟩,
      fun h => ⟨h.annotation, h.blank, h.comment, h.tokens⟩⟩

/-- What is read of a query at a place of a file. -/
def query (ns : String) (q : QuerySpec) (span : Span) : Query :=
  .source
    { name := q.annotation.name
      doc := q.annotation.doc
      sourceSql := q.statement
      preparedSql := (Prepared.ofText q.statement ns).sql
      params := (Prepared.ofText q.statement ns).names
      kind := q.annotation.kind
      protoType := q.annotation.protoType
      span }

end QuerySpec

namespace QuerySpec

variable {ns : String} {q : QuerySpec}

/-- The lexemes of the statement through its semicolon. -/
def statementLexemes (ns : String) (q : QuerySpec) : List Lexeme :=
  (tokenize q.statement ns).map Token.lexeme

theorem text_statementLexemes (ns : String) (q : QuerySpec) :
    Lexeme.text (q.statementLexemes ns) = q.statement.toList := by
  rw [statementLexemes, Lexeme.text_map_lexeme]
  exact Scanner.flatMap_chars_tokens (Scanner.ofText q.statement ns)

theorem toList_statement (q : QuerySpec) : q.statement.toList = q.body.toList ++ [';'] := by
  simp [statement]

/-- The lexemes of a printable statement: some that neither end it nor are illegal, and the
semicolon. -/
theorem IsPrintable.exists_statementLexemes (h : q.IsPrintable ns) :
    ∃ ls, q.statementLexemes ns = ls ++ [⟨.semicolon, [';']⟩] ∧ ls ≠ [] ∧
      ∀ l ∈ ls, l.kind ≠ .semicolon ∧ ∀ r, l.kind ≠ .illegal r := by
  obtain ⟨ts, semicolon, htokens, hne, hts, hsemi⟩ := h.tokens
  have hmem : semicolon ∈ (Scanner.ofText q.statement ns).tokens := by
    change semicolon ∈ tokenize q.statement ns
    rw [htokens]
    exact List.mem_append_right _ List.mem_cons_self
  have hlexeme := Scanner.lexeme_of_kind_semicolon hmem hsemi
  refine ⟨ts.map Token.lexeme, ?_, by simpa using hne, ?_⟩
  · rw [statementLexemes, htokens, List.map_append, List.map_singleton, hlexeme]
  · intro l hl
    obtain ⟨t, ht, rfl⟩ := List.mem_map.mp hl
    obtain ⟨hne, hlegal⟩ := hts t ht
    refine ⟨hne, fun r hr => ?_⟩
    rw [Token.kind_lexeme] at hr
    simp [Token.isIllegal, hr] at hlegal

/-- A printable statement is cut into its lexemes whatever follows it. -/
theorem IsPrintable.cuts_statementLexemes (h : q.IsPrintable ns)
    (hns : ∀ c ∈ ns.toList, Text.isWord c = true) (hne : ns.toList ≠ []) (after : List Char) :
    Scan.Cuts ns.toList [] (q.statementLexemes ns) after := by
  obtain ⟨ls, hls, -⟩ := h.exists_statementLexemes
  have hcuts : Scan.Cuts ns.toList [] (q.statementLexemes ns) [] :=
    Scanner.cuts_tokens (Scanner.ofText q.statement ns)
  rw [hls] at hcuts ⊢
  exact hcuts.through_semicolon hns hne after

/-- The body of a printable statement is not empty. -/
theorem IsPrintable.exists_body_eq_cons (h : q.IsPrintable ns) :
    ∃ c cs, q.body.toList = c :: cs := by
  obtain ⟨ls, hls, hne, -⟩ := h.exists_statementLexemes
  apply List.exists_cons_of_ne_nil
  intro hbody
  have htext := text_statementLexemes ns q
  have hcuts : Scan.Cuts ns.toList [] (q.statementLexemes ns) [] :=
    Scanner.cuts_tokens (Scanner.ofText q.statement ns)
  rw [hls] at hcuts htext
  rw [toList_statement, hbody, Lexeme.text_append, List.nil_append] at htext
  obtain ⟨l, ls, rfl⟩ := List.exists_cons_of_ne_nil hne
  cases hcuts with
  | cons head tail => simp at htext

/-- A printable statement starts with a lexeme that is neither blank nor a comment. -/
theorem IsPrintable.exists_isStart (h : q.IsPrintable ns) :
    ∃ l ls, q.statementLexemes ns = l :: ls ∧ l.IsStart := by
  obtain ⟨d, ds, hbody⟩ := h.exists_body_eq_cons
  have htext := text_statementLexemes ns q
  have hcuts : Scan.Cuts ns.toList [] (q.statementLexemes ns) [] :=
    Scanner.cuts_tokens (Scanner.ofText q.statement ns)
  rw [toList_statement, hbody] at htext
  obtain ⟨l, ls, hls⟩ : ∃ l ls, q.statementLexemes ns = l :: ls := by
    apply List.exists_cons_of_ne_nil
    intro hnil
    rw [hnil] at htext
    contradiction
  rw [hls] at hcuts htext
  refine ⟨l, ls, hls, ?_⟩
  cases hcuts with
  | @cons _ _ cs c kind _ head tail =>
    simp only [Lexeme.text_cons, List.cons_append] at htext
    obtain ⟨rfl, hrest⟩ := List.cons.inj htext
    rw [List.append_nil] at head
    have hsecond (e : Char) (he : e ≠ ';') (h : (cs ++ Lexeme.text ls).head? = some e) :
        [c, e] <+: q.body.toList := by
      rw [hrest, Scan.head?_append_semicolon he] at h
      obtain ⟨es, rfl⟩ := List.head?_eq_some_iff.mp h
      rw [hbody]
      exact ⟨es, rfl⟩
    refine ⟨?_, c, cs, rfl, h.blank c (by rw [hbody]; rfl)⟩
    cases kind with
    | lineComment =>
      obtain ⟨rfl, hhead⟩ := Scan.eq_of_kind_lineComment (by rw [head])
      exact absurd (hsecond '-' (by decide) hhead) h.comment.1
    | blockComment =>
      obtain ⟨rfl, hhead⟩ := Scan.eq_of_kind_blockComment (by rw [head])
      exact absurd (hsecond '*' (by decide) hhead) h.comment.2
    | _ => rfl

/-- The lexemes of the text of a query. -/
def lexemes (ns : String) (q : QuerySpec) : List Lexeme :=
  Lexeme.heading q.annotation.lines (q.statementLexemes ns)

theorem text_lexemes (ns : String) (q : QuerySpec) :
    Lexeme.text (q.lexemes ns) = q.text.toList := by
  rw [lexemes, Lexeme.text_heading, text_statementLexemes, text]
  simp [List.flatMap_map]

theorem newline_not_mem_of_isPrintable (h : q.IsPrintable ns) :
    ∀ line ∈ q.annotation.lines, '\n' ∉ line.toList := by
  intro line hline
  exact (h.annotation.isTrimmedLine_of_mem_lines line hline).newline

end QuerySpec

namespace Segment

/-- What a segment has to be for its query to be the one that was written. -/
structure Reads (ns : String) (q : QuerySpec) (s : Segment) : Prop where
  annotated : s.IsAnnotated q.annotation
  statement : s.statement.map Token.lexeme = q.statementLexemes ns

/-- The tokens of a written query, behind blanks, are a segment from which the query is read. -/
theorem exists_reads {ns : String} {q : QuerySpec} (hq : q.IsPrintable ns) (p : Position)
    {blanks : List Token}
    (hblanks : ∀ t ∈ blanks, t.isTrivia = true ∧ t.kind.isComment = false) :
    ∃ s : Segment, s.Formed ∧ s.semicolon.isSome ∧
      s.tokens = blanks ++ Lexeme.place p (q.lexemes ns) ∧ s.Reads ns q := by
  have hlines := QuerySpec.newline_not_mem_of_isPrintable hq
  have hne := q.annotation.lines_ne_nil
  obtain ⟨l, ls, hls, hl⟩ := hq.exists_isStart
  obtain ⟨trivia, body, hplace, hheaded⟩ := Token.exists_headed p ls hne hlines hl
  obtain ⟨ms, hms, hne', hkinds⟩ := hq.exists_statementLexemes
  rw [← hls] at hplace
  rw [← hls, hms] at hheaded
  obtain ⟨s, hs, hsemi, htokens, htrivia, hbody, hstatement, first, hfirst, hstart⟩ :=
    exists_of_headed hheaded rfl hne' (fun l hl => (hkinds l hl).1) hblanks
  have hgroup : CommentGroup.ofTrivia s.trivia = [⟨Token.ofLines p q.annotation.lines⟩] := by
    rw [htrivia]
    exact ofTrivia_of_headed hheaded (fun t ht => (hblanks t ht).2) hne hlines
  refine ⟨s, hs, hsemi, ?_, ⟨⟨_, hgroup, ?_, ?_⟩, ?_, hsemi⟩, ?_⟩
  · rw [QuerySpec.lexemes, hplace]
    exact htokens
  · rw [lead_eq_some_iff hfirst, hgroup]
    exact ⟨rfl, touches_of_headed hne hlines hstart⟩
  · apply hq.annotation.ofGroup_of_lines
    exact CommentGroup.lines_ofLines hq.annotation.isTrimmedLine_of_mem_lines
  · intro t ht
    obtain ⟨l, hl, hlt⟩ := hbody t ht
    cases hk : t.kind with
    | illegal reason => exact absurd (hlt.trans hk) ((hkinds l hl).2 reason)
    | _ => simp [Token.isIllegal, hk]
  · rw [hstatement, hms]

end Segment

namespace QuerySpec

variable {ns : String} {specs : List QuerySpec}

/-- The lexemes of the text of a file. -/
def fileLexemes (ns : String) : List QuerySpec → List Lexeme
  | [] => []
  | [q] => q.lexemes ns
  | q :: r :: specs =>
    q.lexemes ns ++ Lexeme.behindNewline (Lexeme.behindNewline (fileLexemes ns (r :: specs)))

theorem exists_fileLexemes_eq_cons (ns : String) (q : QuerySpec) (specs : List QuerySpec) :
    ∃ line ls, fileLexemes ns (q :: specs) = Lexeme.ofLine line :: ls := by
  obtain ⟨line, ls, hq⟩ : ∃ line ls, q.lexemes ns = Lexeme.ofLine line :: ls := by
    obtain ⟨line, lines, hlines⟩ := List.exists_cons_of_ne_nil q.annotation.lines_ne_nil
    rw [lexemes, hlines]
    exact ⟨line, _, rfl⟩
  cases specs with
  | nil => exact ⟨line, ls, hq⟩
  | cons r specs =>
    rw [fileLexemes, hq]
    exact ⟨line, _, rfl⟩

theorem text_fileLexemes (ns : String) (specs : List QuerySpec) :
    Lexeme.text (fileLexemes ns specs) = (fileText specs).toList := by
  induction specs with
  | nil => simp [fileLexemes, fileText]
  | cons q specs ih =>
    cases specs with
    | nil =>
      rw [fileLexemes, text_lexemes, fileText, List.map_singleton, String.intercalate_singleton]
    | cons r specs =>
      rw [fileLexemes, Lexeme.text_append, text_lexemes, Lexeme.text_behindNewline,
        Lexeme.text_behindNewline, ih, fileText, fileText]
      simp only [List.map_cons, String.intercalate_cons_cons, String.toList_append,
        List.append_assoc]
      rfl

theorem cuts_fileLexemes (hns : ∀ c ∈ ns.toList, Text.isWord c = true) (hne : ns.toList ≠ [])
    (hspecs : ∀ q ∈ specs, q.IsPrintable ns) :
    Scan.Cuts ns.toList [] (fileLexemes ns specs) [] := by
  induction specs with
  | nil => exact .nil
  | cons q specs ih =>
    have hq := hspecs q List.mem_cons_self
    have hrest := ih fun r hr => hspecs r (List.mem_cons_of_mem q hr)
    have hcuts (after : List Char) : Scan.Cuts ns.toList [] (q.lexemes ns) after := by
      apply Scan.Cuts.heading hns hne (newline_not_mem_of_isPrintable hq)
        (hq.cuts_statementLexemes hns hne after)
      obtain ⟨l, ls, hls, -⟩ := hq.exists_isStart
      rw [hls]
      exact List.cons_ne_nil l ls
    cases specs with
    | nil => exact hcuts []
    | cons r specs =>
      obtain ⟨line, ls, hline⟩ := exists_fileLexemes_eq_cons ns r specs
      have hfile : fileLexemes ns (r :: specs) ≠ [] := by
        rw [hline]
        exact List.cons_ne_nil _ _
      rw [fileLexemes]
      apply (hcuts _).append
      exact Scan.Cuts.behindNewline hns hne (Scan.Cuts.behindNewline hns hne hrest hfile)
        (Lexeme.behindNewline_ne_nil _)

/-- The segments of a written file, read behind blanks, are those of its queries. -/
theorem forall₂_reads (hspecs : ∀ q ∈ specs, q.IsPrintable ns) (hne : specs ≠ []) (p : Position)
    (blanks : List Token)
    (hblanks : ∀ t ∈ blanks, t.isTrivia = true ∧ t.kind.isComment = false) :
    List.Forall₂ (Segment.Reads ns) specs
      (Segment.cut (blanks ++ Lexeme.place p (fileLexemes ns specs))) := by
  induction specs generalizing p blanks with
  | nil => contradiction
  | cons q specs ih =>
    have hrest := ih fun r hr => hspecs r (List.mem_cons_of_mem q hr)
    obtain ⟨s, hs, hsemi, htokens, hreads⟩ :=
      Segment.exists_reads (hspecs q List.mem_cons_self) p hblanks
    cases specs with
    | nil =>
      rw [fileLexemes, ← htokens, ← List.append_nil s.tokens, Segment.cut_append hs hsemi,
        Segment.cut, if_pos rfl]
      exact .cons hreads .nil
    | cons r specs =>
      obtain ⟨line, ls, hline⟩ := exists_fileLexemes_eq_cons ns r specs
      rw [fileLexemes, Lexeme.place_append, ← List.append_assoc, ← htokens,
        Segment.cut_append hs hsemi]
      apply List.Forall₂.cons hreads
      have hblank : (⟨.fragment, String.ofList ['\n', '\n'],
          p.advance (Lexeme.text (q.lexemes ns))⟩ : Token).isTrivia = true :=
        Token.isTrivia_blank _ (by decide)
      have hmore := hrest (List.cons_ne_nil r specs)
        ((p.advance (Lexeme.text (q.lexemes ns))).advance ['\n', '\n'])
        [⟨.fragment, String.ofList ['\n', '\n'], p.advance (Lexeme.text (q.lexemes ns))⟩]
      rw [hline] at hmore ⊢
      apply hmore
      intro t ht
      obtain rfl := List.mem_singleton.mp ht
      exact ⟨hblank, rfl⟩

/-- A written file is cut into the segments of its queries. -/
theorem forall₂_reads_tokenize (hns : Settings.IsNamespace ns)
    (hspecs : ∀ q ∈ specs, q.IsPrintable ns) :
    List.Forall₂ (Segment.Reads ns) specs (Segment.cut (tokenize (fileText specs) ns)) := by
  have hcuts := cuts_fileLexemes (fun c hc => hns.isWord hc) hns.1 hspecs
  have htokens : tokenize (fileText specs) ns = Lexeme.place .start (fileLexemes ns specs) :=
    Scanner.tokens_eq_place (s := Scanner.ofText (fileText specs) ns) hcuts
      (text_fileLexemes ns specs).symm
  rw [htokens]
  cases specs with
  | nil =>
    rw [fileLexemes, Lexeme.place, Segment.cut, if_pos rfl]
    exact .nil
  | cons q specs =>
    apply forall₂_reads hspecs (List.cons_ne_nil q specs) .start []
    rintro t ⟨⟩

end QuerySpec

namespace Segment

variable {ns : String} {specs : List QuerySpec} {segments : List Segment}

theorem Reads.sourceQuery_eq {q : QuerySpec} {s : Segment} (h : s.Reads ns q) (span : Span) :
    .source (Draft.sourceQuery q.annotation s.statement span) = q.query ns span := by
  have hprepared : Prepared.ofTokens s.statement = Prepared.ofText q.statement ns :=
    Prepared.ofTokens_eq_of_map_lexeme h.statement
  have hsource : String.join (s.statement.map (·.literal)) = q.statement := by
    rw [← String.toList_inj, ← q.text_statementLexemes ns, ← h.statement,
      Lexeme.text_map_lexeme, String.toList_join, List.flatMap_map]
    rfl
  simp only [Draft.sourceQuery, hprepared, hsource, QuerySpec.query]

theorem exists_isAnnotated (h : List.Forall₂ (Reads ns) specs segments) :
    ∀ s ∈ segments, ∃ a, s.IsAnnotated a := by
  induction h with
  | nil => rintro s ⟨⟩
  | cons hs _ ih =>
    intro s hmem
    rcases List.mem_cons.mp hmem with rfl | hmem
    · exact ⟨_, hs.annotated⟩
    · exact ih s hmem

theorem forall₂_query? (stop : Position) (h : List.Forall₂ (Reads ns) specs segments) :
    List.Forall₂ (fun q query => ∃ span, query = q.query ns span) specs
      (segments.filterMap (query? stop)) := by
  induction h with
  | nil => exact .nil
  | @cons q s specs segments hs _ ih =>
    obtain ⟨span, hspan⟩ := hs.annotated.query?_eq stop
    rw [List.filterMap_cons_some hspan]
    exact .cons ⟨span, hs.sourceQuery_eq span⟩ ih

end Segment

namespace QueryFile

/-- Reading a written file gives no errors, no comment of the file, and the queries as they were
written, in their order. -/
theorem parse_fileText {ns : String} (hns : Settings.IsNamespace ns) {specs : List QuerySpec}
    (hspecs : ∀ q ∈ specs, q.IsPrintable ns) (name : String) :
    (parse name (QuerySpec.fileText specs) ns).errors = [] ∧
      (parse name (QuerySpec.fileText specs) ns).file.doc = [] ∧
      List.Forall₂ (fun q query => ∃ span, query = q.query ns span) specs
        (parse name (QuerySpec.fileText specs) ns).file.queries := by
  have hreads := QuerySpec.forall₂_reads_tokenize hns hspecs
  obtain ⟨herrors, hdoc⟩ := Draft.ofTokens_of_isAnnotated
    (Position.start.advance (QuerySpec.fileText specs).toList)
    (Segment.exists_isAnnotated hreads)
  refine ⟨?_, hdoc, ?_⟩
  · rw [← List.length_eq_zero_iff, length_errors_parse, herrors]
    rfl
  · have hfull : (Draft.ofTokens (Position.start.advance (QuerySpec.fileText specs).toList)
        (tokenize (QuerySpec.fileText specs) ns)).isFull = false := by
      rw [Draft.isFull, herrors]
      rfl
    have hqueries := Segment.forall₂_query?
      (Position.start.advance (QuerySpec.fileText specs).toList) hreads
    rw [← Draft.queries_ofTokens hfull] at hqueries
    exact hqueries

/-- Two queries: one with documentation and a parameter, whose statement holds semicolons in a
string, between dollar tags and in a comment, and one that starts with a string and ends in a nested
comment. -/
theorem parse_fileText_two :
    let specs : List QuerySpec :=
      [⟨⟨"Find", .many, none, ["Finds it.", "name: Other :one"]⟩,
          "SELECT ';', $a$;$a$ -- ;\n  , ns.arg('Id')"⟩,
        ⟨⟨"_2", .exec, some "p.T", []⟩, "'x' /* a /* ; */ */"⟩]
    Settings.IsNamespace "ns" ∧ (∀ q ∈ specs, q.IsPrintable "ns") ∧
      (parse "a.sql" (QuerySpec.fileText specs) "ns").errors = [] ∧
      List.Forall₂ (fun q query => ∃ span, query = q.query "ns" span) specs
        (parse "a.sql" (QuerySpec.fileText specs) "ns").file.queries := by
  have hns : Settings.IsNamespace "ns" := by decide +kernel
  have hspecs : ∀ q ∈ ([⟨⟨"Find", .many, none, ["Finds it.", "name: Other :one"]⟩,
        "SELECT ';', $a$;$a$ -- ;\n  , ns.arg('Id')"⟩,
      ⟨⟨"_2", .exec, some "p.T", []⟩, "'x' /* a /* ; */ */"⟩] : List QuerySpec),
      q.IsPrintable "ns" := by
    decide +kernel
  obtain ⟨herrors, -, hqueries⟩ := parse_fileText hns hspecs "a.sql"
  exact ⟨hns, hspecs, herrors, hqueries⟩

end QueryFile

end TypedSql
