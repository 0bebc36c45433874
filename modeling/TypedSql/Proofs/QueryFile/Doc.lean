import TypedSql.Proofs.Annotation.Print
import TypedSql.Proofs.QueryFile.Comments

/-!
# The documentation of a query

Each source query of a file is led by one comment group of the file (`Draft.exists_lead`). The last
line of the group is the annotation, and the lines in front of it document the query.

A line comment gives its trimmed text as a line, unless the text is empty: then it gives no line at
all. So what a query is documented with, and which comment its annotation is read from, depends on
the comments with text alone (`QueryFile.doc_of_lineComments`).
-/

namespace TypedSql

namespace Scan

variable {ns before cs after : List Char} {c : Char}

theorem length_of_kind_lineComment (h : (lexeme ns before c cs).1 = .lineComment) :
    (lexeme ns before c cs).2 = (cs.takeWhile (· != '\n')).length := by
  unfold lexeme at h ⊢
  grind [kind_delimited, dollarString]

/-- A line comment consists of two dashes and the rest of the line. -/
theorem exists_eq_of_lineComment
    (h : lexeme ns before c (cs ++ after) = (.lineComment, cs.length)) :
    ∃ body, c :: cs = '-' :: '-' :: body ∧ '\n' ∉ body := by
  obtain ⟨rfl, hhead⟩ := eq_of_kind_lineComment (congrArg Prod.fst h)
  have hlength := length_of_kind_lineComment (congrArg Prod.fst h)
  rw [h] at hlength
  have hbegins : cs <+: (cs ++ after).takeWhile (· != '\n') :=
    List.prefix_of_prefix_length_le (List.prefix_append cs after) (List.takeWhile_prefix _)
      hlength.le
  have hline : '\n' ∉ cs := by
    intro hmem
    exact absurd (List.mem_takeWhile_imp (hbegins.subset hmem)) (by decide)
  obtain ⟨ds, hds⟩ := List.head?_eq_some_iff.mp hhead
  rw [hds, List.takeWhile_cons_of_pos (by decide), List.length_cons] at hlength
  cases cs with
  | nil => simp at hlength
  | cons d cs =>
    obtain ⟨rfl, -⟩ := List.cons.inj hds
    exact ⟨cs, rfl, fun hmem => hline (List.mem_cons_of_mem _ hmem)⟩

end Scan

namespace Token

/-- The text of a line comment: what is behind the dashes, without the blanks around it. -/
def lineText (t : Token) : String :=
  String.ofList (Text.trim (t.chars.drop 2))

variable {src ns : String} {p q : Position} {ts : List Token} {t u : Token}

theorem exists_chars_of_lineComment (ht : t ∈ tokenize src ns) (hk : t.kind = .lineComment) :
    ∃ body, t.chars = '-' :: '-' :: body ∧ '\n' ∉ body := by
  obtain ⟨us, vs, htokens⟩ := List.append_of_mem ht
  obtain ⟨c, cs, hchars, hlexeme⟩ := Scanner.lexeme_of_tokenize_eq htokens
  rw [hchars]
  rw [hk] at hlexeme
  exact Scan.exists_eq_of_lineComment hlexeme

theorem commentText_of_lineComment (ht : t ∈ tokenize src ns) (hk : t.kind = .lineComment) :
    t.commentText = some t.lineText := by
  obtain ⟨body, hchars, -⟩ := exists_chars_of_lineComment ht hk
  simp [commentText, lineText, hk, hchars, Text.afterStart]

theorem newline_notMem_lineText (ht : t ∈ tokenize src ns) (hk : t.kind = .lineComment) :
    '\n' ∉ t.lineText.toList := by
  obtain ⟨body, hchars, hbody⟩ := exists_chars_of_lineComment ht hk
  intro hmem
  rw [lineText, String.toList_ofList, hchars] at hmem
  exact hbody (Text.mem_of_mem_trim hmem)

theorem Abut.chars_ne_nil (h : Abut p ts q) (ht : t ∈ ts) : t.chars ≠ [] := by
  intro hnil
  have hlt := h.offset_lt_stop ht
  rw [stop, hnil] at hlt
  exact Nat.lt_irrefl _ hlt

/-- Two tokens that are not blank do not start at the same place, blanks aside. -/
theorem Abut.eq_of_significantStart (h : Abut p ts q) (ht : t ∈ ts) (hu : u ∈ ts)
    (htb : t.isBlank = false) (hub : u.isBlank = false)
    (heq : t.significantStart = u.significantStart) : t = u := by
  have hoffset := congrArg Position.offset heq
  have hend {v : Token} (hv : v ∈ ts) (hb : v.isBlank = false) :
      v.pos.offset ≤ v.significantStart.offset ∧ v.significantStart.offset < v.stop.offset :=
    ⟨v.offset_le_significantStart, significantStart_lt_stop (h.chars_ne_nil hv) hb⟩
  have htend := hend ht htb
  have huend := hend hu hub
  rcases Nat.le_total u.pos.offset t.pos.offset with hle | hle
  · exact h.eq_of_offset ht hu hle (by omega)
  · exact (h.eq_of_offset hu ht hle (by omega)).symm

end Token

namespace CommentGroup

/-- The texts of line comments, one for each comment. -/
def texts (g : CommentGroup) : List String :=
  g.comments.map Token.lineText

variable {src ns : String} {p stop : Position} {ts : List Token} {gs : List CommentGroup}
  {g g' : CommentGroup} {q : Query}

/-- The lines of line comments are their texts, as far as there is some text. -/
theorem lines_of_lineComments
    (h : ∀ t ∈ g.comments, t ∈ tokenize src ns ∧ t.kind = .lineComment) :
    g.lines = g.texts.filter (· ≠ "") := by
  obtain ⟨comments⟩ := g
  rw [lines, texts]
  induction comments with
  | nil => rfl
  | cons t comments ih =>
    obtain ⟨⟨ht, hk⟩, hrest⟩ := List.forall_mem_cons.mp h
    have hline : (Text.lines t.lineText.toList).map (fun line => String.ofList (Text.trim line)) =
        [t.lineText].filter (· ≠ "") := by
      by_cases hempty : t.lineText = ""
      · rw [hempty]
        rfl
      · have hne : t.lineText.toList ≠ [] := by
          rwa [ne_eq, String.toList_eq_nil_iff]
        have htrim : String.ofList (Text.trim t.lineText.toList) = t.lineText := by
          rw [Token.lineText, String.toList_ofList, Text.trim_trim]
        rw [Text.lines_of_not_mem hne (Token.newline_notMem_lineText ht hk), List.map_singleton,
          htrim, List.filter_cons_of_pos (by simpa using hempty), List.filter_nil]
    rw [List.filterMap_cons_some (Token.commentText_of_lineComment ht hk), List.flatMap_cons,
      hline, ih hrest, List.map_cons, ← List.filter_append, List.singleton_append]

/-- No two groups lead the same statement. -/
theorem Leads.eq (habut : Token.Abut p ts stop) (hnodup : (gs.flatMap comments).Nodup)
    (hg : g ∈ gs) (hg' : g' ∈ gs) (hk : ∀ t ∈ gs.flatMap comments, t.kind.isComment = true)
    (h : g.Leads ts q) (h' : g'.Leads ts q) : g = g' := by
  obtain ⟨us, t, ms, first, vs, hts, hlast, hms, hfirst, hstart, -⟩ := h
  obtain ⟨us', t', ms', first', vs', hts', hlast', hms', hfirst', hstart', -⟩ := h'
  have ht := List.mem_of_getLast? hlast
  have ht' := List.mem_of_getLast? hlast'
  have hblank {v : Token} (hv : v.isSubstance = true) : v.isBlank = false := by
    simp [Token.isSubstance, Token.isTrivia] at hv
    exact hv.1.2
  obtain rfl := habut.eq_of_significantStart (by simp [hts]) (by simp [hts']) (hblank hfirst)
    (hblank hfirst') (hstart.symm.trans hstart')
  -- In front of the statement, the last token that is no blank is the last comment of both.
  have hfront : us ++ t :: ms = us' ++ t' :: ms' := by
    have hboth : (us ++ t :: ms) ++ first :: vs = (us' ++ t' :: ms') ++ first :: vs' := by
      rw [List.append_assoc, List.cons_append, List.append_assoc, List.cons_append, ← hts, ← hts']
    refine (Runs.append_cons_inj_of_nodup ?_ hboth).1
    rw [List.append_assoc, List.cons_append, ← hts]
    exact habut.nodup
  have hcomment := congrArg (fun ts => (ts.filter (·.kind.isComment)).getLast?) hfront
  simp only [List.filter_append, List.filter_cons, Token.filter_isComment_of_isBlank hms,
    Token.filter_isComment_of_isBlank hms', hk t (List.mem_flatMap.mpr ⟨g, hg, ht⟩),
    hk t' (List.mem_flatMap.mpr ⟨g', hg', ht'⟩), if_true, List.getLast?_concat] at hcomment
  obtain rfl := Option.some.inj hcomment
  exact Runs.eq_of_nodup_flatMap hnodup hg hg' ht ht'

end CommentGroup

/-- What the comment in front of a query says. -/
def SourceQuery.annotation (q : SourceQuery) : Annotation :=
  ⟨q.name, q.kind, q.protoType, q.doc⟩

namespace Segment

variable {s : Segment} {stop : Position} {q : SourceQuery}

theorem exists_lead_of_source (h : s.query? stop = some (.source q)) :
    ∃ first g, s.body.head? = some first ∧ s.query stop first = .source q ∧ s.lead = some g ∧
      Annotation.ofGroup g = .ok q.annotation := by
  obtain ⟨first, hfirst, hquery⟩ := Option.map_eq_some_iff.mp h
  refine ⟨first, ?_⟩
  have hread := hquery
  unfold query at hread
  split at hread
  · contradiction
  · simp only at hread
    split at hread
    · contradiction
    · split at hread
      · next a hlead =>
        obtain ⟨g, hg, ha⟩ := Option.map_eq_some_iff.mp hlead
        obtain rfl := Query.source.inj hread
        exact ⟨g, hfirst, hquery, hg, ha⟩
      · contradiction

end Segment

namespace Draft

variable {stop p : Position} {ts : List Token} {q : SourceQuery}

/-- The comments that were read are among those of the file, in order. -/
theorem sublist_comments_ofTokens (stop : Position) (ts : List Token) :
    ((ofTokens stop ts).comments.flatMap CommentGroup.comments).Sublist
      (ts.filter (·.kind.isComment)) := by
  obtain ⟨done, left, hsteps, hrecords, -⟩ := exists_records_ofTokens stop ts
  have hall : (Segment.cut ts).flatMap Segment.groups =
      done.flatMap ReadStep.groups ++ left.flatMap ReadStep.groups := by
    rw [← List.flatMap_append, ← hsteps, List.flatMap_assoc]
    exact List.flatMap_congr fun s _ => s.flatMap_groups_steps.symm
  rw [← Segment.flatMap_comments_cut, hall, hrecords.comments, List.flatMap_append]
  exact List.sublist_append_left _ _

/-- A query that was read comes with the comments in front of it. -/
theorem exists_segment_of_mem_queries (h : .source q ∈ (ofTokens stop ts).queries) :
    ∃ s ∈ Segment.cut ts, s.query? stop = some (.source q) ∧
      CommentGroup.ofTrivia s.trivia ⊆ (ofTokens stop ts).comments := by
  obtain ⟨done, left, hsteps, hrecords, -⟩ := exists_records_ofTokens stop ts
  rw [hrecords.queries, List.mem_filterMap] at h
  obtain ⟨step, hstep, hquery⟩ := h
  cases step with
  | trivia s => contradiction
  | token t => contradiction
  | finish s first =>
    obtain ⟨hs, hfirst, hsub⟩ := Segment.steps_subset_of_finish_mem hsteps hstep
    refine ⟨s, hs, ?_, ?_⟩
    · rw [Segment.query?, hfirst]
      exact hquery
    · intro g hg
      rw [hrecords.comments]
      refine List.mem_flatMap.mpr ⟨.trivia s, hsub ?_, hg⟩
      rw [Segment.steps_eq hfirst]
      exact List.mem_cons_self

/-- One comment group leads a query, and the query is named and documented by its lines. -/
theorem exists_lead (habut : Token.Abut p ts stop) (h : .source q ∈ (ofTokens stop ts).queries) :
    ∃ g ∈ (ofTokens stop ts).comments, g.Leads ts (.source q) ∧
      (∀ g' ∈ (ofTokens stop ts).comments, g'.Leads ts (.source q) → g' = g) ∧
      Annotation.ofGroup g = .ok q.annotation := by
  obtain ⟨s, hs, hquery, hsub⟩ := exists_segment_of_mem_queries h
  obtain ⟨first, g, hfirst, hq, hlead, hread⟩ := Segment.exists_lead_of_source hquery
  have hcomments := sublist_comments_ofTokens stop ts
  have hg := hsub (List.mem_of_getLast? ((Segment.lead_eq_some_iff hfirst).mp hlead).1)
  have hleads : g.Leads ts (s.query stop first) := Segment.leads_of_lead_eq_some hs hfirst hlead
  rw [hq] at hleads
  refine ⟨g, hg, hleads, fun g' hg' hleads' => ?_, hread⟩
  exact hleads'.eq habut ((habut.nodup.filter _).sublist hcomments) hg' hg
    (fun t ht => (List.mem_filter.mp (hcomments.subset ht)).2) hleads

end Draft

namespace QueryFile

/-- One comment group of a file leads a source query. If its comments are line comments, the query
is documented by their trimmed texts, up to the one that the annotation is read from, and empty
texts are left out. So the texts are the lines of the documentation and the annotation, one for each
comment, exactly if none of them is empty. -/
theorem doc_of_lineComments {name src ns : String} {q : SourceQuery}
    (h : .source q ∈ (parse name src ns).file.queries) :
    ∃ g ∈ (parse name src ns).file.comments, g.Leads (tokenize src ns) (.source q) ∧
      (∀ g' ∈ (parse name src ns).file.comments, g'.Leads (tokenize src ns) (.source q) → g' = g) ∧
      ((∀ t ∈ g.comments, t.kind = .lineComment) →
        ∃ line, g.texts.filter (· ≠ "") = q.doc ++ [line] ∧
          Annotation.ofLine? line = some (q.name, q.kind, q.protoType) ∧
          (g.texts = q.doc ++ [line] ↔ "" ∉ g.texts)) := by
  obtain ⟨g, hg, hleads, hunique, hread⟩ := Draft.exists_lead (Scanner.abut_tokenize src ns) h
  refine ⟨g, hg, hleads, hunique, fun hk => ?_⟩
  obtain ⟨line, hlines, hline⟩ := Annotation.ofGroup_eq_ok_iff.mp hread
  have htokens : ∀ t ∈ g.comments, t ∈ tokenize src ns := by
    intro t ht
    have hmem := (Draft.sublist_comments_ofTokens _ _).subset (List.mem_flatMap.mpr ⟨g, hg, ht⟩)
    exact (List.mem_filter.mp hmem).1
  rw [CommentGroup.lines_of_lineComments fun t ht => ⟨htokens t ht, hk t ht⟩] at hlines
  refine ⟨line, hlines, hline, ?_⟩
  show g.texts = q.annotation.doc ++ [line] ↔ "" ∉ g.texts
  rw [← hlines, eq_comm, List.filter_eq_self]
  simp only [decide_eq_true_eq]
  constructor
  · intro hne hmem
    exact hne "" hmem rfl
  · rintro hmem text htext rfl
    exact hmem htext

/-- The empty comment below the first line is no line of the documentation, and the annotation is
not read from the empty comment below it. -/
theorem doc_of_lineComments_empty :
    let src := "-- a\n--\n-- b\n-- name: A :one\n--\nSELECT 1;"
    let f := (parse "a.sql" src "querygen").file
    let q : SourceQuery := { name := "A", doc := ["a", "b"], sourceSql := "SELECT 1;"
                             preparedSql := "SELECT 1;", params := [], kind := .one
                             protoType := none, span := ⟨⟨32, 6, 1⟩, ⟨41, 6, 10⟩⟩ }
    .source q ∈ f.queries ∧ ∃ g ∈ f.comments, g.Leads (tokenize src "querygen") (.source q) ∧
      g.texts = ["a", "", "b", "name: A :one", ""] ∧
      ∃ line, g.texts.filter (· ≠ "") = ["a", "b"] ++ [line] ∧
        Annotation.ofLine? line = some ("A", .one, none) := by
  intro src f q
  have hq : .source q ∈ f.queries := by decide +kernel
  have htexts : ∀ g ∈ f.comments, g.texts = ["a", "", "b", "name: A :one", ""] := by decide +kernel
  have hkinds : ∀ g ∈ f.comments, ∀ t ∈ g.comments, t.kind = .lineComment := by decide +kernel
  obtain ⟨g, hg, hleads, -, hdoc⟩ := doc_of_lineComments hq
  obtain ⟨line, hlines, hline, -⟩ := hdoc (hkinds g hg)
  exact ⟨hq, g, hg, hleads, htexts g hg, line, hlines, hline⟩

/-- The documentation does not have one line for each comment. -/
theorem exists_doc_without_comment :
    ¬ ∀ (name src ns : String) (q : SourceQuery), .source q ∈ (parse name src ns).file.queries →
      ∀ g ∈ (parse name src ns).file.comments, g.Leads (tokenize src ns) (.source q) →
        (∀ t ∈ g.comments, t.kind = .lineComment) → q.doc = g.texts.dropLast := by
  intro h
  let src := "-- a\n--\n-- b\n-- name: A :one\nSELECT 1;"
  let f := (parse "a.sql" src "querygen").file
  let q : SourceQuery := { name := "A", doc := ["a", "b"], sourceSql := "SELECT 1;"
                           preparedSql := "SELECT 1;", params := [], kind := .one
                           protoType := none, span := ⟨⟨29, 5, 1⟩, ⟨38, 5, 10⟩⟩ }
  have hq : .source q ∈ f.queries := by decide +kernel
  have htexts : ∀ g ∈ f.comments, g.texts = ["a", "", "b", "name: A :one"] := by decide +kernel
  have hkinds : ∀ g ∈ f.comments, ∀ t ∈ g.comments, t.kind = .lineComment := by decide +kernel
  obtain ⟨g, hg, hleads, -⟩ := Draft.exists_lead (Scanner.abut_tokenize src "querygen") hq
  have hdoc := h "a.sql" src "querygen" q hq g hg hleads (hkinds g hg)
  rw [htexts g hg] at hdoc
  exact absurd hdoc (by decide)

end QueryFile

end TypedSql
