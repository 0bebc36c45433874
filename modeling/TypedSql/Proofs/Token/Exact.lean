import Mathlib.Data.List.GetD
import TypedSql.Proofs.Token.Bytewise
import TypedSql.Proofs.Token.Place

/-!
# Scanning loses nothing

A text is scanned by calls, each of which gives one token. `Scanner.StandsBehind` says where the
scanner is between two calls: what was read and what is left are the text, and the place is counted
over what was read. Each call keeps this (`Scanner.StandsBehind.next`), so it holds after any number
of calls.

It follows that for every text and every namespace the calls give finitely many tokens and then the
end of input for good, and that the tokens are the text, each at its own place
(`Scanner.tokenize_exact`).
-/

namespace TypedSql

namespace Scanner

/-- The scanner behind the next tokens. -/
def ahead (s : Scanner) : Nat → Scanner
  | 0 => s
  | n + 1 => (s.ahead n).next.2

/-- The token of a call, counted from zero. -/
def read (s : Scanner) (i : Nat) : Token :=
  (s.ahead i).next.1

/-- The text of the first tokens. -/
def textRead (s : Scanner) (i : Nat) : List Char :=
  ((List.range i).map s.read).flatMap Token.chars

section Calls

variable {s : Scanner}

theorem next_of_nil (h : s.rest = []) : s.next = (⟨.endOfInput, "", s.pos⟩, s) := by
  unfold next
  rw [h]

theorem ahead_succ (s : Scanner) (n : Nat) : s.ahead (n + 1) = s.next.2.ahead n := by
  induction n with
  | zero => rfl
  | succ n ih => rw [ahead, ih, ahead]

theorem read_succ (s : Scanner) (i : Nat) : s.read (i + 1) = s.next.2.read i := by
  rw [read, ahead_succ, read]

theorem textRead_succ (s : Scanner) (i : Nat) :
    s.textRead (i + 1) = s.textRead i ++ (s.read i).chars := by
  simp [textRead, List.range_succ]

theorem advance_rest_next (s : Scanner) :
    s.next.2.pos.advance s.next.2.rest = s.pos.advance s.rest := by
  by_cases h : s.rest = []
  · rw [next_of_nil h]
  · rw [← chars_next_append h, Position.advance_append, ← stop_next h, Token.stop, pos_next h]

/-- The calls give the tokens one after another and then the end of input. -/
theorem read_eq (s : Scanner) (i : Nat) :
    s.read i = s.tokens.getD i ⟨.endOfInput, "", s.pos.advance s.rest⟩ := by
  induction s using tokens.induct generalizing i with
  | case1 s h =>
    have hahead : s.ahead i = s := by
      induction i with
      | zero => rfl
      | succ i ih => rw [ahead, ih, next_of_nil h]
    rw [read, hahead, next_of_nil h, tokens_of_nil h, h]
    rfl
  | case2 s h _ ih =>
    rw [tokens_of_ne_nil h]
    cases i with
    | zero => rfl
    | succ i => rw [read_succ, ih, advance_rest_next, List.getD_cons_succ]

theorem map_read_range (s : Scanner) : (List.range s.tokens.length).map s.read = s.tokens := by
  apply List.ext_getElem
  · simp
  · intro i hi _
    simp [read_eq, List.getElem?_eq_getElem (by simpa using hi : i < s.tokens.length)]

theorem length_tokens_le (s : Scanner) : s.tokens.length ≤ s.rest.length := by
  induction s using tokens.induct with
  | case1 s h => simp [tokens_of_nil h]
  | case2 s h _ ih =>
    have hlt := length_rest_next h
    rw [tokens_of_ne_nil h, List.length_cons]
    omega

theorem read_of_lt {i : Nat} (h : i < s.tokens.length) : s.read i = s.tokens[i] := by
  rw [read_eq, List.getD_eq_getElem _ _ h]

theorem read_of_le {i : Nat} (h : s.tokens.length ≤ i) :
    s.read i = ⟨.endOfInput, "", s.pos.advance s.rest⟩ := by
  rw [read_eq, List.getD_eq_default _ _ h]

theorem kind_read_eq_endOfInput_iff (s : Scanner) (i : Nat) :
    (s.read i).kind = .endOfInput ↔ s.tokens.length ≤ i := by
  rcases Nat.lt_or_ge i s.tokens.length with hi | hi
  · obtain ⟨before, c, cs, hkind, -⟩ := exists_lexeme_of_mem_tokens (List.getElem_mem hi)
    rw [read_of_lt hi, hkind]
    exact iff_of_false (Scan.kind_lexeme_ne_endOfInput _ _ _ _) (Nat.not_le.mpr hi)
  · rw [read_of_le hi]
    exact iff_of_true rfl hi

theorem literal_read_eq_empty_iff (s : Scanner) (i : Nat) :
    (s.read i).literal = "" ↔ s.tokens.length ≤ i := by
  rcases Nat.lt_or_ge i s.tokens.length with hi | hi
  · obtain ⟨before, c, cs, -, hchars⟩ := exists_lexeme_of_mem_tokens (List.getElem_mem hi)
    rw [read_of_lt hi, ← String.toList_eq_nil_iff]
    refine iff_of_false ?_ (Nat.not_le.mpr hi)
    intro hnil
    rw [Token.chars, hnil] at hchars
    contradiction
  · rw [read_of_le hi]
    exact iff_of_true rfl hi

theorem pos_read (s : Scanner) (i : Nat) : (s.read i).pos = (s.ahead i).pos := by
  by_cases h : (s.ahead i).rest = []
  · rw [read, next_of_nil h]
  · exact pos_next h

theorem stop_read (s : Scanner) (i : Nat) : (s.read i).stop = (s.ahead (i + 1)).pos := by
  by_cases h : (s.ahead i).rest = []
  · rw [read, ahead, next_of_nil h]
    rfl
  · exact stop_next h

theorem chars_read_append (s : Scanner) (i : Nat) :
    (s.read i).chars ++ (s.ahead (i + 1)).rest = (s.ahead i).rest := by
  by_cases h : (s.ahead i).rest = []
  · rw [read, ahead, next_of_nil h]
    rfl
  · exact chars_next_append h

end Calls

/-- The scanner of a text behind what was read of it. -/
structure StandsBehind (src : String) (done : List Char) (s : Scanner) : Prop where
  text : src.toList = done ++ s.rest
  pos : s.pos = Position.start.advance done

/-- Each call reads one token further. -/
theorem StandsBehind.ahead {src : String} {s : Scanner} (h : StandsBehind src [] s) (i : Nat) :
    StandsBehind src (s.textRead i) (s.ahead i) := by
  induction i with
  | zero => exact h
  | succ i ih =>
    rw [textRead_succ]
    constructor
    · rw [List.append_assoc, chars_read_append, ih.text]
    · rw [← stop_read, Token.stop, pos_read, ih.pos, Position.advance_append]

/-- Each call reads the piece of the text behind the pieces read before it, and says where it
is. -/
structure ReadsExactly (src : String) (s : Scanner) : Prop where
  pos : ∀ i, (s.read i).pos = Position.start.advance (s.textRead i)
  counted : ∀ i, Position.IsEnd (s.textRead i) (s.read i).pos
  stop : ∀ i, (s.read i).stop = (s.read (i + 1)).pos
  endLine : ∀ i, (s.read i).endLine = (s.read i).stop.line
  slice : ∀ i, Text.IsSlice src (s.read i).pos.offset (s.read i).stop.offset (s.read i).literal
  /-- The opening tag of a string between dollar signs ends between two characters. -/
  tag : ∀ i n, Scan.dollarTagLength (s.ahead i).before (s.ahead i).rest = some n →
    (⟨(s.read i).pos.offset + n⟩ : String.Pos.Raw).IsValid src

theorem StandsBehind.readsExactly {src : String} {s : Scanner} (h : StandsBehind src [] s) :
    ReadsExactly src s := by
  have hpos (i : Nat) : (s.read i).pos = Position.start.advance (s.textRead i) := by
    rw [pos_read, (h.ahead i).pos]
  have hstop (i : Nat) :
      (s.read i).stop = Position.start.advance (s.textRead i ++ (s.read i).chars) := by
    rw [stop_read, (h.ahead (i + 1)).pos, textRead_succ]
  refine ⟨hpos, ?_, ?_, ?_, ?_, ?_⟩
  · intro i
    rw [hpos]
    exact Position.isEnd_advance (s.textRead i)
  · intro i
    rw [stop_read, pos_read]
  · intro i
    exact (Token.line_stop _).symm
  · intro i
    have hsrc : src.toList =
        s.textRead i ++ ((s.read i).chars ++ (s.ahead (i + 1)).rest) := by
      rw [chars_read_append, (h.ahead i).text]
    have hslice := Text.isSlice_advance hsrc
    rw [Token.chars, String.ofList_toList] at hslice
    rwa [hpos, hstop]
  · intro i n hn
    obtain ⟨tail, rest, hrest, rfl, htail⟩ := Scan.exists_asciiTag hn
    have htag : Text.IsAscii ('$' :: tail) := Text.isAscii_cons.mpr ⟨by decide, htail⟩
    have hsrc : src.toList = s.textRead i ++ ('$' :: tail ++ rest) := by
      rw [List.cons_append, ← hrest, (h.ahead i).text]
    have hvalid := (Text.isSlice_advance hsrc).stop
    rw [Position.advance_append, Position.offset_advance, ← hpos, ← Text.length_bytewise,
      Text.bytewise_of_ascii htag] at hvalid
    exact hvalid

/-- Scanning ends and loses nothing: whatever the namespace is, the calls give the tokens of the
text and then the end of input for good, and the tokens are what reading the bytes of the text
gives. -/
theorem tokenize_exact (src ns : String) :
    (tokenize src ns).length ≤ src.length ∧
      tokenize src ns = (List.range (tokenize src ns).length).map (ofText src ns).read ∧
      (∀ i, ((ofText src ns).read i).kind = .endOfInput ↔ (tokenize src ns).length ≤ i) ∧
      (∀ i, ((ofText src ns).read i).literal = "" ↔ (tokenize src ns).length ≤ i) ∧
      String.join ((tokenize src ns).map Token.literal) = src ∧
      ReadsExactly src (ofText src ns) ∧
      (tokenize (Text.ofBytes src) (Text.ofBytes ns)).map Token.lexeme =
        ((tokenize src ns).map Token.lexeme).map Lexeme.bytewise := by
  have hstart : StandsBehind src [] (ofText src ns) := ⟨rfl, rfl⟩
  refine ⟨length_tokens_le (ofText src ns), (map_read_range _).symm,
    kind_read_eq_endOfInput_iff _, literal_read_eq_empty_iff _, ?_, hstart.readsExactly,
    map_lexeme_tokenize_ofBytes src ns⟩
  rw [← String.toList_inj, String.toList_join, List.flatMap_map]
  exact flatMap_chars_tokens (ofText src ns)

/-- A backslash takes along the first of the two bytes of a character. -/
example : (tokenize "E'\\é';ü" "").map (fun t => (t.kind, t.pos.offset, t.stop.offset)) =
    [(.fragment, 0, 1), (.stringLiteral, 1, 6), (.semicolon, 6, 7), (.fragment, 7, 9)] := by
  decide +kernel

end Scanner

end TypedSql
