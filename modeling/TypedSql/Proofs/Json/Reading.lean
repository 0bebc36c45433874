import TypedSql.Proofs.Json.Layout

/-!
# Reading what was written

A layout is read back in front of any text that cannot continue a number, as long as there is room
for its nesting and fuel for its length (`IsLossless.reads`). A document in either layout is
therefore read back up to the form of its numbers (`read?_text`, `read?_indentedText`).
-/

namespace TypedSql

namespace Json

section Blanks

variable {before rest s : List Char} {c : Char}

theorem skipBlanks_append (h : ∀ c ∈ before, isBlank c) (s : List Char) :
    skipBlanks (before ++ s) = skipBlanks s :=
  List.dropWhile_append_of_pos h

theorem skipBlanks_cons (h : isBlank c = false) : skipBlanks (c :: s) = c :: s :=
  List.dropWhile_cons_of_neg (by simp [h])

theorem isNumeric_of_isBlank (h : isBlank c) : isNumeric c = false := by
  simp only [isBlank, Bool.or_eq_true, beq_iff_eq] at h
  obtain ((rfl | rfl) | rfl) | rfl := h <;> decide

theorem ends_append (h : ∀ c ∈ before, isBlank c) (hrest : Ends rest) : Ends (before ++ rest) := by
  cases before with
  | nil => exact hrest
  | cons c before => exact ends_cons.mpr (isNumeric_of_isBlank (h c List.mem_cons_self))

end Blanks

section Scalars

variable {c : Char} {s : List Char} {x : Single} {j : Json}

/-- Whether a value that starts like this is neither a text nor an array nor an object. -/
def startsScalar (c : Char) : Bool :=
  !isBlank c && c != '"' && c != '[' && c != '\x7b'

theorem startsScalar_of_isNumeric (h : isNumeric c) : startsScalar c := by
  have hblank : isBlank c = false := Bool.eq_false_iff.mpr fun hc => by
    rw [isNumeric_of_isBlank hc] at h
    cases h
  have hne (d : Char) (hd : isNumeric d = false) : c ≠ d := by
    rintro rfl
    rw [hd] at h
    cases h
  simp [startsScalar, hblank, hne '"' (by decide), hne '[' (by decide), hne '\x7b' (by decide)]

theorem readValue_of_startsScalar (h : startsScalar c) (fuel room : Nat) (t : List Char) :
    readValue (fuel + 1) room (c :: t) = readScalar (c :: t) := by
  simp only [startsScalar, Bool.and_eq_true, Bool.not_eq_true', bne_iff_ne] at h
  obtain ⟨⟨⟨hblank, hquote⟩, hbracket⟩, hbrace⟩ := h
  rw [readValue, skipBlanks_cons hblank]
  split <;> simp_all

/-- A document that is only a number is read as this number. -/
theorem readScalar_of_read? (hs : ∀ c ∈ s, isNumeric c) (h : read? (String.ofList s) = some j) :
    readScalar s = some (j, []) := by
  unfold read? at h
  simp only [String.toList_ofList] at h
  cases s with
  | nil => cases h
  | cons c s =>
    rw [readValue_of_startsScalar (startsScalar_of_isNumeric (hs c List.mem_cons_self))] at h
    split at h
    case h_2 => cases h
    next j' rest hread =>
      obtain ⟨hrest, rfl⟩ : skipBlanks rest = [] ∧ j' = j := by simpa using h
      cases rest with
      | nil => exact hread
      | cons d rest =>
        have hd := startsScalar_of_isNumeric
          (hs d ((isMaximal_readScalar hread).1.subset List.mem_cons_self))
        simp only [startsScalar, Bool.and_eq_true, Bool.not_eq_true'] at hd
        rw [skipBlanks_cons hd.1.1.1] at hrest
        cases hrest

end Scalars

end Json

/-- A lossless number is read back from its text as a scalar. -/
theorem Single.IsLossless.readScalar {x : Single} (h : x.IsLossless) :
    Json.readScalar (Json.writeScalar (.single x)) = some ((Json.single x).reread, []) := by
  obtain ⟨j, hj, hx⟩ := Option.bind_eq_some_iff.mp h
  have htext : (Json.single x).text = String.ofList (Json.writeScalar (.single x)) := rfl
  rw [Json.reread, hj, Option.getD_some]
  rw [htext] at hj
  cases hu : x.units with
  | none =>
    -- An infinite number is written as null, which is no number.
    have hnull : Json.read? (String.ofList ['n', 'u', 'l', 'l']) = some .null := by
      simp only [Json.read?, String.toList_ofList]
      rfl
    rw [Json.writeScalar, text?, hu, Option.map_none, Option.getD_none, hnull] at hj
    obtain rfl := Option.some.inj hj
    cases hx
  | some units =>
    refine Json.readScalar_of_read? ?_ hj
    simp only [Json.writeScalar, text?, hu, Option.map_some, Option.getD_some]
    exact Json.isNumeric_textIn _ _

namespace Json

section Starts

variable {s : List Char} {j : Json} {p : Json × List Char} {style : Style} {depth : Nat}

/-- How a value starts that stands in an array: not with a blank, and not with the end. -/
def Starts (s : List Char) : Prop :=
  ∃ c t, s = c :: t ∧ isBlank c = false ∧ c ≠ ']'

theorem startsScalar_of_readScalar (h : readScalar s = some p) :
    ∃ c t, s = c :: t ∧ startsScalar c ∧ c ≠ ']' := by
  unfold readScalar at h
  split at h
  case h_5 =>
    obtain ⟨c, t, rfl, hc⟩ := exists_isDigit_of_readNumber h
    refine ⟨c, t, rfl, startsScalar_of_isNumeric (isNumeric_of_isDigit hc), ?_⟩
    rintro rfl
    exact absurd hc (by decide)
  all_goals exact ⟨_, _, rfl, by decide, by decide⟩

/-- Induction over lossless values, where all that are read as scalars are one case. -/
theorem IsLossless.induct {P : (j : Json) → j.IsLossless → Prop}
    (scalar : ∀ j h, (∀ style depth, layout style depth j = writeScalar j) →
      readScalar (writeScalar j) = some (j.reread, []) → P j h)
    (string : ∀ s, P (.string s) (.string s))
    (array : ∀ items h, (∀ item hitem, P item (h item hitem)) → P (.array items) (.array h))
    (object : ∀ members h, (∀ member hmember, P member.2 (h member hmember)) →
      P (.object members) (.object h)) (h : j.IsLossless) : P j h := by
  induction h with
  | null => exact scalar _ .null (fun _ _ => rfl) rfl
  | bool b => cases b <;> exact scalar _ (.bool _) (fun _ _ => rfl) rfl
  | int low high => exact scalar _ (.int low high) (fun _ _ => rfl) (readScalar_int low high)
  | single h => exact scalar _ (.single h) (fun _ _ => rfl) h.readScalar
  | string s => exact string s
  | array h ih => exact array _ h ih
  | object h ih => exact object _ h ih

theorem starts_layout (h : j.IsLossless) (rest : List Char) :
    Starts (layout style depth j ++ rest) := by
  induction h using IsLossless.induct with
  | scalar j _ hj hs =>
    obtain ⟨c, t, hct, hc, hend⟩ := startsScalar_of_readScalar hs
    simp only [startsScalar, Bool.and_eq_true, Bool.not_eq_true'] at hc
    exact ⟨c, t ++ rest, by rw [hj, hct, List.cons_append], hc.1.1.1, hend⟩
  | string s => exact ⟨_, _, rfl, by decide, by decide⟩
  | array items => cases items <;> exact ⟨_, _, rfl, by decide, by decide⟩
  | object members => cases members <;> exact ⟨_, _, rfl, by decide, by decide⟩

end Starts

section Values

variable {style : Style} {fuel room depth : Nat} {before rest s : List Char} {j item : Json}
  {key : String} {items : List Json} {members : List (String × Json)}

/-- The layout of the value is read back in front of any text that cannot continue a number. -/
def Reads (style : Style) (j : Json) : Prop :=
  ∀ ⦃fuel room depth rest⦄, 2 * (layout style depth j).length ≤ fuel → j.nesting ≤ room →
    Ends rest → readValue fuel room (layout style depth j ++ rest) = some (j.reread, rest)

theorem readValue_append (h : ∀ c ∈ before, isBlank c) (s : List Char) :
    readValue fuel room (before ++ s) = readValue fuel room s := by
  cases fuel with
  | zero => rfl
  | succ fuel => rw [readValue, readValue, skipBlanks_append h]

theorem writeString_append (s : String) (rest : List Char) :
    writeString s ++ rest = '"' :: (s.toList.flatMap escape ++ '"' :: rest) := by
  simp [writeString]

theorem Reads.string (s : String) : Reads style (.string s) := by
  intro fuel room depth rest hfuel _ _
  obtain ⟨fuel, rfl⟩ := Nat.exists_eq_add_one_of_ne_zero (n := fuel) (by
    simp [layout, writeScalar, writeString] at hfuel
    omega)
  have hlayout : layout style depth (.string s) = writeString s := rfl
  rw [hlayout, writeString_append, readValue, skipBlanks_cons (by decide)]
  simp [readText_escapes, reread]

theorem readValue_bracket (hbefore : ∀ c ∈ before, isBlank c) (h : Starts s) :
    readValue (fuel + 1) room ('[' :: (before ++ s)) =
      (readItems fuel (room - 1) s).map fun (items, rest) =>
        (withRoom room (.array items), rest) := by
  obtain ⟨c, t, rfl, hblank, hend⟩ := h
  rw [readValue, skipBlanks_cons (by decide)]
  simp only [skipBlanks_append hbefore, skipBlanks_cons hblank]
  split
  · simp_all
  · rfl

theorem readValue_brace (hbefore : ∀ c ∈ before, isBlank c) (key : String) (s : List Char) :
    readValue (fuel + 1) room ('\x7b' :: (before ++ (writeString key ++ s))) =
      (readMembers fuel (room - 1) (writeString key ++ s)).map fun (members, rest) =>
        (withRoom room (ofMembers members), rest) := by
  rw [readValue, skipBlanks_cons (by decide)]
  simp only [skipBlanks_append hbefore, writeString_append, skipBlanks_cons (c := '"') (by decide)]
  rfl

section Items

theorem ends_layoutItems (style : Style) (depth : Nat) (items : List Json) (rest : List Char) :
    Ends (layoutItems style depth items ++ rest) := by
  cases items with
  | nil =>
    rw [layoutItems, List.append_assoc]
    exact ends_append (style.isBlank_gap depth) (ends_cons.mpr (by decide))
  | cons item items => exact ends_cons.mpr (by decide)

theorem readItems_layout (h : ∀ i ∈ item :: items, Reads style i)
    (hfuel : 2 * ((layout style (depth + 1) item).length +
      (layoutItems style depth items).length) ≤ fuel)
    (hroom : ∀ i ∈ item :: items, i.nesting ≤ room) (hbefore : ∀ c ∈ before, isBlank c)
    (rest : List Char) :
    readItems fuel room
      (before ++ (layout style (depth + 1) item ++ (layoutItems style depth items ++ rest))) =
        some ((item :: items).map reread, rest) := by
  -- The first item stands behind a bracket with its gap removed, each other behind a gap.
  induction items generalizing item fuel before with
  | nil =>
    simp only [layoutItems, List.length_append, List.length_singleton] at hfuel
    obtain ⟨fuel, rfl⟩ := Nat.exists_eq_add_one_of_ne_zero (n := fuel) (by omega)
    have hlast : readValue fuel room (layout style (depth + 1) item ++ _) = _ :=
      h item List.mem_cons_self (by omega) (hroom item List.mem_cons_self)
        (ends_layoutItems style depth [] rest)
    rw [readItems, readValue_append hbefore, hlast]
    simp [layoutItems, skipBlanks_append (style.isBlank_gap depth),
      skipBlanks_cons (c := ']') (by decide)]
  | cons next items ih =>
    simp only [layoutItems, List.length_append, List.length_cons] at hfuel
    obtain ⟨fuel, rfl⟩ := Nat.exists_eq_add_one_of_ne_zero (n := fuel) (by omega)
    have hfirst : readValue fuel room (layout style (depth + 1) item ++ _) = _ :=
      h item List.mem_cons_self (by omega) (hroom item List.mem_cons_self)
        (ends_layoutItems style depth (next :: items) rest)
    obtain ⟨-, hrest⟩ := List.forall_mem_cons.mp h
    obtain ⟨-, hrooms⟩ := List.forall_mem_cons.mp hroom
    have hnext : readItems fuel room _ = _ :=
      ih hrest (by omega) hrooms (style.isBlank_gap (depth + 1))
    rw [readItems, readValue_append hbefore, hfirst]
    simp [layoutItems, skipBlanks_cons (c := ',') (by decide), hnext]

theorem Reads.array (hlossless : ∀ item ∈ items, IsLossless item)
    (h : ∀ item ∈ items, Reads style item) : Reads style (.array items) := by
  intro fuel room depth rest hfuel hroom hends
  obtain ⟨hzero, hroom⟩ := nesting_array_le.mp hroom
  cases items with
  | nil =>
    obtain ⟨fuel, rfl⟩ := Nat.exists_eq_add_one_of_ne_zero (n := fuel) (by
      simp [layout] at hfuel
      omega)
    simp [layout, readValue, withRoom, hzero, reread_array, skipBlanks_cons (c := '[') (by decide),
      skipBlanks_cons (c := ']') (by decide)]
  | cons item items =>
    simp only [layout, List.length_append, List.length_cons] at hfuel
    obtain ⟨fuel, rfl⟩ := Nat.exists_eq_add_one_of_ne_zero (n := fuel) (by omega)
    have hstart : Starts (layout style (depth + 1) item ++ _) :=
      starts_layout (hlossless item List.mem_cons_self) (layoutItems style depth items ++ rest)
    have hitems : readItems fuel (room - 1) ([] ++ (layout style (depth + 1) item ++ _)) = _ :=
      readItems_layout h (by omega) hroom (by simp) rest
    rw [List.nil_append] at hitems
    simp [layout, readValue_bracket (style.isBlank_gap _) hstart, hitems, withRoom, hzero,
      reread_array]

end Items

section Members

theorem ends_layoutMembers (style : Style) (depth : Nat) (members : List (String × Json))
    (rest : List Char) : Ends (layoutMembers style depth members ++ rest) := by
  cases members with
  | nil =>
    rw [layoutMembers, List.append_assoc]
    exact ends_append (style.isBlank_gap depth) (ends_cons.mpr (by decide))
  | cons member members => exact ends_cons.mpr (by decide)

/-- What is read of a member. -/
def rereadMember (member : String × Json) : Option String × Json :=
  (some member.1, member.2.reread)

theorem mapM_rereadMember {f : Option String × Json → Option (String × Json)}
    (h : ∀ m, f (rereadMember m) = some (Prod.map id reread m)) (members : List (String × Json)) :
    (members.map rereadMember).mapM f = some (members.map (Prod.map id reread)) := by
  induction members with
  | nil => rfl
  | cons member members ih =>
    rw [List.map_cons, List.mapM_cons, h, ih]
    rfl

theorem ofMembers_map_rereadMember (members : List (String × Json)) :
    ofMembers (members.map rereadMember) = (Json.object members).reread := by
  rw [ofMembers, mapM_rereadMember fun _ => rfl, reread_object]

theorem readMembers_layout {value : Json}
    (h : ∀ m ∈ (key, value) :: members, Reads style m.2)
    (hfuel : 2 * ((layout style (depth + 1) value).length +
      (layoutMembers style depth members).length) ≤ fuel)
    (hroom : ∀ m ∈ (key, value) :: members, m.2.nesting ≤ room)
    (hbefore : ∀ c ∈ before, isBlank c) (rest : List Char) :
    readMembers fuel room
      (before ++ (writeString key ++ ':' :: (style.space ++ (layout style (depth + 1) value ++
        (layoutMembers style depth members ++ rest))))) =
        some (((key, value) :: members).map rereadMember, rest) := by
  induction members generalizing key value fuel before with
  | nil =>
    simp only [layoutMembers, List.length_append, List.length_singleton] at hfuel
    obtain ⟨fuel, rfl⟩ := Nat.exists_eq_add_one_of_ne_zero (n := fuel) (by omega)
    have hlast : readValue fuel room (layout style (depth + 1) value ++ _) = _ :=
      (List.forall_mem_cons.mp h).1 (by simp; omega) (List.forall_mem_cons.mp hroom).1
        (ends_layoutMembers style depth [] rest)
    rw [readMembers, skipBlanks_append hbefore, writeString_append, skipBlanks_cons (by decide)]
    simp only [readText_escapes, skipBlanks_cons (c := ':') (by decide),
      readValue_append style.isBlank_space, hlast]
    simp [layoutMembers, skipBlanks_append (style.isBlank_gap depth),
      skipBlanks_cons (c := '\x7d') (by decide), rereadMember]
  | cons next members ih =>
    obtain ⟨nextKey, nextValue⟩ := next
    simp only [layoutMembers, List.length_append, List.length_cons] at hfuel
    obtain ⟨fuel, rfl⟩ := Nat.exists_eq_add_one_of_ne_zero (n := fuel) (by omega)
    obtain ⟨hvalue, hrest⟩ := List.forall_mem_cons.mp h
    obtain ⟨hroom, hrooms⟩ := List.forall_mem_cons.mp hroom
    have hfirst : readValue fuel room (layout style (depth + 1) value ++ _) = _ :=
      hvalue (by simp; omega) hroom
        (ends_layoutMembers style depth ((nextKey, nextValue) :: members) rest)
    have hnext : readMembers fuel room _ = _ :=
      ih hrest (by omega) hrooms (style.isBlank_gap (depth + 1))
    rw [readMembers, skipBlanks_append hbefore, writeString_append, skipBlanks_cons (by decide)]
    simp only [readText_escapes, skipBlanks_cons (c := ':') (by decide),
      readValue_append style.isBlank_space, hfirst]
    simp [layoutMembers, skipBlanks_cons (c := ',') (by decide), hnext, rereadMember]

theorem Reads.object (h : ∀ member ∈ members, Reads style member.2) :
    Reads style (.object members) := by
  intro fuel room depth rest hfuel hroom hends
  obtain ⟨hzero, hroom⟩ := nesting_object_le.mp hroom
  cases members with
  | nil =>
    obtain ⟨fuel, rfl⟩ := Nat.exists_eq_add_one_of_ne_zero (n := fuel) (by
      simp [layout] at hfuel
      omega)
    simp [layout, readValue, withRoom, hzero, reread_object,
      skipBlanks_cons (c := '\x7b') (by decide), skipBlanks_cons (c := '\x7d') (by decide)]
  | cons member members =>
    obtain ⟨key, value⟩ := member
    simp only [layout, List.length_append, List.length_cons] at hfuel
    obtain ⟨fuel, rfl⟩ := Nat.exists_eq_add_one_of_ne_zero (n := fuel) (by omega)
    have hmembers : readMembers fuel (room - 1) ([] ++ (writeString key ++ ':' :: (style.space ++
        (layout style (depth + 1) value ++ _)))) = _ :=
      readMembers_layout h (by omega) hroom (by simp) rest
    rw [List.nil_append] at hmembers
    have hread := ofMembers_map_rereadMember ((key, value) :: members)
    have hlayout : layout style depth (.object ((key, value) :: members)) ++ rest =
        '\x7b' :: (style.gap (depth + 1) ++ (writeString key ++ ':' :: (style.space ++
          (layout style (depth + 1) value ++ (layoutMembers style depth members ++ rest))))) := by
      simp [layout]
    rw [hlayout, readValue_brace (style.isBlank_gap _), hmembers]
    simp only [Option.map_some, withRoom, if_neg hzero, hread]

end Members

theorem Reads.scalar (hlayout : ∀ style depth, layout style depth j = writeScalar j)
    (h : readScalar (writeScalar j) = some (j.reread, [])) : Reads style j := by
  intro fuel room depth rest hfuel _ hends
  obtain ⟨c, t, ht, hc, -⟩ := startsScalar_of_readScalar h
  rw [hlayout, ht] at hfuel ⊢
  obtain ⟨fuel, rfl⟩ := Nat.exists_eq_add_one_of_ne_zero (n := fuel) (by
    simp at hfuel
    omega)
  rw [List.cons_append, readValue_of_startsScalar hc, ← List.cons_append, ← ht]
  exact (isMaximal_readScalar h).2 hends

theorem IsLossless.reads (h : j.IsLossless) : Reads style j := by
  induction h using IsLossless.induct with
  | scalar j _ hlayout h => exact .scalar hlayout h
  | string s => exact .string s
  | array items h ih => exact .array h ih
  | object members h ih => exact .object ih

end Values

section Documents

variable {j : Json}

theorem read?_layout (h : j.IsLossless) (hnesting : j.nesting ≤ maxDepth) (style : Style)
    (depth : Nat) : read? (String.ofList (layout style depth j)) = some j.reread := by
  have hread : readValue (2 * (layout style depth j).length + 2) maxDepth
      (layout style depth j ++ []) = some (j.reread, []) :=
    h.reads (by omega) hnesting ends_nil
  rw [List.append_nil] at hread
  simp [read?, hread, skipBlanks]

/-- A document on one line is read back. -/
theorem read?_text (h : j.IsLossless) (hnesting : j.nesting ≤ maxDepth) :
    read? j.text = some j.reread := by
  rw [text, compact_eq_layout 0]
  exact read?_layout h hnesting _ _

/-- A document on indented lines is read back. -/
theorem read?_indentedText (h : j.IsLossless) (hnesting : j.nesting ≤ maxDepth) :
    read? j.indentedText = some j.reread := by
  rw [indentedText, indented_eq_layout]
  exact read?_layout h hnesting _ _

end Documents

end Json

end TypedSql
