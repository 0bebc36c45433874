import TypedSql.Connection.Pairs
import TypedSql.Proofs.Text.Pieces
import TypedSql.Proofs.Text.Runs

/-!
# Reading a row of pairs

A row is first cut into pairs, and the pairs are settings then
(`ConnectionTarget.ofPairsWithin?_eq`). A value is plain when nothing in it has a meaning of its
own: it has characters, but neither blanks nor backslashes, and no quote in front. Plain values are
read as they stand in the row (`ConnectionTarget.pairsWithin?_row`).

No other value is. What is read in place of a value can be the value itself only if it is plain
(`ConnectionTarget.value?_append`). And a row is as short as a row of its pairs can be: whoever
reads pairs out of it reads no more characters than there are, and just as many only when all
values are plain (`ConnectionTarget.weight_le`).
-/

namespace TypedSql

namespace ConnectionTarget

/-- The keys and values of a row, the first `fuel` of them. -/
def pairsWithin? : (fuel : Nat) → List Char → Option (List (String × String))
  | 0, _ => some []
  | fuel + 1, s =>
    let s := Text.trimStart s
    match s.takeWhile isKeyChar with
    | [] => some []
    | key => do
      let (value, rest) ← valueBehind? (s.dropWhile isKeyChar)
      let pairs ← pairsWithin? fuel rest
      some ((String.ofList key, String.ofList value) :: pairs)

/-- Add settings one after another. -/
def setAll? (t : ConnectionTarget) (pairs : List (String × String)) : Option ConnectionTarget :=
  pairs.foldlM (fun t p => t.set? p.1 p.2) t

variable {fuel : Nat} {s v w z rest key value : List Char} {t t' : ConnectionTarget}
  {ps pairs : List (String × String)}

theorem ofPairsWithin?_eq (fuel : Nat) (s : List Char) (t : ConnectionTarget) :
    ofPairsWithin? fuel s t = (pairsWithin? fuel s).bind (setAll? t) := by
  induction fuel generalizing s t with
  | zero => rfl
  | succ fuel ih =>
    rw [ofPairsWithin?, pairsWithin?]
    dsimp only
    cases (Text.trimStart s).takeWhile isKeyChar with
    | nil => rfl
    | cons c key =>
      cases valueBehind? ((Text.trimStart s).dropWhile isKeyChar) with
      | none => rfl
      | some found =>
        simp only [Option.bind_eq_bind, Option.bind_some, ih]
        cases hp : pairsWithin? fuel found.2 with
        | none => cases t.set? (String.ofList (c :: key)) (String.ofList found.1) <;> rfl
        | some pairs => rfl

/-! ### Plain values -/

/-- A value that can stand in a row as it is. -/
structure IsPlain (v : List Char) : Prop where
  ne_nil : v ≠ []
  unquoted : v.head? ≠ some '\''
  isBlank_eq_false : ∀ c ∈ v, Text.isBlank c = false
  ne_backslash : ∀ c ∈ v, c ≠ '\\'

theorem isPlain_iff_all {v : List Char} : IsPlain v ↔
    v ≠ [] ∧ v.head? ≠ some '\'' ∧ (v.all fun c => !Text.isBlank c && c != '\\') = true := by
  simp only [List.all_eq_true, Bool.and_eq_true, Bool.not_eq_true', bne_iff_ne]
  exact ⟨fun h => ⟨h.ne_nil, h.unquoted, fun c hc =>
      ⟨h.isBlank_eq_false c hc, h.ne_backslash c hc⟩⟩,
    fun ⟨hne, hquote, hall⟩ => ⟨hne, hquote, fun c hc => (hall c hc).1, fun c hc => (hall c hc).2⟩⟩

instance : DecidablePred IsPlain := fun _ => decidable_of_iff' _ isPlain_iff_all

theorem bareValue_cons_of_isBlank {c : Char} (hc : c ≠ '\\') (hb : Text.isBlank c = true) :
    bareValue (c :: s) = ([], c :: s) := by
  rw [bareValue.eq_def]
  simp [hc, hb]

theorem bareValue_cons {c : Char} (hc : c ≠ '\\') (hb : Text.isBlank c = false) :
    bareValue (c :: s) = (c :: (bareValue s).1, (bareValue s).2) := by
  rw [bareValue.eq_def]
  simp [hc, hb]

theorem bareValue_of_head? (h : ∀ c ∈ s.head?, Text.isBlank c = true) : bareValue s = ([], s) := by
  cases s with
  | nil => rfl
  | cons c s =>
    have hb := h c rfl
    refine bareValue_cons_of_isBlank ?_ hb
    rintro rfl
    exact absurd hb (by decide)

/-- A plain value is read up to the blank behind it. -/
theorem value?_append (hv : IsPlain v) (hz : ∀ c ∈ z.head?, Text.isBlank c = true) :
    value? (v ++ z) = some (v, z) := by
  have hbare : bareValue (v ++ z) = (v, z) := by
    have hb := hv.isBlank_eq_false
    have hc := hv.ne_backslash
    clear hv
    induction v with
    | nil => exact bareValue_of_head? hz
    | cons c v ih =>
      rw [List.forall_mem_cons] at hb hc
      rw [List.cons_append, bareValue_cons hc.1 hb.1, ih hb.2 hc.2]
  obtain ⟨c, v, rfl⟩ := List.exists_cons_of_ne_nil hv.ne_nil
  have hq : ∀ rest, c :: v ++ z ≠ '\'' :: rest := by
    rintro rest h
    exact hv.unquoted (congrArg List.head? h)
  rw [value?.eq_2 _ hq, hbare]

/-- Pairs in a row, with a blank in front of each. -/
def row (pairs : List (String × String)) : List Char :=
  pairs.flatMap fun p => ' ' :: p.1.toList ++ '=' :: p.2.toList

theorem row_cons (p : String × String) (ps : List (String × String)) :
    row (p :: ps) = ' ' :: (p.1.toList ++ '=' :: (p.2.toList ++ row ps)) := by
  simp [row]

theorem isBlank_of_head?_row (ps : List (String × String)) :
    ∀ c ∈ (row ps).head?, Text.isBlank c = true := by
  cases ps with
  | nil => simp [row]
  | cons p ps =>
    rintro c ⟨rfl⟩
    decide

theorem pairsWithin?_blank (fuel : Nat) (s : List Char) :
    pairsWithin? fuel (' ' :: s) = pairsWithin? fuel s := by
  cases fuel with
  | zero => rfl
  | succ fuel => rw [pairsWithin?, pairsWithin?, Text.trimStart_cons rfl]

theorem trimStart_append (hv : IsPlain v) (z : List Char) : Text.trimStart (v ++ z) = v ++ z := by
  obtain ⟨c, v, rfl⟩ := List.exists_cons_of_ne_nil hv.ne_nil
  simp [Text.trimStart, hv.isBlank_eq_false c List.mem_cons_self]

theorem valueBehind?_cons (w : List Char) :
    valueBehind? ('=' :: w) = value? (Text.trimStart w) := by
  have h : Text.trimStart ('=' :: w) = '=' :: w :=
    Text.trimStart_of_head (by rintro c ⟨rfl⟩; decide)
  simp only [valueBehind?, h]

/-- A key that stands in front of a row is read, and then a value. -/
theorem pairsWithin?_key (hne : key ≠ []) (hk : ∀ c ∈ key, isKeyChar c = true) (w : List Char) :
    pairsWithin? (fuel + 1) (key ++ '=' :: w) =
      (value? (Text.trimStart w)).bind fun found => (pairsWithin? fuel found.2).map
        ((String.ofList key, String.ofList found.1) :: ·) := by
  have hhead : ∀ c ∈ (key ++ '=' :: w).head?, Text.isBlank c = false := by
    intro c hc
    obtain ⟨k, key, rfl⟩ := List.exists_cons_of_ne_nil hne
    obtain rfl : k = c := Option.some.inj hc
    have hkey := hk k List.mem_cons_self
    simp only [isKeyChar, Bool.and_eq_true, Bool.not_eq_true'] at hkey
    exact hkey.1
  have hend : ∀ c ∈ ('=' :: w).head?, isKeyChar c = false := by
    rintro c ⟨rfl⟩
    decide
  rw [pairsWithin?, Text.trimStart_of_head hhead]
  dsimp only
  rw [Runs.takeWhile_append hk hend, Runs.dropWhile_append hk hend, valueBehind?_cons]
  obtain ⟨c, key, rfl⟩ := List.exists_cons_of_ne_nil hne
  dsimp only
  cases value? (Text.trimStart w) with
  | none => rfl
  | some found =>
    simp only [Option.bind_eq_bind, Option.bind_some]
    cases pairsWithin? fuel found.2 <;> rfl

theorem pairsWithin?_row_cons (p : String × String) (ps : List (String × String))
    (hk : p.1.toList ≠ [] ∧ ∀ c ∈ p.1.toList, isKeyChar c = true) :
    pairsWithin? (fuel + 1) (row (p :: ps)) =
      (value? (Text.trimStart (p.2.toList ++ row ps))).bind fun found =>
        (pairsWithin? fuel found.2).map ((p.1, String.ofList found.1) :: ·) := by
  rw [row_cons, pairsWithin?_blank, pairsWithin?_key hk.1 hk.2, String.ofList_toList]

/-- A row of plain values is read as it was meant. -/
theorem pairsWithin?_row (hk : ∀ p ∈ ps, p.1.toList ≠ [] ∧ ∀ c ∈ p.1.toList, isKeyChar c = true)
    (hv : ∀ p ∈ ps, IsPlain p.2.toList) (hf : ps.length ≤ fuel) :
    pairsWithin? fuel (row ps) = some ps := by
  induction ps generalizing fuel with
  | nil => cases fuel <;> rfl
  | cons p ps ih =>
    obtain ⟨fuel, rfl⟩ := Nat.exists_eq_succ_of_ne_zero (Nat.ne_zero_of_lt hf)
    rw [List.forall_mem_cons] at hk hv
    rw [Nat.succ_eq_add_one, pairsWithin?_row_cons p ps hk.1, trimStart_append hv.1,
      value?_append hv.1 (isBlank_of_head?_row ps), Option.bind_some,
      ih hk.2 hv.2 (Nat.le_of_succ_le_succ hf), Option.map_some, String.ofList_toList]

/-! ### What is read as it stands is plain -/

/-- How many characters in front are of some class. -/
def runLength (p : Char → Bool) (s : List Char) : Nat :=
  (s.takeWhile p).length

theorem runLength_append_le (p : Char → Bool) (v z : List Char) :
    runLength p (v ++ z) ≤ runLength p v + runLength p z := by
  rw [runLength, List.takeWhile_append]
  split
  · next h => simp [runLength, h]
  · exact Nat.le_add_right _ _

theorem runLength_append_of_not_all {p : Char → Bool} (h : v.all p = false) (z : List Char) :
    runLength p (v ++ z) = runLength p v := by
  rw [runLength, List.takeWhile_append, if_neg]
  · rfl
  · intro hl
    have he := (List.takeWhile_prefix p).eq_of_length hl
    have ha : v.all p = true :=
      List.all_eq_true.mpr fun c hc => List.mem_takeWhile_imp (he.symm ▸ hc)
    rw [ha] at h
    cases h

theorem runLength_mono {p q : Char → Bool} (h : ∀ c, p c = true → q c = true) (s : List Char) :
    runLength p s ≤ runLength q s := by
  induction s with
  | nil => exact Nat.le_refl 0
  | cons c s ih =>
    rw [runLength, runLength] at ih ⊢
    cases hp : p c with
    | true => simpa [hp, h c hp] using ih
    | false => simp [hp]

/-- A character that is escaped in a bare value costs a backslash. -/
theorem runLength_bareValue {p : Char → Bool} (hp : p '\\' = true)
    (hb : ∀ c, p c = true → c ≠ '\\' → Text.isBlank c = true) (s : List Char) :
    2 * runLength p (bareValue s).1 ≤ runLength p s := by
  fun_induction bareValue s with
  | case1 => simp [runLength]
  | case2 => simp [runLength]
  | case3 c s value rest hr ih =>
    rw [hr] at ih
    cases hc : p c
    · simp [runLength, hp, hc]
    · simp [runLength, hp, hc] at ih ⊢
      omega
  | case4 => simp [runLength]
  | case5 c s hn hs hc value rest hr ih =>
    have hpc : p c = false := by
      by_contra h
      refine hc (hb c (by simpa using h) ?_)
      rintro rfl
      cases s with
      | nil => exact hn rfl rfl
      | cons d s => exact hs d s rfl rfl
    simp [runLength, hpc]

/-- In a quoted value the closing quote counts, too, if everything before it is of the class. -/
theorem runLength_quotedValue {p : Char → Bool} (hp : p '\\' = true) (hq : p '\'' = true)
    (h : quotedValue? s = some (value, rest)) :
    runLength p value ≤ runLength p s ∧
      (value.all p = true → runLength p value + 1 ≤ runLength p s) := by
  fun_induction quotedValue? s generalizing value with
  | case1 => cases h
  | case2 s =>
    obtain ⟨rfl, -⟩ := Prod.mk.inj (Option.some.inj h)
    simp [runLength, hq]
  | case3 => cases h
  | case4 c s ih =>
    obtain ⟨⟨v, r⟩, hr, he⟩ := Option.map_eq_some_iff.mp h
    obtain ⟨rfl, rfl⟩ := Prod.mk.inj he
    obtain ⟨h₁, h₂⟩ := ih hr
    cases hc : p c
    · simp [runLength, hc]
    · simp only [runLength, hp, hc, List.takeWhile_cons, List.length_cons, if_true, List.all_cons,
        Bool.true_and] at h₁ h₂ ⊢
      exact ⟨by omega, fun ha => by have := h₂ ha; omega⟩
  | case5 c s _ _ _ ih =>
    obtain ⟨⟨v, r⟩, hr, he⟩ := Option.map_eq_some_iff.mp h
    obtain ⟨rfl, rfl⟩ := Prod.mk.inj he
    obtain ⟨h₁, h₂⟩ := ih hr
    cases hc : p c
    · simp [runLength, hc]
    · simp only [runLength, hc, List.takeWhile_cons, List.length_cons, if_true, List.all_cons,
        Bool.true_and] at h₁ h₂ ⊢
      exact ⟨by omega, fun ha => by have := h₂ ha; omega⟩

/-- A bare value that is read as it stands has nothing to escape. -/
theorem plain_of_bareValue (hz : z.head? ≠ some '\\') (h : bareValue (v ++ z) = (v, rest)) :
    (∀ c ∈ v, Text.isBlank c = false ∧ c ≠ '\\') ∧ ∀ c ∈ z.head?, Text.isBlank c = true := by
  induction v with
  | nil =>
    refine ⟨by simp, fun c hc => ?_⟩
    cases z with
    | nil => cases hc
    | cons d z =>
      obtain rfl : d = c := Option.some.inj hc
      by_contra hb
      have hd : d ≠ '\\' := fun hd => hz (congrArg some hd)
      rw [List.nil_append, bareValue_cons hd (by simpa using hb)] at h
      cases h
  | cons c v ih =>
    have hc : c ≠ '\\' := by
      rintro rfl
      have hr := runLength_bareValue (p := (· == '\\')) rfl
        (fun c hc hne => absurd (beq_iff_eq.mp hc) hne) ('\\' :: v ++ z)
      rw [h] at hr
      dsimp only at hr
      have hle := runLength_append_le (· == '\\') ('\\' :: v) z
      have hz₀ : runLength (· == '\\') z = 0 := by
        cases z with
        | nil => rfl
        | cons d z =>
          have hd : d ≠ '\\' := fun hd => hz (congrArg some hd)
          simp [runLength, hd]
      have hpos : 1 ≤ runLength (· == '\\') ('\\' :: v) := by simp [runLength]
      omega
    cases hb : Text.isBlank c with
    | true =>
      rw [List.cons_append, bareValue_cons_of_isBlank hc hb] at h
      cases h
    | false =>
      rw [List.cons_append, bareValue_cons hc hb] at h
      obtain ⟨hv, hr⟩ := Prod.mk.inj h
      obtain ⟨hall, hz⟩ := ih (Prod.ext (List.cons.inj hv).2 hr)
      exact ⟨List.forall_mem_cons.mpr ⟨⟨hb, hc⟩, hall⟩, hz⟩

/-- A blank, a quote or a backslash. -/
def isSpecial (c : Char) : Bool :=
  Text.isBlank c || c == '\'' || c == '\\'

/-- The blanks in front belong to a run of any class that blanks are of. -/
theorem runLength_trimStart {p : Char → Bool} (hp : ∀ c, Text.isBlank c = true → p c = true)
    (s : List Char) :
    (s.takeWhile Text.isBlank).length + runLength p (Text.trimStart s) = runLength p s := by
  have hb : ∀ c ∈ s.takeWhile Text.isBlank, p c = true :=
    fun c hc => hp c (List.mem_takeWhile_imp hc)
  have h : s.takeWhile p = s.takeWhile Text.isBlank ++ (Text.trimStart s).takeWhile p := by
    rw [← List.takeWhile_append_of_pos hb, Text.takeWhile_append_trimStart]
  rw [runLength, runLength, h, List.length_append]

/-- A blank in front of a value is dropped, so the one that is read would have to be escaped. -/
theorem bareValue_trimStart_ne {c : Char} (hz : runLength isSpecial z ≤ 1)
    (hc : Text.isBlank c = true) : bareValue (Text.trimStart (c :: v ++ z)) ≠ (c :: v, rest) := by
  intro h
  let p (c : Char) : Bool := Text.isBlank c || c == '\\'
  have hr := runLength_bareValue (p := p) rfl (fun c hp hne => by simpa [p, hne] using hp)
    (Text.trimStart (c :: v ++ z))
  rw [h] at hr
  dsimp only at hr
  have htrim := runLength_trimStart (p := p) (fun c hc => by simp [p, hc]) (c :: v ++ z)
  have hle := runLength_append_le p (c :: v) z
  have hm : runLength p z ≤ runLength isSpecial z := by
    refine runLength_mono (fun c hp => ?_) z
    simp only [p, Bool.or_eq_true] at hp
    simp only [isSpecial, Bool.or_eq_true]
    exact hp.imp_left .inl
  have hone : 1 ≤ runLength p (c :: v) := by simp [runLength, p, hc]
  have hd : 1 ≤ ((c :: v ++ z).takeWhile Text.isBlank).length := by simp [hc]
  omega

/-- What is read in place of a value is the value itself only if the value is plain, and then
nothing but a blank or the end stands behind it. -/
theorem isPlain_of_value? (hz : runLength isSpecial z ≤ 1) (hb : z.head? ≠ some '\\')
    (h : value? (Text.trimStart (v ++ z)) = some (v, rest)) :
    IsPlain v ∧ ∀ c ∈ z.head?, Text.isBlank c = true := by
  have hblank : ∀ c, Text.isBlank c = true → isSpecial c = true := by
    intro c hc
    simp [isSpecial, hc]
  have htrim := runLength_trimStart hblank (v ++ z)
  have hle := runLength_append_le isSpecial v z
  by_cases hq : ∃ s, Text.trimStart (v ++ z) = '\'' :: s
  · -- A quoted value has as many special characters in front as are read for it, and two quotes.
    obtain ⟨s, hs⟩ := hq
    rw [hs, value?] at h
    obtain ⟨hrun, hall⟩ := runLength_quotedValue (p := isSpecial) rfl rfl h
    have hcons : runLength isSpecial ('\'' :: s) = runLength isSpecial s + 1 := by
      simp [runLength, isSpecial]
    rw [hs, hcons] at htrim
    cases ha : v.all isSpecial with
    | true =>
      have := hall ha
      omega
    | false =>
      rw [runLength_append_of_not_all ha] at htrim
      omega
  · have hn : ∀ s, Text.trimStart (v ++ z) ≠ '\'' :: s := fun s hs => hq ⟨s, hs⟩
    rw [value?.eq_2 _ hn] at h
    split at h
    · cases h
    · next hne =>
      have hbare := Option.some.inj h
      have hnil : v ≠ [] := by
        rintro rfl
        exact hne rest hbare
      obtain ⟨c, v', rfl⟩ := List.exists_cons_of_ne_nil hnil
      cases hc : Text.isBlank c with
      | true =>
        exact absurd hbare (bareValue_trimStart_ne hz hc)
      | false =>
        have ht : Text.trimStart (c :: v' ++ z) = c :: v' ++ z := by
          simp [Text.trimStart, hc]
        rw [ht] at hbare hn
        obtain ⟨hall, hz⟩ := plain_of_bareValue hb hbare
        refine ⟨⟨List.cons_ne_nil _ _, ?_, fun c hc => (hall c hc).1,
          fun c hc => (hall c hc).2⟩, hz⟩
        rw [List.head?_cons]
        rintro ⟨rfl⟩
        exact hn _ rfl

/-! ### A row is as short as it can be -/

/-- The length of pairs in a row. -/
def weight : List (String × String) → Nat
  | [] => 0
  | p :: ps => p.1.toList.length + p.2.toList.length + 2 + weight ps

/-- One for a row whose first pair has no blank in front. -/
def lead (s : List Char) : Nat :=
  if s.head?.all Text.isBlank then 0 else 1

theorem lead_eq_zero (h : ∀ c ∈ s.head?, Text.isBlank c = true) : lead s = 0 := by
  rw [lead, if_pos]
  cases s with
  | nil => rfl
  | cons c s => exact h c rfl

theorem length_row (ps : List (String × String)) : (row ps).length = weight ps := by
  induction ps with
  | nil => rfl
  | cons p ps ih =>
    rw [row_cons, weight, ← ih]
    simp only [List.length_cons, List.length_append]
    omega

theorem weight_eq_of_perm {l ps : List (String × String)} (h : l.Perm ps) :
    weight l = weight ps := by
  induction h with
  | nil => rfl
  | cons p _ ih => rw [weight, weight, ih]
  | swap p q ps =>
    simp only [weight]
    omega
  | trans _ _ ih ih' => exact ih.trans ih'

theorem weight_le_of_sublist {l ps : List (String × String)} (h : l.Sublist ps) :
    weight l ≤ weight ps := by
  induction h with
  | slnil => exact Nat.le_refl 0
  | cons p _ ih => exact ih.trans (Nat.le_add_left _ _)
  | cons_cons p _ ih => exact Nat.add_le_add_left ih _

theorem length_le_weight (ps : List (String × String)) : 2 * ps.length ≤ weight ps := by
  induction ps with
  | nil => exact Nat.le_refl 0
  | cons p ps ih =>
    rw [weight, List.length_cons]
    omega

theorem length_bareValue (s : List Char) :
    (bareValue s).1.length + (bareValue s).2.length ≤ s.length ∧
      (∀ c ∈ (bareValue s).2.head?, Text.isBlank c = true) ∧
      (s.length ≤ (bareValue s).1.length + (bareValue s).2.length →
        s = (bareValue s).1 ++ (bareValue s).2 ∧
          ∀ c ∈ (bareValue s).1, Text.isBlank c = false ∧ c ≠ '\\') := by
  fun_induction bareValue s with
  | case1 => simp
  | case2 => simp
  | case3 c s value rest hr ih =>
    rw [hr] at ih
    obtain ⟨hl, hb, -⟩ := ih
    simp only [List.length_cons] at hl ⊢
    exact ⟨by omega, hb, fun h => by omega⟩
  | case4 c s hn hs hc =>
    simp [hc]
  | case5 c s hn hs hc value rest hr ih =>
    rw [hr] at ih
    obtain ⟨hl, hb, ht⟩ := ih
    have hne : c ≠ '\\' := by
      rintro rfl
      cases s with
      | nil => exact hn rfl rfl
      | cons d s => exact hs d s rfl rfl
    simp only [List.length_cons] at hl ht ⊢
    refine ⟨by omega, hb, fun h => ?_⟩
    obtain ⟨he, hall⟩ := ht (by omega)
    exact ⟨congrArg (c :: ·) he, List.forall_mem_cons.mpr ⟨⟨by simpa using hc, hne⟩, hall⟩⟩

theorem length_quotedValue (h : quotedValue? s = some (value, rest)) :
    value.length + rest.length + 1 ≤ s.length := by
  fun_induction quotedValue? s generalizing value with
  | case1 => cases h
  | case2 s =>
    obtain ⟨rfl, rfl⟩ := Prod.mk.inj (Option.some.inj h)
    simp
  | case3 => cases h
  | case4 c s ih | case5 c s _ _ _ ih =>
    obtain ⟨⟨v, r⟩, hr, he⟩ := Option.map_eq_some_iff.mp h
    obtain ⟨rfl, rfl⟩ := Prod.mk.inj he
    have := ih hr
    simp only [List.length_cons]
    omega

/-- A value takes at least its own length. It takes two characters more between quotes; else a
blank or the end is behind it, and without anything to escape it is plain. -/
theorem length_value? (h : value? s = some (value, rest)) :
    value.length + rest.length + 2 ≤ s.length ∨
      value.length + rest.length ≤ s.length ∧ lead rest = 0 ∧
        (s.length ≤ value.length + rest.length → IsPlain value) := by
  by_cases hq : ∃ s', s = '\'' :: s'
  · obtain ⟨s', rfl⟩ := hq
    have := length_quotedValue (s := s') h
    exact .inl (by simp only [List.length_cons]; omega)
  · have hn : ∀ s', s ≠ '\'' :: s' := fun s' hs => hq ⟨s', hs⟩
    rw [value?.eq_2 _ hn] at h
    obtain ⟨hl, hb, ht⟩ := length_bareValue s
    split at h
    · cases h
    · next hne =>
      rw [Option.some.inj h] at hl hb ht
      refine .inr ⟨hl, ?_, fun hs => ?_⟩
      · exact lead_eq_zero hb
      · obtain ⟨rfl, hall⟩ := ht hs
        have hv : value ≠ [] := by
          rintro rfl
          exact hne rest (Option.some.inj h)
        obtain ⟨c, v, rfl⟩ := List.exists_cons_of_ne_nil hv
        refine ⟨hv, ?_, fun c hc => (hall c hc).1, fun c hc => (hall c hc).2⟩
        rw [List.head?_cons]
        rintro ⟨rfl⟩
        exact hn _ rfl

theorem length_trimStart_le (s : List Char) : (Text.trimStart s).length ≤ s.length :=
  (List.dropWhile_suffix _).length_le

/-- A pair starts with its key, or a blank in front is dropped. -/
theorem length_trimStart_lt (hk : (Text.trimStart s).takeWhile isKeyChar ≠ []) :
    (Text.trimStart s).length + 1 ≤ s.length + lead s := by
  rw [lead]
  cases s with
  | nil => exact absurd rfl hk
  | cons c s =>
    cases hb : Text.isBlank c with
    | true =>
      have := length_trimStart_le s
      simp only [Text.trimStart, List.dropWhile_cons, hb] at this ⊢
      simp
      omega
    | false => simp [Text.trimStart, hb]

/-- Pairs that are read are no longer than the row, and only plain ones are as long. -/
theorem weight_le (h : pairsWithin? fuel s = some pairs) :
    weight pairs ≤ s.length + lead s ∧
      (s.length + lead s ≤ weight pairs → ∀ p ∈ pairs, IsPlain p.2.toList) := by
  induction fuel generalizing s pairs with
  | zero =>
    obtain rfl := Option.some.inj h
    simp [weight]
  | succ fuel ih =>
    rw [pairsWithin?] at h
    dsimp only at h
    split at h
    · obtain rfl := Option.some.inj h
      simp [weight]
    · next hk =>
      obtain ⟨⟨value, rest⟩, hv, h⟩ := Option.bind_eq_some_iff.mp h
      obtain ⟨found, hf, hp⟩ := Option.bind_eq_some_iff.mp h
      obtain rfl := Option.some.inj hp
      have hs := length_trimStart_lt (s := s) hk
      have hlen : ((Text.trimStart s).takeWhile isKeyChar).length +
          ((Text.trimStart s).dropWhile isKeyChar).length = (Text.trimStart s).length := by
        rw [← List.length_append, List.takeWhile_append_dropWhile]
      rw [valueBehind?] at hv
      split at hv
      · next w hw =>
        have h₁ := length_trimStart_le ((Text.trimStart s).dropWhile isKeyChar)
        have h₂ := length_trimStart_le w
        rw [hw, List.length_cons] at h₁
        obtain ⟨hle, htight⟩ := ih hf
        have hlead : lead rest ≤ 1 := by
          rw [lead]
          split <;> omega
        simp only [weight, String.toList_ofList] at hle htight ⊢
        obtain hquoted | ⟨hbare, hrest, hplain⟩ := length_value? hv
        · exact ⟨by omega, fun h => by omega⟩
        · refine ⟨by omega, fun h => List.forall_mem_cons.mpr ⟨?_, htight (by omega)⟩⟩
          rw [String.toList_ofList]
          exact hplain (by omega)
      · cases hv

end ConnectionTarget

end TypedSql
