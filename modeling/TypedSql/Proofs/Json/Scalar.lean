import TypedSql.Json.Read
import TypedSql.Json.Write
import TypedSql.Proofs.Text.Numeral

/-!
# Texts and numbers in JSON

A text is read back from its escapes. The scanner of a number takes as much as it can, so what
stands behind a number does not change it as long as it cannot continue one (`Ends`). A written
integer is read back when it fits into 64 bits.
-/

namespace TypedSql

namespace Json

section Escapes

variable {c : Char} {rest : List Char}

theorem hex4_control :
    ∀ n < 32, hex4 '0' '0' (hexDigit (n / 16)) (hexDigit (n % 16)) = some n := by
  decide

theorem readParts_control (h : c.toNat < 32) :
    readParts ('\\' :: 'u' :: '0' :: '0' :: hexDigit (c.toNat / 16) :: hexDigit (c.toNat % 16) ::
      rest) = (readParts rest).map (push (.char c)) := by
  have hunit : TextPart.ofUnit c.toNat = .char c := by
    have : c.toNat < 0xD800 := by omega
    simp [TextPart.ofUnit, this]
  simp only [readParts, hex4_control _ h, hunit]

theorem readParts_plain (hquote : c ≠ '"') (hslash : c ≠ '\\') (h : ¬ c.toNat < 32) :
    readParts (c :: rest) = (readParts rest).map (push (.char c)) := by
  rw [readParts.eq_5 c rest hquote (by grind) (by grind)]
  simp [h, hslash]

theorem readParts_escape (c : Char) (rest : List Char) :
    readParts (escape c ++ rest) = (readParts rest).map (push (.char c)) := by
  unfold escape
  split
  case h_8 hquote hslash _ _ _ _ _ =>
    split
    · exact readParts_control ‹_›
    · exact readParts_plain hquote hslash ‹_›
  all_goals simp [readParts, unescape]

theorem readParts_flatMap_escape (s rest : List Char) :
    readParts (s.flatMap escape ++ '"' :: rest) = some (s.map .char, rest) := by
  induction s with
  | nil => simp [readParts]
  | cons c s ih => simp [readParts_escape, ih, push]

theorem textOf?_map_char (s : List Char) : textOf? (s.map .char) = some s := by
  induction s with
  | nil => rfl
  | cons c s ih => simp [textOf?, ih]

theorem readText_escapes (s : String) (rest : List Char) :
    readText (s.toList.flatMap escape ++ '"' :: rest) = some (some s, rest) := by
  simp [readText, readParts_flatMap_escape, textOf?_map_char]

end Escapes

section Scanners

variable {α : Type} {s rest : List Char}

/-- The characters of a number. -/
def isNumeric (c : Char) : Bool :=
  c.isDigit || c == '-' || c == '+' || c == '.' || c == 'e' || c == 'E'

/-- A text that cannot continue a number. -/
def Ends (rest : List Char) : Prop :=
  rest.head?.all (!isNumeric ·)

@[simp] theorem ends_nil : Ends [] := rfl

@[simp] theorem ends_cons {c : Char} : Ends (c :: rest) ↔ isNumeric c = false := by
  simp [Ends]

/-- A scanner leaves the end of the text, and what cannot continue a number behind the text does
not change what it takes. -/
def IsMaximal (scan : List Char → Option (α × List Char)) : Prop :=
  ∀ ⦃s a r⦄, scan s = some (a, r) →
    r <:+ s ∧ ∀ ⦃rest⦄, Ends rest → scan (s ++ rest) = some (a, r ++ rest)

theorem takeDigits_append (h : Ends rest) :
    Text.takeDigits (s ++ rest) = ((Text.takeDigits s).1, (Text.takeDigits s).2 ++ rest) := by
  have hrest : rest.takeWhile Char.isDigit = [] ∧ rest.dropWhile Char.isDigit = rest := by
    cases rest with
    | nil => exact ⟨rfl, rfl⟩
    | cons c rest => simp_all [isNumeric]
  induction s with
  | nil => simp [Text.takeDigits, hrest]
  | cons c s ih =>
    by_cases hc : c.isDigit <;> simp_all [Text.takeDigits]

theorem takeDigits_suffix (s : List Char) : (Text.takeDigits s).2 <:+ s :=
  List.dropWhile_suffix _

theorem isMaximal_readFraction : IsMaximal readFraction := by
  intro s ds r h
  unfold readFraction at h
  split at h
  next t =>
    simp only at h
    split at h
    · cases h
    next hds =>
      obtain ⟨rfl, rfl⟩ := Prod.mk.inj (Option.some.inj h)
      refine ⟨(takeDigits_suffix t).trans (List.suffix_cons _ _), fun rest hrest => ?_⟩
      simp [readFraction, takeDigits_append hrest, hds]
  next hpoint =>
    obtain ⟨rfl, rfl⟩ := Prod.mk.inj (Option.some.inj h)
    refine ⟨List.suffix_rfl, fun rest hrest => readFraction.eq_2 _ ?_⟩
    rintro t ht
    cases s with
    | nil =>
      obtain rfl : rest = '.' :: t := ht
      exact absurd (ends_cons.mp hrest) (by decide)
    | cons c s => exact hpoint s (congrArg (· :: s) (List.cons.inj ht).1)

theorem isMaximal_readExponentDigits (negative : Bool) :
    IsMaximal (readExponentDigits negative) := by
  intro s n r h
  simp only [readExponentDigits] at h
  split at h
  · cases h
  next hds =>
    obtain ⟨rfl, rfl⟩ := Prod.mk.inj (Option.some.inj h)
    refine ⟨takeDigits_suffix s, fun rest hrest => ?_⟩
    simp [readExponentDigits, takeDigits_append hrest, hds]

/-- The digits of an exponent behind its letter. -/
def readSigned : List Char → Option (Int × List Char)
  | '+' :: rest => readExponentDigits false rest
  | '-' :: rest => readExponentDigits true rest
  | rest => readExponentDigits false rest

theorem isMaximal_readSigned : IsMaximal readSigned := by
  intro s n r h
  unfold readSigned at h
  split at h
  case h_1 | h_2 =>
    obtain ⟨hsuffix, happend⟩ := isMaximal_readExponentDigits _ h
    exact ⟨hsuffix.trans (List.suffix_cons _ _), happend⟩
  case h_3 hplus hminus =>
    obtain ⟨hsuffix, happend⟩ := isMaximal_readExponentDigits _ h
    refine ⟨hsuffix, fun rest hrest => ?_⟩
    -- There is a digit, so the sign that is not there cannot come from what stands behind.
    cases s with
    | nil => cases h
    | cons c s =>
      rw [List.cons_append, readSigned.eq_3 _ (by simpa using hplus) (by simpa using hminus)]
      exact happend hrest

theorem readExponent_cons (c : Char) (s : List Char) :
    readExponent (c :: s) =
      if c == 'e' || c == 'E' then (readSigned s).map fun (n, rest) => (some n, rest)
      else some (none, c :: s) :=
  rfl

theorem isMaximal_readExponent : IsMaximal readExponent := by
  intro s n r h
  cases s with
  | nil =>
    obtain ⟨rfl, rfl⟩ := Prod.mk.inj (Option.some.inj h)
    refine ⟨List.suffix_rfl, fun rest hrest => ?_⟩
    cases rest with
    | nil => rfl
    | cons c rest => simp_all [isNumeric, readExponent_cons]
  | cons c s =>
    rw [readExponent_cons] at h
    split at h
    next hc =>
      obtain ⟨⟨m, t⟩, hm, hn⟩ := Option.map_eq_some_iff.mp h
      obtain ⟨rfl, rfl⟩ := Prod.mk.inj hn
      obtain ⟨hsuffix, happend⟩ := isMaximal_readSigned hm
      refine ⟨hsuffix.trans (List.suffix_cons _ _), fun rest hrest => ?_⟩
      rw [List.cons_append, readExponent_cons, if_pos hc, happend hrest]
      rfl
    next hc =>
      obtain ⟨rfl, rfl⟩ := Prod.mk.inj (Option.some.inj h)
      exact ⟨List.suffix_rfl, fun rest _ => by
        rw [List.cons_append, readExponent_cons, if_neg hc]⟩

/-- The value of a number with these digits before and behind its point and this exponent. -/
def numberOf (negative : Bool) (whole fraction : List Char) (exponent : Option Int) : Json :=
  let n := Text.digitsValue whole
  let limit := if negative then 9223372036854775808 else 18446744073709551615
  if fraction.isEmpty && exponent.isNone && !(negative && n == 0) && n ≤ limit then
    .int (if negative then -(n : Int) else n)
  else
    ((Double.ofDigits? negative whole fraction (exponent.getD 0)).map .double).getD .unreadable

/-- Whether these digits can stand in front of a point. -/
def isWhole (ds : List Char) : Bool :=
  !ds.isEmpty && !(ds.head? = some '0' && 1 < ds.length)

theorem readNumber_eq (negative : Bool) (s : List Char) :
    readNumber negative s =
      if isWhole (Text.takeDigits s).1 then
        (readFraction (Text.takeDigits s).2).bind fun (fraction, t) =>
          (readExponent t).map fun (exponent, r) =>
            (numberOf negative (Text.takeDigits s).1 fraction exponent, r)
      else none := by
  unfold readNumber isWhole
  generalize Text.takeDigits s = ds
  obtain ⟨whole, t⟩ := ds
  cases hempty : whole.isEmpty
  case true => simp [hempty]
  cases hzero : (whole.head? = some '0' && 1 < whole.length : Bool)
  case true => simp [hempty, hzero]
  simp only [hempty, hzero, Bool.not_false, Bool.and_true, if_true, Bool.false_eq_true, if_false,
    Option.bind_eq_bind, Option.map_eq_bind]
  refine congrArg _ (funext fun p => congrArg _ (funext fun q => ?_))
  simp only [Function.comp, numberOf]
  generalize (if negative then 9223372036854775808 else 18446744073709551615 : Nat) = limit
  split
  · rfl
  · cases Double.ofDigits? negative whole p.1 (q.1.getD 0) <;> rfl

theorem isMaximal_readNumber (negative : Bool) : IsMaximal (readNumber negative) := by
  intro s j r h
  rw [readNumber_eq] at h
  split at h
  case isFalse => cases h
  next hwhole =>
  obtain ⟨⟨fraction, t⟩, hfraction, h⟩ := Option.bind_eq_some_iff.mp h
  obtain ⟨⟨exponent, r⟩, hexponent, h⟩ := Option.map_eq_some_iff.mp h
  obtain ⟨rfl, rfl⟩ := Prod.mk.inj h
  obtain ⟨hsuffix, hfraction⟩ := isMaximal_readFraction hfraction
  obtain ⟨hsuffix', hexponent⟩ := isMaximal_readExponent hexponent
  refine ⟨(hsuffix'.trans hsuffix).trans (takeDigits_suffix s), fun rest hrest => ?_⟩
  simp [readNumber_eq, takeDigits_append hrest, hwhole, hfraction hrest, hexponent hrest]

theorem exists_isDigit_of_readNumber {negative : Bool} {p : Json × List Char}
    (h : readNumber negative s = some p) : ∃ c t, s = c :: t ∧ c.isDigit := by
  rw [readNumber_eq] at h
  cases s with
  | nil => cases h
  | cons c t =>
    by_cases hc : c.isDigit
    · exact ⟨c, t, rfl, hc⟩
    · simp [Text.takeDigits, isWhole, hc] at h

theorem readScalar_of_isDigit {c : Char} (h : c.isDigit) (t : List Char) :
    readScalar (c :: t) = readNumber false (c :: t) := by
  apply readScalar.eq_5 <;> (rintro _ ⟨⟩; exact absurd h (by decide))

theorem isMaximal_readScalar : IsMaximal readScalar := by
  intro s j r h
  unfold readScalar at h
  split at h
  case h_5 =>
    obtain ⟨c, t, rfl, hc⟩ := exists_isDigit_of_readNumber h
    obtain ⟨hsuffix, happend⟩ := isMaximal_readNumber false h
    exact ⟨hsuffix, fun rest hrest => (readScalar_of_isDigit hc _).trans (happend hrest)⟩
  case h_4 t =>
    obtain ⟨hsuffix, happend⟩ := isMaximal_readNumber true h
    exact ⟨hsuffix.trans (List.suffix_cons _ _), fun rest hrest => happend hrest⟩
  case h_3 t =>
    obtain ⟨rfl, rfl⟩ := Prod.mk.inj (Option.some.inj h)
    exact ⟨⟨['f', 'a', 'l', 's', 'e'], rfl⟩, fun rest _ => rfl⟩
  case h_2 t =>
    obtain ⟨rfl, rfl⟩ := Prod.mk.inj (Option.some.inj h)
    exact ⟨⟨['t', 'r', 'u', 'e'], rfl⟩, fun rest _ => rfl⟩
  case h_1 t =>
    obtain ⟨rfl, rfl⟩ := Prod.mk.inj (Option.some.inj h)
    exact ⟨⟨['n', 'u', 'l', 'l'], rfl⟩, fun rest _ => rfl⟩

end Scanners

section Integers

theorem eq_zero_of_head?_toDigits {n : Nat} (h : (Nat.toDigits 10 n).head? = some '0') :
    n = 0 := by
  induction n using Nat.strongRecOn with
  | ind n ih =>
    by_cases hn : n < 10
    · have hdigit : ∀ n < 10, n.digitChar = '0' → n = 0 := by decide
      rw [Nat.toDigits_of_lt_base hn] at h
      exact hdigit n hn (Option.some.inj h)
    · -- The first digit is that of `n / 10`, which is not zero.
      rw [Nat.toDigits_of_base_le (by decide) (by omega), List.head?_append,
        List.head?_eq_some_head (Text.toDigits_ne_nil _), Option.some_or,
        ← List.head?_eq_some_head] at h
      have := ih (n / 10) (by omega) h
      omega

theorem isWhole_toDigits (n : Nat) : isWhole (Nat.toDigits 10 n) := by
  have hzero (h : (Nat.toDigits 10 n).head? = some '0') : (Nat.toDigits 10 n).length ≤ 1 := by
    rw [eq_zero_of_head?_toDigits h]
    decide
  by_cases h : (Nat.toDigits 10 n).head? = some '0' <;>
    simp [isWhole, h, hzero]

theorem takeDigits_toDigits (n : Nat) :
    Text.takeDigits (Nat.toDigits 10 n) = (Nat.toDigits 10 n, []) := by
  have h : ∀ c ∈ Nat.toDigits 10 n, c.isDigit := fun _ => Text.isDigit_of_mem_toDigits
  have htake : (Nat.toDigits 10 n ++ []).takeWhile Char.isDigit = _ :=
    List.takeWhile_append_of_pos h
  have hdrop : (Nat.toDigits 10 n ++ []).dropWhile Char.isDigit = _ :=
    List.dropWhile_append_of_pos h
  rw [List.append_nil] at htake hdrop
  simp [Text.takeDigits, htake, hdrop]

theorem readNumber_toDigits {negative : Bool} {n : Nat} (hzero : negative → n ≠ 0)
    (hlimit : n ≤ if negative then 9223372036854775808 else 18446744073709551615) :
    readNumber negative (Nat.toDigits 10 n) = some (.int (if negative then -n else n), []) := by
  have hsign : (!(negative && n == 0)) = true := by
    cases negative <;> simp_all
  simp [readNumber_eq, takeDigits_toDigits, isWhole_toDigits, readFraction, readExponent, numberOf,
    hlimit, hsign]

theorem readScalar_int {n : Int} (hlow : -9223372036854775808 ≤ n)
    (hhigh : n ≤ 18446744073709551615) :
    readScalar (writeScalar (.int n)) = some (.int n, []) := by
  cases n with
  | ofNat n =>
    have htext : writeScalar (.int (.ofNat n)) = Nat.toDigits 10 n := Text.toList_toString n
    obtain ⟨c, t, hc⟩ := List.exists_cons_of_ne_nil (Text.toDigits_ne_nil n)
    have hdigit : c.isDigit := Text.isDigit_of_mem_toDigits (hc ▸ List.mem_cons_self)
    rw [htext, hc, readScalar_of_isDigit hdigit, ← hc]
    exact readNumber_toDigits (by simp) (by simpa using Int.ofNat_le.mp hhigh)
  | negSucc n =>
    have htext : writeScalar (.int (.negSucc n)) = '-' :: Nat.toDigits 10 (n + 1) := by
      rw [← Text.toList_toString]
      simp [writeScalar, toString, Int.repr, String.toList_append]
    rw [htext]
    have hread : readNumber true (Nat.toDigits 10 (n + 1)) = _ :=
      readNumber_toDigits (by simp) (by simp; omega)
    exact hread

end Integers

section Decimals

theorem isNumeric_of_isDigit {c : Char} (h : c.isDigit) : isNumeric c := by
  simp [isNumeric, h]

theorem isNumeric_textIn (layout : Decimal.Layout) (d : Decimal) :
    ∀ c ∈ d.textIn layout, isNumeric c := by
  have hdigits (n : Nat) : ∀ c ∈ Nat.toDigits 10 n, isNumeric c := fun _ hc =>
    isNumeric_of_isDigit (Text.isDigit_of_mem_toDigits hc)
  have hmarks : isNumeric '-' ∧ isNumeric '+' ∧ isNumeric '.' ∧ isNumeric 'e' ∧ isNumeric '0' := by
    decide
  have hsign : ∀ c ∈ (if d.negative then ['-'] else []), isNumeric c := by
    cases d.negative <;> simp [hmarks]
  have htail (n : Int) : ∀ c ∈ 'e' :: (if n < 0 then '-' else '+') :: Nat.toDigits 10 n.natAbs,
      isNumeric c := by
    split <;> simpa [hmarks] using hdigits _
  have hds := hdigits d.digits
  simp only [Decimal.textIn]
  generalize Nat.toDigits 10 d.digits = ds at hds ⊢
  split
  · exact List.forall_mem_append.mpr ⟨hsign, by simp [hmarks]⟩
  refine List.forall_mem_append.mpr ⟨hsign, ?_⟩
  split
  · simpa [or_imp, forall_and, hmarks] using hds
  split
  · simp only [List.forall_mem_append, List.forall_mem_cons]
    exact ⟨fun c hc => hds c (List.mem_of_mem_take hc), hmarks.2.2.1,
      fun c hc => hds c (List.mem_of_mem_drop hc)⟩
  split
  · simpa [or_imp, forall_and, hmarks] using hds
  have hpower := htail ((ds.length + d.exponent : Int) - 1)
  split
  · exact List.forall_mem_cons.mpr ⟨hds _ List.mem_cons_self, hpower⟩
  · obtain ⟨hc, hcs⟩ := List.forall_mem_cons.mp hds
    simp only [List.forall_mem_append, List.forall_mem_cons] at hpower ⊢
    exact ⟨⟨hc, hmarks.2.2.1, hcs⟩, hpower⟩
  · exact hpower

end Decimals

end Json

end TypedSql
