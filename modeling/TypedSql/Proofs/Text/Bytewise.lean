import Mathlib.Data.List.TakeWhile
import TypedSql.Proofs.Settings.Namespace

/-!
# Text read byte by byte

A text can be read as its UTF-8 bytes instead of its characters. To put both readings into the same
words, a byte is taken for the character with its number (`Text.bytewise`). An ASCII character is
its only byte. Every other character has a first byte and continuation bytes, none of which is
ASCII, and a continuation byte is never the first byte of a character
(`Text.exists_isBytesOf`).

A property of ASCII characters (`Text.IsAsciiClass`) is therefore found in the same places in both
readings, and a text starts with another one in one reading exactly if it does in the other
(`Text.afterStart_bytewise`). What is counted in characters in one reading is counted in bytes in
the other (`Text.byteCount`).
-/

namespace TypedSql

namespace Text

/-- The character with the number of a byte. -/
def byteChar (b : UInt8) : Char :=
  Char.ofNat b.toNat

/-- The bytes of a text, each as the character with its number. -/
def bytewise (s : List Char) : List Char :=
  s.flatMap fun c => (String.utf8EncodeChar c).map byteChar

/-- The text that has the bytes of another text as its characters. -/
def ofBytes (s : String) : String :=
  String.ofList (bytewise s.toList)

@[simp] theorem toList_ofBytes (s : String) : (ofBytes s).toList = bytewise s.toList :=
  String.toList_ofList

/-- A text of ASCII characters only. -/
def IsAscii (s : List Char) : Prop :=
  ∀ c ∈ s, c.toNat < 128

instance : DecidablePred IsAscii := fun s =>
  decidable_of_iff ((s.all fun c => c.toNat < 128) = true) (by simp [IsAscii])

@[simp] theorem isAscii_nil : IsAscii [] := nofun

@[simp] theorem isAscii_cons {c : Char} {s : List Char} :
    IsAscii (c :: s) ↔ c.toNat < 128 ∧ IsAscii s :=
  List.forall_mem_cons

@[simp] theorem isAscii_append {s t : List Char} : IsAscii (s ++ t) ↔ IsAscii s ∧ IsAscii t :=
  List.forall_mem_append

/-- A property that only ASCII characters have. -/
def IsAsciiClass (p : Char → Bool) : Prop :=
  ∀ c, 128 ≤ c.toNat → p c = false

section Encoding

variable {c : Char}

@[simp] theorem toNat_byteChar (b : UInt8) : (byteChar b).toNat = b.toNat := by
  have hb : b.toNat < 256 := b.toNat_lt
  have hvalid : b.toNat.isValidChar := .inl (by omega)
  rw [byteChar, Char.ofNat, dif_pos hvalid]
  rfl

theorem byteChar_injective : Function.Injective byteChar := by
  intro a b h
  have hab : (byteChar a).toNat = (byteChar b).toNat := congrArg Char.toNat h
  rw [toNat_byteChar, toNat_byteChar] at hab
  exact UInt8.toNat_inj.mp hab

@[simp] theorem bytewise_nil : bytewise [] = [] := rfl

theorem bytewise_cons (c : Char) (s : List Char) :
    bytewise (c :: s) = (String.utf8EncodeChar c).map byteChar ++ bytewise s :=
  List.flatMap_cons

theorem bytewise_append (s t : List Char) : bytewise (s ++ t) = bytewise s ++ bytewise t :=
  List.flatMap_append

theorem bytewise_eq_map (s : List Char) :
    bytewise s = (s.flatMap String.utf8EncodeChar).map byteChar :=
  List.map_flatMap.symm

theorem length_bytewise (s : List Char) :
    (bytewise s).length = (String.ofList s).utf8ByteSize := by
  rw [bytewise_eq_map, List.length_map, String.utf8ByteSize, String.toByteArray_ofList,
    List.utf8Encode, List.size_toByteArray]

/-- An ASCII character is its only byte. -/
theorem bytewise_cons_of_lt (hc : c.toNat < 128) (s : List Char) :
    bytewise (c :: s) = c :: bytewise s := by
  have hle : c.toNat ≤ 127 := by omega
  have hbytes : String.utf8EncodeChar c = [UInt8.ofNat c.toNat] := by
    rw [String.utf8EncodeChar]
    exact if_pos hle
  have hnat : (UInt8.ofNat c.toNat).toNat = c.toNat := by
    rw [UInt8.toNat_ofNat']
    omega
  rw [bytewise_cons, hbytes, List.map_singleton, byteChar, hnat, Char.ofNat_toNat]
  rfl

/-- Any other character has a first byte and continuation bytes. -/
theorem exists_utf8EncodeChar (hc : 128 ≤ c.toNat) :
    ∃ d ds, String.utf8EncodeChar c = d :: ds ∧ 192 ≤ d.toNat ∧
      ∀ e ∈ ds, 128 ≤ e.toNat ∧ e.toNat < 192 := by
  have hone : ¬ c.val.toNat ≤ 127 := fun h => absurd hc (Nat.not_le.mpr (Nat.lt_succ_of_le h))
  have hcont (n : Nat) : 128 ≤ (UInt8.ofNat (n % 64 + 128)).toNat ∧
      (UInt8.ofNat (n % 64 + 128)).toNat < 192 := by
    rw [UInt8.toNat_ofNat']
    omega
  simp only [String.utf8EncodeChar, if_neg hone]
  split
  · refine ⟨_, _, rfl, ?_, ?_⟩
    · rw [UInt8.toNat_ofNat']
      omega
    · intro e he
      obtain rfl := List.mem_singleton.mp he
      exact hcont _
  · split
    · refine ⟨_, _, rfl, ?_, ?_⟩
      · rw [UInt8.toNat_ofNat']
        omega
      · intro e he
        simp only [List.mem_cons, List.not_mem_nil, or_false] at he
        rcases he with rfl | rfl <;> exact hcont _
    · refine ⟨_, _, rfl, ?_, ?_⟩
      · rw [UInt8.toNat_ofNat']
        omega
      · intro e he
        simp only [List.mem_cons, List.not_mem_nil, or_false] at he
        rcases he with rfl | rfl | rfl <;> exact hcont _

/-- The bytes `e :: es` of a character `c`. -/
structure IsBytesOf (c e : Char) (es : List Char) : Prop where
  cons : ∀ s, bytewise (c :: s) = e :: (es ++ bytewise s)
  /-- The first byte is an ASCII character exactly if it is the character itself. -/
  first : ∀ d, d.toNat < 128 → (e = d ↔ c = d)
  start : e.toNat < 128 ∨ 192 ≤ e.toNat
  rest : ∀ x ∈ es, 128 ≤ x.toNat ∧ x.toNat < 192

theorem exists_isBytesOf (c : Char) : ∃ e es, IsBytesOf c e es := by
  rcases Nat.lt_or_ge c.toNat 128 with hc | hc
  · exact ⟨c, [], bytewise_cons_of_lt hc, fun _ _ => Iff.rfl, .inl hc, nofun⟩
  · obtain ⟨e, es, hbytes, he, hes⟩ := exists_utf8EncodeChar hc
    rw [← toNat_byteChar] at he
    refine ⟨byteChar e, es.map byteChar, ?_, ?_, .inr he, ?_⟩
    · intro s
      rw [bytewise_cons, hbytes]
      rfl
    · intro d hd
      constructor
      · rintro rfl
        omega
      · rintro rfl
        omega
    · rw [List.forall_mem_map]
      intro x hx
      rw [toNat_byteChar]
      exact hes x hx

theorem IsBytesOf.eq_of_lt {e : Char} {es : List Char} (h : IsBytesOf c e es)
    (hc : c.toNat < 128) : e = c ∧ es = [] := by
  have hnil := h.cons []
  rw [bytewise_cons_of_lt hc, bytewise_nil, List.append_nil] at hnil
  obtain ⟨rfl, rfl⟩ := List.cons.inj hnil
  exact ⟨rfl, rfl⟩

theorem IsBytesOf.wide {e : Char} {es : List Char} (h : IsBytesOf c e es)
    (hc : 128 ≤ c.toNat) : ∀ x ∈ e :: es, 128 ≤ x.toNat := by
  intro x hx
  rcases List.mem_cons.mp hx with rfl | hx
  · by_contra he
    have hce := (h.first x (by omega)).mp rfl
    rw [hce] at hc
    omega
  · exact (h.rest x hx).1

/-- The bytes of one text start with those of another only if the texts do. -/
theorem prefix_of_bytewise {p s r : List Char} (h : bytewise s = bytewise p ++ r) : p <+: s := by
  rw [bytewise_eq_map, bytewise_eq_map, List.map_eq_append_iff] at h
  obtain ⟨front, back, hs, hfront, -⟩ := h
  rw [List.map_inj_right fun _ _ => byteChar_injective.eq_iff.mp] at hfront
  apply List.isPrefix_of_utf8Encode_append_eq_utf8Encode back.toByteArray
  rw [List.utf8Encode, List.utf8Encode, ← List.toByteArray_append, hs, hfront]

theorem afterStart_bytewise (p s : List Char) :
    afterStart (bytewise p) (bytewise s) = (afterStart p s).map bytewise := by
  cases h : afterStart p s with
  | some r =>
    rw [eq_append_of_afterStart h, bytewise_append, afterStart_append]
    rfl
  | none =>
    rw [Option.map_none, Option.eq_none_iff_forall_ne_some]
    intro r hr
    obtain ⟨t, rfl⟩ := prefix_of_bytewise (eq_append_of_afterStart hr)
    rw [afterStart_append] at h
    contradiction

end Encoding

section Ascii

variable {p : Char → Bool} {c e : Char} {s es : List Char}

theorem IsAsciiClass.or {q : Char → Bool} (hp : IsAsciiClass p) (hq : IsAsciiClass q) :
    IsAsciiClass fun c => p c || q c := by
  intro c hc
  simp only [hp c hc, hq c hc, Bool.or_self]

theorem isAsciiClass_isWord : IsAsciiClass isWord := by
  intro c hc
  rw [← Bool.not_eq_true, isWord_iff]
  omega

theorem isAsciiClass_isIdentStart : IsAsciiClass isIdentStart := by
  intro c hc
  have h := isAsciiClass_isWord c hc
  simp only [isWord, Char.isAlphanum, Bool.or_eq_false_iff] at h
  simp only [isIdentStart, Bool.or_eq_false_iff]
  exact ⟨h.1.1, h.2⟩

theorem isAsciiClass_beq {d : Char} (hd : d.toNat < 128) : IsAsciiClass (· == d) := by
  intro c hc
  rw [beq_eq_false_iff_ne]
  rintro rfl
  omega

theorem isAsciiClass_isAsciiBlank : IsAsciiClass isAsciiBlank := by
  have h (d : Char) (hd : d.toNat < 128) : IsAsciiClass (· == d) := isAsciiClass_beq hd
  exact ((((h ' ' (by decide)).or (h '\t' (by decide))).or (h '\n' (by decide))).or
    (h '\x0c' (by decide))).or (h '\r' (by decide))

theorem IsAsciiClass.lt (hp : IsAsciiClass p) (h : p c = true) : c.toNat < 128 := by
  by_contra hc
  rw [hp c (by omega)] at h
  contradiction

/-- The first byte of a character has the properties of ASCII characters that the character has. -/
theorem IsBytesOf.eq_of_isAsciiClass (h : IsBytesOf c e es) (hp : IsAsciiClass p) : p e = p c := by
  rcases Nat.lt_or_ge c.toNat 128 with hc | hc
  · rw [(h.eq_of_lt hc).1]
  · rw [hp c hc, hp e (h.wide hc e List.mem_cons_self)]

theorem bytewise_of_ascii (h : IsAscii s) : bytewise s = s := by
  induction s with
  | nil => rfl
  | cons c s ih =>
    obtain ⟨hc, hs⟩ := isAscii_cons.mp h
    rw [bytewise_cons_of_lt hc, ih hs]

theorem afterStart_bytewise_of_ascii {start : List Char} (h : IsAscii start)
    (s : List Char) : afterStart start (bytewise s) = (afterStart start s).map bytewise := by
  rw [← afterStart_bytewise, bytewise_of_ascii h]

theorem prefix_bytewise_iff_of_ascii (h : IsAscii es) (s : List Char) :
    es <+: bytewise s ↔ es <+: s := by
  have hes := bytewise_of_ascii h
  constructor
  · rintro ⟨r, hr⟩
    apply prefix_of_bytewise (r := r)
    rw [hes, hr]
  · rintro ⟨r, rfl⟩
    rw [bytewise_append, hes]
    exact List.prefix_append es _

theorem head?_bytewise_eq_some_iff {d : Char} (hd : d.toNat < 128) (s : List Char) :
    (bytewise s).head? = some d ↔ s.head? = some d := by
  cases s with
  | nil => simp
  | cons c s =>
    obtain ⟨e, es, h⟩ := exists_isBytesOf c
    rw [h.cons, List.head?_cons, List.head?_cons, Option.some_inj, Option.some_inj, h.first d hd]

theorem IsAsciiClass.takeWhile_bytewise (hp : IsAsciiClass p) (s : List Char) :
    (bytewise s).takeWhile p = s.takeWhile p := by
  induction s with
  | nil => rfl
  | cons c s ih =>
    cases hc : p c with
    | true =>
      rw [bytewise_cons_of_lt (hp.lt hc), List.takeWhile_cons_of_pos hc,
        List.takeWhile_cons_of_pos hc, ih]
    | false =>
      obtain ⟨e, es, h⟩ := exists_isBytesOf c
      have he : p e = false := (h.eq_of_isAsciiClass hp).trans hc
      rw [h.cons, List.takeWhile_cons_of_neg (by simp [he]),
        List.takeWhile_cons_of_neg (by simp [hc])]

theorem IsAsciiClass.dropWhile_bytewise (hp : IsAsciiClass p) (s : List Char) :
    (bytewise s).dropWhile p = bytewise (s.dropWhile p) := by
  induction s with
  | nil => rfl
  | cons c s ih =>
    cases hc : p c with
    | true =>
      rw [bytewise_cons_of_lt (hp.lt hc), List.dropWhile_cons_of_pos hc,
        List.dropWhile_cons_of_pos hc, ih]
    | false =>
      obtain ⟨e, es, h⟩ := exists_isBytesOf c
      have he : p e = false := (h.eq_of_isAsciiClass hp).trans hc
      rw [h.cons, List.dropWhile_cons_of_neg (by simp [he]),
        List.dropWhile_cons_of_neg (by simp [hc]), h.cons]

end Ascii

section Count

variable {c e : Char} {es cs : List Char}

/-- How many bytes the first `n` characters of a text have. -/
def byteCount (cs : List Char) (n : Nat) : Nat :=
  (bytewise (cs.take n)).length

@[simp] theorem byteCount_zero (cs : List Char) : byteCount cs 0 = 0 := rfl

theorem byteCount_length (cs : List Char) : byteCount cs cs.length = (bytewise cs).length := by
  rw [byteCount, List.take_length]

theorem IsBytesOf.byteCount_succ (h : IsBytesOf c e es) (cs : List Char) (n : Nat) :
    byteCount (c :: cs) (n + 1) = es.length + byteCount cs n + 1 := by
  rw [byteCount, List.take_succ_cons, h.cons, List.length_cons, List.length_append, byteCount]

theorem byteCount_succ_of_lt (hc : c.toNat < 128) (cs : List Char) (n : Nat) :
    byteCount (c :: cs) (n + 1) = byteCount cs n + 1 := by
  rw [byteCount, List.take_succ_cons, bytewise_cons_of_lt hc, List.length_cons, byteCount]

theorem map_byteCount_of_lt {d : Char} (hc : c.toNat < 128) (hd : d.toNat < 128) (cs : List Char)
    (n : Option Nat) : (n.map (· + 2)).map (byteCount (c :: d :: cs)) =
      (n.map (byteCount cs)).map (· + 2) := by
  rw [Option.map_map, Option.map_map]
  congr 1
  funext n
  rw [Function.comp_apply, byteCount_succ_of_lt hc, byteCount_succ_of_lt hd]
  rfl

/-- ASCII characters are counted as their bytes are. -/
theorem byteCount_add (hes : IsAscii es) (cs : List Char) (n : Nat) :
    byteCount (es ++ cs) (es.length + n) = es.length + byteCount cs n := by
  rw [byteCount, List.take_length_add_append, bytewise_append, bytewise_of_ascii hes,
    List.length_append, byteCount]

theorem byteCount_left (hes : IsAscii es) (cs : List Char) :
    byteCount (es ++ cs) es.length = es.length :=
  byteCount_add hes cs 0

theorem bytewise_append_of_ascii (hes : IsAscii es) (cs : List Char) :
    bytewise (es ++ cs) = es ++ bytewise cs := by
  rw [bytewise_append, bytewise_of_ascii hes]

/-- The bytes in front of the end of a text are the bytes of the characters there. -/
theorem byteCount_sub_of_suffix {rest : List Char} (h : rest <:+ cs) :
    byteCount cs (cs.length - rest.length) = (bytewise cs).length - (bytewise rest).length := by
  obtain ⟨front, rfl⟩ := h
  rw [List.length_append, Nat.add_sub_cancel, byteCount, List.take_left, bytewise_append,
    List.length_append, Nat.add_sub_cancel]

/-- A text up to an ASCII character. -/
theorem IsAsciiClass.length_takeWhile_not_bytewise {p : Char → Bool} (hp : IsAsciiClass p)
    (cs : List Char) : ((bytewise cs).takeWhile fun c => !p c).length =
      byteCount cs (cs.takeWhile fun c => !p c).length := by
  induction cs with
  | nil => rfl
  | cons c cs ih =>
    obtain ⟨e, es, h⟩ := exists_isBytesOf c
    have he := h.eq_of_isAsciiClass hp
    rw [h.cons]
    cases hc : p c with
    | true => simp [hc, he]
    | false =>
      have hes : ∀ x ∈ es, (!p x) = true := fun x hx => by rw [hp x (h.rest x hx).1]; rfl
      rw [List.takeWhile_cons_of_pos (by simp [hc, he]), List.takeWhile_cons_of_pos (by simp [hc]),
        List.takeWhile_append_of_pos hes, List.length_cons, List.length_append, ih,
        List.length_cons, h.byteCount_succ]

end Count

end Text

end TypedSql
