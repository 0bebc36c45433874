import TypedSql.Text.Numeral

/-!
# Numbers that are written and read

The decimal digits of a number are read as this number.
-/

namespace TypedSql

namespace Text

variable {n high : Nat}

theorem toList_toString (n : Nat) : (toString n).toList = Nat.toDigits 10 n := by
  change n.repr.toList = _
  rw [Nat.repr_eq_ofList_toDigits, String.toList_ofList]

theorem isDigit_of_mem_toDigits {c : Char} (h : c ∈ Nat.toDigits 10 n) : c.isDigit = true :=
  Nat.isDigit_of_mem_toDigits (by decide) (by decide) h

theorem toDigits_ne_nil (n : Nat) : Nat.toDigits 10 n ≠ [] :=
  List.ne_nil_of_length_pos Nat.length_toDigits_pos

@[simp] theorem digitsValue_toDigits (n : Nat) : digitsValue (Nat.toDigits 10 n) = n :=
  Nat.ofDigitChars_toDigits (by decide) (by decide)

@[simp] theorem digits?_toDigits (n : Nat) : digits? (Nat.toDigits 10 n) = some n := by
  have hd : (Nat.toDigits 10 n).all Char.isDigit = true :=
    List.all_eq_true.mpr fun _ hc => isDigit_of_mem_toDigits hc
  simp [digits?, hd]

theorem natural?_toDigits (h : n ≤ high) : natural? high (Nat.toDigits 10 n) = some n := by
  have hs : ∀ rest, Nat.toDigits 10 n ≠ '+' :: rest := by
    intro rest hr
    have hc : '+'.isDigit = true := isDigit_of_mem_toDigits (hr ▸ List.mem_cons_self)
    exact absurd hc (by decide)
  rw [natural?.eq_2 _ _ hs, digits?_toDigits]
  simp [h]

end Text

end TypedSql
