import TypedSql.Settings
import TypedSql.Text.Blank

/-!
# Namespaces of placeholders

The namespaces of valid settings are the texts of one or more word characters, whatever the other
settings are (`Settings.isNamespace_iff`). A word character is an ASCII letter, a digit or an
underscore, and so never one of the characters that end a fragment. An identifier is such a text
too, but it does not start with a digit (`Text.IsIdent`).
-/

namespace TypedSql

namespace Text

theorem isUpper_iff (c : Char) : c.isUpper = true ↔ 65 ≤ c.toNat ∧ c.toNat ≤ 90 :=
  decide_eq_true_iff

theorem isLower_iff (c : Char) : c.isLower = true ↔ 97 ≤ c.toNat ∧ c.toNat ≤ 122 := by
  have h : c.isLower = (decide (97 ≤ c.val) && decide (c.val ≤ 122)) := rfl
  rw [h, Bool.and_eq_true, decide_eq_true_iff, decide_eq_true_iff]
  exact Iff.rfl

/-- The characters of words by their codes. -/
theorem isWord_iff (c : Char) :
    isWord c = true ↔ (48 ≤ c.toNat ∧ c.toNat ≤ 57) ∨ (65 ≤ c.toNat ∧ c.toNat ≤ 90) ∨
      c.toNat = 95 ∨ (97 ≤ c.toNat ∧ c.toNat ≤ 122) := by
  have hword : isWord c = (c.isUpper || c.isLower || c.isDigit || c == '_') := rfl
  have hunder : c = '_' ↔ c.toNat = 95 := Char.toNat_inj.symm
  have hdigit : c.isDigit = true ↔ 48 ≤ c.toNat ∧ c.toNat ≤ 57 := Char.isDigit_iff_toNat
  rw [hword, Bool.or_eq_true, Bool.or_eq_true, Bool.or_eq_true, isUpper_iff, isLower_iff, hdigit,
    beq_iff_eq, hunder]
  omega

theorem isWord_of_isDigit {c : Char} (h : c.isDigit = true) : isWord c = true :=
  (isWord_iff c).mpr (.inl (Char.isDigit_iff_toNat.mp h))

theorem isIdentStart_of_isDigit {c : Char} (h : c.isDigit = true) : isIdentStart c = false := by
  have hunder : c = '_' ↔ c.toNat = 95 := Char.toNat_inj.symm
  have hstart : isIdentStart c = (c.isUpper || c.isLower || c == '_') := rfl
  have hdigit : 48 ≤ c.toNat ∧ c.toNat ≤ 57 := Char.isDigit_iff_toNat.mp h
  rw [← Bool.not_eq_true, hstart, Bool.or_eq_true, Bool.or_eq_true, isUpper_iff, isLower_iff,
    beq_iff_eq, hunder]
  omega

theorem isWord_of_isIdentStart {c : Char} (h : isIdentStart c = true) : isWord c = true := by
  have hword : isWord c = (c.isAlpha || c.isDigit || c == '_') := rfl
  rw [isIdentStart, Bool.or_eq_true] at h
  rw [hword, Bool.or_eq_true, Bool.or_eq_true]
  rcases h with h | h
  · exact .inl (.inl h)
  · exact .inr h

theorem isBlank_of_isWord {c : Char} (h : isWord c = true) : isBlank c = false := by
  rw [isWord_iff] at h
  simp [isBlank]
  omega

/-- A name of ASCII letters, digits and underscores that does not start with a digit. -/
def IsIdent (name : List Char) : Prop :=
  ∃ c cs, name = c :: cs ∧ isIdentStart c = true ∧ ∀ d ∈ cs, isWord d = true

instance : DecidablePred IsIdent
  | [] => isFalse (by rintro ⟨c, cs, h, -⟩; contradiction)
  | c :: cs =>
    decidable_of_iff (isIdentStart c = true ∧ cs.all isWord = true) <| by
      rw [List.all_eq_true]
      exact ⟨fun h => ⟨c, cs, rfl, h⟩, by rintro ⟨_, _, ⟨⟩, h⟩; exact h⟩

theorem IsIdent.isWord {name : List Char} (h : IsIdent name) {c : Char} (hc : c ∈ name) :
    Text.isWord c = true := by
  obtain ⟨d, cs, rfl, hd, hcs⟩ := h
  rcases List.mem_cons.mp hc with rfl | hc
  · exact isWord_of_isIdentStart hd
  · exact hcs c hc

end Text

namespace Settings

/-- A text that can be the namespace of placeholders. -/
def IsNamespace (ns : String) : Prop :=
  ns.toList ≠ [] ∧ ∀ c ∈ ns.toList, isNamespaceChar c = true

instance (ns : String) : Decidable (IsNamespace ns) :=
  decidable_of_iff (ns.toList.isEmpty = false ∧ ns.toList.all isNamespaceChar = true)
    (by simp [IsNamespace])

theorem isNamespace_iff (ns : String) :
    IsNamespace ns ↔ ∃ s : Settings, s.ns = ns ∧ s.validated = .ok s := by
  constructor
  · rintro ⟨hne, hchars⟩
    refine ⟨{ default with ns := ns }, rfl, (validated_eq_ok_iff _ _).mpr ⟨rfl, hne, hchars, ?_⟩⟩
    exact Nat.succ_pos 4999
  · rintro ⟨s, rfl, hs⟩
    obtain ⟨-, hne, hchars, -⟩ := (validated_eq_ok_iff _ _).mp hs
    exact ⟨hne, hchars⟩

theorem IsNamespace.isWord {ns : String} (h : IsNamespace ns) {c : Char} (hc : c ∈ ns.toList) :
    Text.isWord c = true :=
  h.2 c hc

end Settings

end TypedSql
