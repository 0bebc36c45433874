import TypedSql.Json.Record
import TypedSql.Proofs.Json.Scalar

/-!
# Layouts of JSON

Both layouts of a value are one recursion with a style: what stands in front of an entry and
behind a colon, which is blank. A value is lossless when its integers fit into 64 bits and its
single-precision numbers are read back from their texts. Reading may give such a number in another
form, so a value is read back up to the form of its numbers (`Json.reread`).
-/

namespace TypedSql

/-- The number is read back from its text. An infinite number has none. -/
def Single.IsLossless (x : Single) : Prop :=
  (Json.read? (Json.single x).text).bind Json.single? = some x

instance : DecidablePred Single.IsLossless :=
  fun x => inferInstanceAs (Decidable (_ = some x))

namespace Json

/-- The numbers of a value are read back from their texts. -/
inductive IsLossless : Json → Prop
  | null : IsLossless .null
  | bool (b : Bool) : IsLossless (.bool b)
  | int {n : Int} (low : -9223372036854775808 ≤ n) (high : n ≤ 18446744073709551615) :
    IsLossless (.int n)
  | single {x : Single} (h : x.IsLossless) : IsLossless (.single x)
  | string (s : String) : IsLossless (.string s)
  | array {items : List Json} (h : ∀ item ∈ items, IsLossless item) : IsLossless (.array items)
  | object {members : List (String × Json)} (h : ∀ member ∈ members, IsLossless member.2) :
    IsLossless (.object members)

variable {items : List Json} {members : List (String × Json)}

section Reread

mutual

/-- The value with its single-precision numbers in the form in which their texts are read. -/
def reread : Json → Json
  | .single x => (read? (Json.single x).text).getD .null
  | .array items => .array (rereadItems items)
  | .object members => .object (rereadMembers members)
  | j => j

def rereadItems : List Json → List Json
  | [] => []
  | item :: items => item.reread :: rereadItems items

def rereadMembers : List (String × Json) → List (String × Json)
  | [] => []
  | (key, value) :: members => (key, value.reread) :: rereadMembers members

end

theorem reread_array : (Json.array items).reread = .array (items.map reread) := by
  have h : rereadItems items = items.map reread := by
    induction items with
    | nil => rfl
    | cons item items ih => rw [rereadItems, ih, List.map_cons]
  rw [reread, h]

theorem reread_object :
    (Json.object members).reread = .object (members.map (Prod.map id reread)) := by
  have h : rereadMembers members = members.map (Prod.map id reread) := by
    induction members with
    | nil => rfl
    | cons member members ih => rw [rereadMembers, ih, List.map_cons]; rfl
  rw [reread, h]

end Reread

section Parts

theorem exists_eq_of_depth_le {j : Json} {depth : Nat} (h : j.depth ≤ depth) :
    ∃ inner, depth = inner + 1 := by
  have hpos : 0 < j.depth := by cases j <;> simp [Json.depth]
  exact Nat.exists_eq_add_one_of_ne_zero (by omega)

theorem depth_array_le {depth : Nat} :
    (Json.array items).depth ≤ depth ↔ depth ≠ 0 ∧ ∀ item ∈ items, item.depth ≤ depth - 1 := by
  have h {depth : Nat} : depthItems items ≤ depth ↔ ∀ item ∈ items, item.depth ≤ depth := by
    induction items with
    | nil => simp [depthItems]
    | cons item items ih => rw [depthItems, Nat.max_le, ih, List.forall_mem_cons]
  rw [Json.depth, ← h]
  omega

theorem depth_object_le {depth : Nat} :
    (Json.object members).depth ≤ depth ↔
      depth ≠ 0 ∧ ∀ member ∈ members, member.2.depth ≤ depth - 1 := by
  have h {depth : Nat} :
      depthMembers members ≤ depth ↔ ∀ member ∈ members, member.2.depth ≤ depth := by
    induction members with
    | nil => simp [depthMembers]
    | cons member members ih => rw [depthMembers, Nat.max_le, ih, List.forall_mem_cons]
  rw [Json.depth, ← h]
  omega

theorem isReadable_array : (Json.array items).isReadable ↔ ∀ item ∈ items, item.isReadable := by
  rw [isReadable]
  induction items with
  | nil => simp [areItemsReadable]
  | cons item items ih => rw [areItemsReadable, Bool.and_eq_true, ih, List.forall_mem_cons]

theorem isReadable_object :
    (Json.object members).isReadable ↔ ∀ member ∈ members, member.2.isReadable := by
  rw [isReadable]
  induction members with
  | nil => simp [areMembersReadable]
  | cons member members ih => rw [areMembersReadable, Bool.and_eq_true, ih, List.forall_mem_cons]

end Parts

section Nesting

mutual

/-- How many arrays and objects stand inside each other, at most. -/
def nesting : Json → Nat
  | .array items => nestingItems items + 1
  | .object members => nestingMembers members + 1
  | _ => 0

def nestingItems : List Json → Nat
  | [] => 0
  | item :: items => max item.nesting (nestingItems items)

def nestingMembers : List (String × Json) → Nat
  | [] => 0
  | (_, value) :: members => max value.nesting (nestingMembers members)

end

theorem nesting_array_le {room : Nat} :
    (Json.array items).nesting ≤ room ↔
      room ≠ 0 ∧ ∀ item ∈ items, item.nesting ≤ room - 1 := by
  have h {room : Nat} : nestingItems items ≤ room ↔ ∀ item ∈ items, item.nesting ≤ room := by
    induction items with
    | nil => simp [nestingItems]
    | cons item items ih => rw [nestingItems, Nat.max_le, ih, List.forall_mem_cons]
  rw [nesting, ← h]
  omega

theorem nesting_object_le {room : Nat} :
    (Json.object members).nesting ≤ room ↔
      room ≠ 0 ∧ ∀ member ∈ members, member.2.nesting ≤ room - 1 := by
  have h {room : Nat} :
      nestingMembers members ≤ room ↔ ∀ member ∈ members, member.2.nesting ≤ room := by
    induction members with
    | nil => simp [nestingMembers]
    | cons member members ih => rw [nestingMembers, Nat.max_le, ih, List.forall_mem_cons]
  rw [nesting, ← h]
  omega

end Nesting

/-- What a layout puts between the parts of a value. -/
structure Style where
  /-- What stands in front of an entry that is so many levels deep. -/
  gap : Nat → List Char
  /-- What stands behind a colon. -/
  space : List Char
  isBlank_gap : ∀ depth, ∀ c ∈ gap depth, isBlank c
  isBlank_space : ∀ c ∈ space, isBlank c

namespace Style

/-- Nothing between the parts. -/
def compact : Style where
  gap _ := []
  space := []
  isBlank_gap := by simp
  isBlank_space := by simp

/-- A line for each entry. -/
def indented : Style where
  gap := newLine
  space := [' ']
  isBlank_gap := by simp [newLine, isBlank]
  isBlank_space := by simp [isBlank]

end Style

section Layout

mutual

/-- The layout of a value that stands `depth` levels deep. -/
def layout (style : Style) (depth : Nat) : Json → List Char
  | .array [] => ['[', ']']
  | .array (item :: items) =>
    '[' :: style.gap (depth + 1) ++ layout style (depth + 1) item ++ layoutItems style depth items
  | .object [] => ['\x7b', '\x7d']
  | .object ((key, value) :: members) =>
    '\x7b' :: style.gap (depth + 1) ++ writeString key ++ ':' :: style.space ++
      layout style (depth + 1) value ++ layoutMembers style depth members
  | scalar => writeScalar scalar

/-- The items behind the first, and the end of the array. -/
def layoutItems (style : Style) (depth : Nat) : List Json → List Char
  | [] => style.gap depth ++ [']']
  | item :: items =>
    ',' :: style.gap (depth + 1) ++ layout style (depth + 1) item ++ layoutItems style depth items

/-- The members behind the first, and the end of the object. -/
def layoutMembers (style : Style) (depth : Nat) : List (String × Json) → List Char
  | [] => style.gap depth ++ ['\x7d']
  | (key, value) :: members =>
    ',' :: style.gap (depth + 1) ++ writeString key ++ ':' :: style.space ++
      layout style (depth + 1) value ++ layoutMembers style depth members

end

mutual

theorem compact_eq_layout (depth : Nat) : (j : Json) → j.compact = layout .compact depth j
  | .array [] => rfl
  | .array (item :: items) => by
    simp [compact, layout, Style.compact, compact_eq_layout (depth + 1) item,
      compactItems_eq_layoutItems depth items]
  | .object [] => rfl
  | .object ((key, value) :: members) => by
    simp [compact, layout, Style.compact, compact_eq_layout (depth + 1) value,
      compactMembers_eq_layoutMembers depth members]
  | .null | .bool _ | .int _ | .single _ | .double _ | .string _ | .unreadable => rfl

theorem compactItems_eq_layoutItems (depth : Nat) :
    (items : List Json) → compactItems items = layoutItems .compact depth items
  | [] => rfl
  | item :: items => by
    simp [compactItems, layoutItems, Style.compact, compact_eq_layout (depth + 1) item,
      compactItems_eq_layoutItems depth items]

theorem compactMembers_eq_layoutMembers (depth : Nat) :
    (members : List (String × Json)) → compactMembers members = layoutMembers .compact depth members
  | [] => rfl
  | (key, value) :: members => by
    simp [compactMembers, layoutMembers, Style.compact, compact_eq_layout (depth + 1) value,
      compactMembers_eq_layoutMembers depth members]

end

mutual

theorem indented_eq_layout (depth : Nat) : (j : Json) → j.indented depth = layout .indented depth j
  | .array [] => rfl
  | .array (item :: items) => by
    simp [indented, layout, Style.indented, indented_eq_layout (depth + 1) item,
      indentedItems_eq_layoutItems depth items]
  | .object [] => rfl
  | .object ((key, value) :: members) => by
    simp [indented, layout, Style.indented, indented_eq_layout (depth + 1) value,
      indentedMembers_eq_layoutMembers depth members]
  | .null | .bool _ | .int _ | .single _ | .double _ | .string _ | .unreadable => rfl

theorem indentedItems_eq_layoutItems (depth : Nat) :
    (items : List Json) → indentedItems depth items = layoutItems .indented depth items
  | [] => rfl
  | item :: items => by
    simp [indentedItems, layoutItems, Style.indented, indented_eq_layout (depth + 1) item,
      indentedItems_eq_layoutItems depth items]

theorem indentedMembers_eq_layoutMembers (depth : Nat) :
    (members : List (String × Json)) →
      indentedMembers depth members = layoutMembers .indented depth members
  | [] => rfl
  | (key, value) :: members => by
    simp [indentedMembers, layoutMembers, Style.indented, indented_eq_layout (depth + 1) value,
      indentedMembers_eq_layoutMembers depth members]

end

end Layout

end Json

end TypedSql
