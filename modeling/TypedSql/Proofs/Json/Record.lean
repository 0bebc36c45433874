import TypedSql.Proofs.Json.Reading
import TypedSql.TypedQuery.Json

/-!
# Records that are written and read

A record that is written as an object is found again by the names of its fields, with the fields
that were left out missing. What is lossless and read back as a value is also read back from its
text (`RoundTrips.read?_text`).
-/

namespace TypedSql

namespace Json

section Fields

variable {α : Type} {names : List String} {fields : List (String × Json)}

theorem length_valuesOf (name : String) (fields : List (String × Json)) :
    (valuesOf name fields).length = (fields.map Prod.fst).count name := by
  induction fields with
  | nil => rfl
  | cons field fields ih =>
    obtain ⟨key, value⟩ := field
    rw [valuesOf] at ih ⊢
    by_cases h : key = name <;> simp [h, ih]

/-- The fields of a record are found when they stand in order; some may be left out. -/
theorem record?_object (h : (fields.map Prod.fst).Sublist names) (hnames : names.Nodup) :
    record? names (.object fields) = some ⟨false, fields⟩ := by
  have hkeys : (fields.map Prod.fst).Nodup := hnames.sublist h
  have hcount : names.all fun name => (valuesOf name fields).length ≤ 1 := by
    simp [length_valuesOf, List.nodup_iff_count.mp hkeys]
  rw [record?, if_pos hcount, List.filter_eq_self.mpr]
  intro field hfield
  simpa using h.subset (List.mem_map_of_mem hfield)

theorem keys_map_reread (fields : List (String × Json)) :
    (fields.map (Prod.map id reread)).map Prod.fst = fields.map Prod.fst := by
  simp [Function.comp_def]

theorem lookup_map_reread (name : String) (fields : List (String × Json)) :
    (fields.map (Prod.map id reread)).lookup name = (fields.lookup name).map reread := by
  induction fields with
  | nil => rfl
  | cons field fields ih =>
    obtain ⟨key, value⟩ := field
    rw [List.map_cons, Prod.map_apply, List.lookup_cons, List.lookup_cons, ih]
    cases h : name == key <;> simp [h]

/-- The record with these fields as they are read. -/
def reading (fields : List (String × Json)) : Record :=
  ⟨false, fields.map (Prod.map id reread)⟩

theorem record?_reread (h : (fields.map Prod.fst).Sublist names) (hnames : names.Nodup) :
    record? names (Json.object fields).reread = some (reading fields) := by
  rw [reread_object, record?_object (by rwa [keys_map_reread]) hnames, reading]

/-- A tagged record is found behind its tag. -/
theorem tagged?_reread {key : String} {readTag : Json → Option α} {tag : Json}
    (h : key ∉ fields.map Prod.fst) :
    tagged? key readTag (Json.object ((key, tag) :: fields)).reread =
      (readTag tag.reread).map fun a => (a, (Json.object fields).reread) := by
  have hnone : valuesOf key (fields.map (Prod.map id reread)) = [] := by
    rw [← List.length_eq_zero_iff, length_valuesOf, keys_map_reread,
      List.count_eq_zero_of_not_mem h]
  have hvalues : valuesOf key ((key, tag.reread) :: fields.map (Prod.map id reread)) =
      [tag.reread] := by
    rw [valuesOf] at hnone ⊢
    simp [hnone]
  have hfilter : ((fields.map (Prod.map id reread)).filter fun field => field.1 != key) =
      fields.map (Prod.map id reread) := by
    refine List.filter_eq_self.mpr fun field hfield => bne_iff_ne.mpr ?_
    rintro rfl
    exact h (keys_map_reread fields ▸ List.mem_map_of_mem hfield)
  simp only [reread_object, List.map_cons, Prod.map_apply, id, tagged?, hvalues]
  rw [List.filter_cons_of_neg (by simp), hfilter]

variable (read : Json → Option α) (name : String) (fields)

@[simp] theorem required_reading :
    (reading fields).required name read = (fields.lookup name).bind fun j => read j.reread := by
  rw [Record.required, reading, lookup_map_reread]
  cases fields.lookup name <;> rfl

@[simp] theorem defaulted_reading (default : α) :
    (reading fields).defaulted name default read =
      (fields.lookup name).elim (some default) fun j => read j.reread := by
  rw [Record.defaulted, reading, lookup_map_reread]
  cases fields.lookup name <;> rfl

@[simp] theorem omittable_reading :
    (reading fields).omittable name read =
      (fields.lookup name).elim (some none) fun j => Record.orNull read j.reread :=
  defaulted_reading ..

@[simp] theorem optional_reading :
    (reading fields).optional name read =
      (fields.lookup name).elim (some none) fun j => Record.orNull read j.reread :=
  defaulted_reading ..

end Fields

section Values

variable {α : Type} {x : Single} {j : Json}

@[simp] theorem reread_bool (b : Bool) : (Json.bool b).reread = .bool b := rfl

@[simp] theorem reread_int (n : Int) : (Json.int n).reread = .int n := rfl

@[simp] theorem reread_string (s : String) : (Json.string s).reread = .string s := rfl

@[simp] theorem reread_ofUInt32 (n : UInt32) : (ofUInt32 n).reread = ofUInt32 n := rfl

@[simp] theorem reread_ofNamed [Named α] (a : α) : (ofNamed a).reread = ofNamed a := rfl

@[simp] theorem namedInTagged?_ofNamed [Named α] (a : α) : namedInTagged? (ofNamed a) = some a :=
  named?_ofNamed a

@[simp] theorem int16?_ofInt16 (n : Int16) : (ofInt16 n).reread.int16? = some n := by
  have hlow := n.le_toInt
  have hhigh := n.toInt_lt
  have h : -32768 ≤ n.toInt ∧ n.toInt ≤ 32767 := by omega
  simp [ofInt16, int16?, intIn?, h]

@[simp] theorem int32?_ofInt32 (n : Int32) : (ofInt32 n).reread.int32? = some n := by
  have hlow := n.le_toInt
  have hhigh := n.toInt_lt
  have h : -2147483648 ≤ n.toInt ∧ n.toInt ≤ 2147483647 := by omega
  simp [ofInt32, int32?, intIn?, h]

theorem count?_int {n : Nat} (h : n < UInt64.size) : (Json.int n).count? = some n := by
  have h : (0 : Int) ≤ n ∧ (n : Int) ≤ 18446744073709551615 := by
    rw [UInt64.size] at h
    omega
  simp [count?, intIn?, h]

theorem single?_reread (h : x.IsLossless) : (Json.single x).reread.single? = some x := by
  obtain ⟨j, hj, hx⟩ := Option.bind_eq_some_iff.mp h
  rw [reread, hj, Option.getD_some, hx]

theorem IsLossless.isReadable_reread (h : j.IsLossless) : j.reread.isReadable := by
  induction h with
  | null | bool | int | string => rfl
  | @single x h =>
    have hx := single?_reread h
    cases hj : (Json.single x).reread <;> rw [hj] at hx <;> first | rfl | cases hx
  | array h ih =>
    rw [reread_array, isReadable_array]
    exact List.forall_mem_map.mpr ih
  | object h ih =>
    rw [reread_object, isReadable_object]
    exact List.forall_mem_map.mpr ih

end Values

section Lossless

variable {α : Type} {members members' : List (String × Json)} {key : String} {value : Json}

attribute [simp] IsLossless.null IsLossless.bool IsLossless.string

theorem isLossless_int_of_lt {n : Nat} (h : n < UInt64.size) : IsLossless (.int n) := by
  rw [UInt64.size] at h
  exact .int (by omega) (by omega)

@[simp] theorem isLossless_ofUInt32 (n : UInt32) : IsLossless (ofUInt32 n) := by
  have := n.toNat_lt
  exact .int (by omega) (by omega)

@[simp] theorem isLossless_ofInt16 (n : Int16) : IsLossless (ofInt16 n) := by
  have := n.le_toInt
  have := n.toInt_lt
  exact .int (by omega) (by omega)

@[simp] theorem isLossless_ofInt32 (n : Int32) : IsLossless (ofInt32 n) := by
  have := n.le_toInt
  have := n.toInt_lt
  exact .int (by omega) (by omega)

@[simp] theorem isLossless_ofNamed [Named α] (a : α) : IsLossless (ofNamed a) :=
  .string _

@[simp] theorem isLossless_ofStrings (texts : List String) : IsLossless (ofStrings texts) :=
  .array (List.forall_mem_map.mpr fun _ _ => .string _)

/-- The values of all members are lossless. -/
def AreLossless (members : List (String × Json)) : Prop :=
  ∀ member ∈ members, member.2.IsLossless

@[simp] theorem isLossless_object : IsLossless (.object members) ↔ AreLossless members :=
  ⟨fun h => by cases h; assumption, .object⟩

@[simp] theorem areLossless_nil : AreLossless [] := nofun

@[simp] theorem areLossless_cons :
    AreLossless ((key, value) :: members) ↔ value.IsLossless ∧ AreLossless members :=
  List.forall_mem_cons

@[simp] theorem areLossless_append :
    AreLossless (members ++ members') ↔ AreLossless members ∧ AreLossless members' :=
  List.forall_mem_append

end Lossless

/-- The value is written without loss and read as what it was. -/
structure RoundTrips {α : Type} (write : α → Json) (read : Json → Option α) (a : α) : Prop where
  isLossless : (write a).IsLossless
  read_reread : read (write a).reread = some a

namespace RoundTrips

variable {α : Type} {write : α → Json} {read : Json → Option α} {a : α}

/-- What makes a round trip as a value also makes one as a text. -/
theorem read?_text (h : RoundTrips write read a) (hnesting : (write a).nesting ≤ maxDepth) :
    (read? (write a).text).bind read = some a := by
  rw [Json.read?_text h.isLossless hnesting, Option.bind_some, h.read_reread]

theorem read?_indentedText (h : RoundTrips write read a)
    (hnesting : (write a).nesting ≤ maxDepth) :
    (read? (write a).indentedText).bind read = some a := by
  rw [Json.read?_indentedText h.isLossless hnesting, Option.bind_some, h.read_reread]

theorem list {as : List α} (h : ∀ a ∈ as, RoundTrips write read a) :
    RoundTrips (fun as => .array (as.map write)) (list? read) as where
  isLossless := .array (List.forall_mem_map.mpr fun a ha => (h a ha).isLossless)
  read_reread := by
    simp only [reread_array, list?]
    induction as with
    | nil => rfl
    | cons a as ih =>
      obtain ⟨ha, has⟩ := List.forall_mem_cons.mp h
      rw [List.map_cons, List.map_cons, List.mapM_cons, ha.read_reread, ih has]
      rfl

/-- A value that is null when there is none. -/
theorem orNull {o : Option α} (hnull : ∀ a, (write a).reread ≠ .null)
    (h : ∀ a ∈ o, RoundTrips write read a) :
    RoundTrips (ofOption write) (Record.orNull read) o := by
  cases o with
  | none => exact ⟨.null, rfl⟩
  | some a =>
    have ha := h a rfl
    refine ⟨ha.isLossless, ?_⟩
    rw [ofOption, Record.orNull.eq_2 _ _ (hnull a), ha.read_reread]
    rfl

end RoundTrips

@[simp] theorem list?_string?_ofStrings (texts : List String) :
    list? string? (ofStrings texts).reread = some texts :=
  (RoundTrips.list fun s _ => ⟨.string s, rfl⟩).read_reread

section Omitted

variable {name key : String}

@[simp] theorem lookup_memberOfText (text : Option String) :
    (memberOfText key text).lookup name = if name = key then text.map .string else none := by
  cases text <;> by_cases h : name = key <;>
    simp [memberOfText, h, List.lookup_cons, beq_eq_false_iff_ne.mpr]

@[simp] theorem lookup_memberOfLines (lines : List String) :
    (memberOfLines key lines).lookup name =
      if name = key then if lines = [] then none else some (ofStrings lines) else none := by
  cases lines <;> by_cases h : name = key <;>
    simp [memberOfLines, h, List.lookup_cons, beq_eq_false_iff_ne.mpr]

theorem keys_memberOfText (key : String) (text : Option String) :
    ((memberOfText key text).map Prod.fst).Sublist [key] := by
  cases text <;> simp [memberOfText]

theorem keys_memberOfLines (key : String) (lines : List String) :
    ((memberOfLines key lines).map Prod.fst).Sublist [key] := by
  cases lines <;> simp [memberOfLines]

@[simp] theorem areLossless_memberOfText (text : Option String) :
    AreLossless (memberOfText key text) := by
  cases text <;> simp [memberOfText]

@[simp] theorem areLossless_memberOfLines (lines : List String) :
    AreLossless (memberOfLines key lines) := by
  cases lines <;> simp [memberOfLines]

/-- A text that was left out is missing. -/
@[simp] theorem elim_text (text : Option String) :
    text.elim (some none) ((fun j => Record.orNull string? j.reread) ∘ Json.string) =
      some text := by
  cases text <;> rfl

/-- Lines that were left out are no lines. -/
@[simp] theorem elim_lines (lines : List String) :
    (if lines = [] then none else some (ofStrings lines)).elim (some [])
      (fun j => list? string? j.reread) = some lines := by
  cases lines with
  | nil => rfl
  | cons line lines => exact list?_string?_ofStrings _

end Omitted

end Json

end TypedSql
