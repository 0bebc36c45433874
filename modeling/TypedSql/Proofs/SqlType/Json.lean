import TypedSql.Proofs.Json.Record

/-!
# Types that are written and read

A type makes the round trip however deep its arrays and composites are, when the numbers by which
its labels are ordered do (`SqlType.roundTrips`).
-/

namespace TypedSql

open Json

section Plain

theorem BaseType.ofJson?_members (t : BaseType) :
    ofJson? (Json.object t.members).reread = some t := by
  rw [ofJson?, record?_reread]
  · simp [members, List.lookup_cons, string?]
  · exact List.Sublist.refl _
  · decide

theorem EnumType.roundTrips_sortOrders (t : EnumType) (h : ∀ x ∈ t.sortOrders, x.IsLossless) :
    RoundTrips (fun xs => .array (xs.map .single)) (list? single?) t.sortOrders :=
  .list fun x hx => ⟨.single (h x hx), single?_reread (h x hx)⟩

theorem EnumType.roundTrips_labelOids (t : EnumType) :
    RoundTrips (fun oids => .array (oids.map ofUInt32)) (list? uint32?) t.labelOids :=
  .list fun oid _ => ⟨isLossless_ofUInt32 oid, uint32?_ofUInt32 oid⟩

theorem EnumType.ofJson?_members (t : EnumType) (h : ∀ x ∈ t.sortOrders, x.IsLossless) :
    ofJson? (Json.object t.members).reread = some t := by
  rw [ofJson?, record?_reread]
  · simp [members, List.lookup_cons, string?, (t.roundTrips_sortOrders h).read_reread,
      t.roundTrips_labelOids.read_reread]
  · exact List.Sublist.refl _
  · decide

theorem DomainType.ofJson?_members (t : DomainType) :
    ofJson? (Json.object t.members).reread = some t := by
  rw [ofJson?, record?_reread]
  · simp [members, List.lookup_cons, string?, bool?, BaseType.ofJson?_members]
  · exact List.Sublist.refl _
  · decide

theorem UnknownType.ofJson?_members (t : UnknownType) :
    ofJson? (Json.object t.members).reread = some t := by
  rw [ofJson?, record?_reread]
  · simp [members, List.lookup_cons, string?]
  · exact List.Sublist.refl _
  · decide

end Plain

namespace SqlType

variable {x : Single} {form? : Json → Option Form} {depth : Nat}

mutual

/-- The numbers by which the labels inside a type are ordered. -/
def sortOrders : SqlType → List Single
  | .array _ _ element => element.sortOrders
  | .enum t => t.sortOrders
  | .composite _ _ _ columnTypes => sortOrdersOf columnTypes
  | _ => []

def sortOrdersOf : List SqlType → List Single
  | [] => []
  | t :: ts => t.sortOrders ++ sortOrdersOf ts

end

theorem mem_sortOrdersOf {ts : List SqlType} :
    x ∈ sortOrdersOf ts ↔ ∃ t ∈ ts, x ∈ t.sortOrders := by
  induction ts with
  | nil => simp [sortOrdersOf]
  | cons t ts ih => simp [sortOrdersOf, ih]

theorem toJsons_eq_map (ts : List SqlType) : toJsons ts = ts.map toJson := by
  induction ts with
  | nil => rfl
  | cons t ts ih => rw [toJsons, ih, List.map_cons]

/-- Induction over types and the types inside them. -/
theorem induct {P : SqlType → Prop} (base : ∀ t, P (.base t))
    (array : ∀ oid name element, P element → P (.array oid name element))
    (enum : ∀ t, P (.enum t)) (domain : ∀ t, P (.domain t))
    (composite : ∀ oid name columnNames columnTypes, (∀ t ∈ columnTypes, P t) →
      P (.composite oid name columnNames columnTypes))
    (unknown : ∀ t, P (.unknown t)) (void : P .void) (t : SqlType) : P t :=
  @rec P (fun ts => ∀ t ∈ ts, P t) base array enum domain composite unknown void (by simp)
    (fun _ _ ht hts => List.forall_mem_cons.mpr ⟨ht, hts⟩) t

theorem isLossless_toJson (t : SqlType) (h : ∀ x ∈ t.sortOrders, x.IsLossless) :
    t.toJson.IsLossless := by
  induction t using induct with
  | base t => simp [toJson, Form.member, BaseType.members]
  | array oid name element ih => simpa [toJson, Form.member] using ih h
  | enum t =>
    simp [toJson, Form.member, EnumType.members, (t.roundTrips_sortOrders h).isLossless,
      t.roundTrips_labelOids.isLossless]
  | domain t => simp [toJson, Form.member, DomainType.members, BaseType.members]
  | composite oid name columnNames columnTypes ih =>
    have htypes : (Json.array (toJsons columnTypes)).IsLossless := by
      rw [toJsons_eq_map]
      exact .array (List.forall_mem_map.mpr fun t ht =>
        ih t ht fun x hx => h x (mem_sortOrdersOf.mpr ⟨t, ht, hx⟩))
    simp [toJson, Form.member, htypes]
  | unknown t => simp [toJson, Form.member, UnknownType.members]
  | void => simp [toJson, Form.member]

theorem ofJsonInside?_ofNamed (f : Form) : Form.ofJsonInside? (ofNamed f) = some f :=
  Named.ofName?_name f

theorem ofJson?_ofNamed (f : Form) : Form.ofJson? (ofNamed f) = some f :=
  Named.ofName?_name f

/-- The form is read alike outside and inside of other types, so the induction is over both. -/
theorem ofJsonWithin?_toJson (t : SqlType) (h : ∀ x ∈ t.sortOrders, x.IsLossless)
    (hform : ∀ f, form? (ofNamed f) = some f) (hdepth : t.toJson.reread.depth ≤ depth) :
    ofJsonWithin? form? depth t.toJson.reread = some t := by
  obtain ⟨depth, rfl⟩ := exists_eq_of_depth_le hdepth
  induction t using induct generalizing form? depth with
  | base t =>
    rw [toJson, Form.member, ofJsonWithin?, tagged?_reread (by simp [BaseType.members])]
    simp [hform, BaseType.ofJson?_members]
  | array oid name element ih =>
    rw [toJson, reread_object, depth_object_le] at hdepth
    have helement : element.toJson.reread.depth ≤ depth :=
      hdepth.2 ("elem", element.toJson.reread) (by simp)
    obtain ⟨depth, rfl⟩ := exists_eq_of_depth_le helement
    rw [toJson, Form.member, ofJsonWithin?, tagged?_reread (by simp)]
    simp only [reread_ofNamed, hform, Option.map_some, Option.bind_eq_bind, Option.bind_some]
    rw [record?_reread]
    · simp [List.lookup_cons, string?, ih h ofJsonInside?_ofNamed _ helement]
    · exact List.Sublist.refl _
    · decide
  | enum t =>
    rw [toJson, Form.member, ofJsonWithin?, tagged?_reread (by simp [EnumType.members])]
    simp [hform, EnumType.ofJson?_members t h]
  | domain t =>
    rw [toJson, Form.member, ofJsonWithin?, tagged?_reread (by simp [DomainType.members])]
    simp [hform, DomainType.ofJson?_members]
  | composite oid name columnNames columnTypes ih =>
    rw [toJson, reread_object, depth_object_le] at hdepth
    have hcolumns : (Json.array (columnTypes.map toJson)).reread.depth ≤ depth := by
      rw [← toJsons_eq_map]
      exact hdepth.2 ("column_types", (Json.array (toJsons columnTypes)).reread) (by simp)
    rw [reread_array, depth_array_le] at hcolumns
    have htypes : RoundTrips (fun ts => .array (ts.map toJson))
        (list? (ofJsonWithin? Form.ofJsonInside? depth)) columnTypes := by
      refine .list fun t ht => ?_
      have horders : ∀ x ∈ t.sortOrders, x.IsLossless := fun x hx =>
        h x (mem_sortOrdersOf.mpr ⟨t, ht, hx⟩)
      have htype : t.toJson.reread.depth ≤ depth := by
        have := hcolumns.2 _ (List.mem_map_of_mem (List.mem_map_of_mem ht))
        omega
      obtain ⟨depth, rfl⟩ := exists_eq_of_depth_le htype
      exact ⟨t.isLossless_toJson horders, ih t ht horders ofJsonInside?_ofNamed _ htype⟩
    rw [toJson, toJsons_eq_map, Form.member, ofJsonWithin?, tagged?_reread (by simp)]
    simp only [reread_ofNamed, hform, Option.map_some, Option.bind_eq_bind, Option.bind_some]
    rw [record?_reread]
    · simp [List.lookup_cons, string?, htypes.read_reread]
    · exact List.Sublist.refl _
    · decide
  | unknown t =>
    rw [toJson, Form.member, ofJsonWithin?, tagged?_reread (by simp [UnknownType.members])]
    simp [hform, UnknownType.ofJson?_members]
  | void =>
    rw [toJson, Form.member, ofJsonWithin?, tagged?_reread (by simp)]
    simp only [reread_ofNamed, hform, Option.map_some, Option.bind_eq_bind, Option.bind_some]
    rw [record?_reread]
    · rfl
    · exact List.Sublist.refl _
    · exact List.nodup_nil

theorem roundTrips (t : SqlType) (h : ∀ x ∈ t.sortOrders, x.IsLossless) :
    RoundTrips toJson ofJson? t where
  isLossless := t.isLossless_toJson h
  read_reread := by
    rw [ofJson?, if_pos (t.isLossless_toJson h).isReadable_reread]
    exact ofJsonWithin?_toJson t h ofJson?_ofNamed (Nat.le_refl _)

end SqlType

theorem Column.roundTrips (c : Column) (h : ∀ x ∈ c.type.sortOrders, x.IsLossless) :
    RoundTrips toJson ofJson? c where
  isLossless := by simp [toJson, (c.type.roundTrips h).isLossless]
  read_reread := by
    rw [toJson, ofJson?, record?_reread]
    · simp [List.lookup_cons, string?, bool?, (c.type.roundTrips h).read_reread]
    · exact List.Sublist.refl _
    · decide

end TypedSql
