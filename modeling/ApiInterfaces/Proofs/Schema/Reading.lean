import ApiInterfaces.Schema.Reading
import Mathlib.Data.List.Nodup
import Mathlib.Data.Option.Basic
import Mathlib.Logic.Relation

/-!
What a shape is read from. The order of a schema's members, members under keys that mean nothing
in a schema, and a type that is written as a list with one name make no difference, at any depth,
whether or not the schema is readable.
-/

namespace ApiInterfaces

namespace Keyed

variable {κ α : Type} [DecidableEq κ]

theorem get?_eq_some_iff {key : κ} {value : α} {entries : List (κ × α)}
    (h : (keys entries).Nodup) : get? key entries = some value ↔ (key, value) ∈ entries :=
  ⟨mem_of_get?_eq_some, get?_of_mem h⟩

/-- The order of entries under distinct keys does not matter to a look-up. -/
theorem get?_eq_of_perm {entries others : List (κ × α)} (h : entries.Perm others)
    (hkeys : (keys entries).Nodup) (key : κ) : get? key entries = get? key others := by
  have hkeys' : (keys others).Nodup := (h.map Prod.fst).nodup_iff.mp hkeys
  ext value
  rw [get?_eq_some_iff hkeys, get?_eq_some_iff hkeys', h.mem_iff]

theorem get?_insert_of_ne {key other : κ} (h : other ≠ key) (value : α)
    (before after : List (κ × α)) :
    get? other (before ++ (key, value) :: after) = get? other (before ++ after) := by
  induction before with
  | nil => simp [get?, h.symm]
  | cons entry rest ih =>
      obtain ⟨k, v⟩ := entry
      simp only [List.cons_append, get?, ih]

/-- Of two lists that differ in the value under one key, a look-up finds the same, or the two
values. -/
theorem get?_replace (key : κ) (value other : α) (before after : List (κ × α)) (sought : κ) :
    get? sought (before ++ (key, value) :: after) = get? sought (before ++ (key, other) :: after) ∨
      sought = key ∧ get? sought (before ++ (key, value) :: after) = some value ∧
        get? sought (before ++ (key, other) :: after) = some other := by
  induction before with
  | nil =>
      by_cases hkey : key = sought
      · exact .inr ⟨hkey.symm, by simp [get?, hkey], by simp [get?, hkey]⟩
      · exact .inl (by simp [get?, hkey])
  | cons entry rest ih =>
      obtain ⟨k, v⟩ := entry
      by_cases hk : k = sought
      · exact .inl (by simp [get?, hk])
      · simpa only [List.cons_append, get?, hk, if_false] using ih

end Keyed

/-! The shapes inside a schema. -/

namespace Shape

theorem propertiesIn_eq (members : List (String × Json)) :
    propertiesIn members = ((Keyed.get? "properties" members).map ofProperties).getD [] := by
  induction members with
  | nil => rfl
  | cons member rest ih =>
      obtain ⟨key, value⟩ := member
      by_cases hkey : key = "properties"
      · simp [propertiesIn, Keyed.get?, hkey]
      · simp [propertiesIn, Keyed.get?, hkey, ih]

theorem itemsIn_eq (members : List (String × Json)) :
    itemsIn members = ((Keyed.get? "items" members).map ofItems).getD .missing := by
  induction members with
  | nil => rfl
  | cons member rest ih =>
      obtain ⟨key, value⟩ := member
      by_cases hkey : key = "items"
      · simp [itemsIn, Keyed.get?, hkey]
      · simp [itemsIn, Keyed.get?, hkey, ih]

theorem ofMembers_eq_map (members : List (String × Json)) :
    ofMembers members = members.map fun member => (member.1, ofJson member.2) := by
  induction members with
  | nil => rfl
  | cons member rest ih => simp [ofMembers, ih]

theorem ofElements_eq_map (elements : List Json) : ofElements elements = elements.map ofJson := by
  induction elements with
  | nil => rfl
  | cons value rest ih => simp [ofElements, ih]

theorem ofItems_obj (members : List (String × Json)) :
    ofItems (.obj members) = .single (ofJson (.obj members)) := by
  rw [ofItems, ofJson]

theorem ofItems_arr {elements : List Json} (h : elements ≠ []) :
    ofItems (.arr elements) = .oneOf (elements.map ofJson) := by
  obtain ⟨first, rest, rfl⟩ := List.exists_cons_of_ne_nil h
  rw [ofItems, ofElements_eq_map, List.map_cons]

end Shape

/-! Edits of a schema. -/

/-- The keys under which the members of a schema are read. -/
def schemaKeys : List String :=
  ["type", "title", "description", "externalDocs", "properties", "required", "items", "enum",
    "additionalProperties"]

/-- Among the elements there is one text besides `null`, which is `name`. -/
def NamesOnly (name : String) (elements : List Json) : Prop :=
  ∃ before after, elements = before ++ .str name :: after ∧
    ∀ text, .str text ∈ before ++ after → text = "null"

/-- One change to a schema that does not concern its shape, at the schema itself or at one that
is reached through properties and items. Only of a record under distinct keys, as every record of
a document is, the order may change. -/
inductive SchemaEdit : Json → Json → Prop
  /-- The members come in another order. -/
  | reorder {members others : List (String × Json)} :
      members.Perm others → (Keyed.keys members).Nodup → SchemaEdit (.obj members) (.obj others)
  /-- The members of the record about further documentation come in another order. -/
  | reorderDocs {fields others : List (String × Json)} (before after : List (String × Json)) :
      fields.Perm others → (Keyed.keys fields).Nodup →
      SchemaEdit (.obj (before ++ ("externalDocs", .obj fields) :: after))
        (.obj (before ++ ("externalDocs", .obj others) :: after))
  /-- There is one more member, under a key that is not read. -/
  | insert {key : String} (value : Json) (before after : List (String × Json)) :
      key ∉ schemaKeys → SchemaEdit (.obj (before ++ after)) (.obj (before ++ (key, value) :: after))
  /-- The type is written as a list. -/
  | listType {name : String} {elements : List Json} (before after : List (String × Json)) :
      name ≠ "null" → NamesOnly name elements →
      SchemaEdit (.obj (before ++ ("type", .str name) :: after))
        (.obj (before ++ ("type", .arr elements) :: after))
  | property {node other : Json} (key : String) (front back before after : List (String × Json)) :
      SchemaEdit node other →
      SchemaEdit (.obj (before ++ ("properties", .obj (front ++ (key, node) :: back)) :: after))
        (.obj (before ++ ("properties", .obj (front ++ (key, other) :: back)) :: after))
  | item {node other : Json} (before after : List (String × Json)) :
      SchemaEdit node other →
      SchemaEdit (.obj (before ++ ("items", node) :: after))
        (.obj (before ++ ("items", other) :: after))
  | alternative {node other : Json} (front back : List Json)
      (before after : List (String × Json)) :
      SchemaEdit node other →
      SchemaEdit (.obj (before ++ ("items", .arr (front ++ node :: back)) :: after))
        (.obj (before ++ ("items", .arr (front ++ other :: back)) :: after))

/-- Two values of the member under `key` of a schema that tell the same about its shape. -/
inductive ReadAlike (key : String) : Json → Json → Prop
  | type {value other : Json} : key = "type" →
      SchemaFields.typeName? value = SchemaFields.typeName? other → ReadAlike key value other
  | externalDocs {fields others : List (String × Json)} : key = "externalDocs" →
      Field.text? "url" fields = Field.text? "url" others →
      ReadAlike key (.obj fields) (.obj others)
  | properties {members others : List (String × Json)} : key = "properties" →
      Shape.ofMembers members = Shape.ofMembers others →
      ReadAlike key (.obj members) (.obj others)
  | items {value other : Json} : key = "items" →
      Shape.ofItems value = Shape.ofItems other → ReadAlike key value other

/-- Under every key that is read there is the same in both records, or what is read alike. -/
def Alike (members others : Field.Members) : Prop :=
  ∀ key ∈ schemaKeys, Keyed.get? key members = Keyed.get? key others ∨
    ∃ value other, Keyed.get? key members = some value ∧ Keyed.get? key others = some other ∧
      ReadAlike key value other

theorem ReadAlike.mem_keys {key : String} {value other : Json} (h : ReadAlike key value other) :
    key ∈ ["type", "externalDocs", "properties", "items"] := by
  cases h with
  | type hkey => simp [hkey]
  | externalDocs hkey => simp [hkey]
  | properties hkey => simp [hkey]
  | items hkey => simp [hkey]

namespace Alike

variable {members others : Field.Members}

theorem of_get?_eq (h : ∀ key ∈ schemaKeys, Keyed.get? key members = Keyed.get? key others) :
    Alike members others := fun key hkey => .inl (h key hkey)

/-- It is enough that one member is read alike if all else is the same. -/
theorem replace {key : String} {value other : Json} (h : ReadAlike key value other)
    (before after : Field.Members) :
    Alike (before ++ (key, value) :: after) (before ++ (key, other) :: after) := by
  intro sought hsought
  apply (Keyed.get?_replace key value other before after sought).imp_right
  rintro ⟨rfl, hvalue, hother⟩
  exact ⟨value, other, hvalue, hother, h⟩

variable (h : Alike members others)
include h

theorem get?_eq (key : String) (hread : key ∈ schemaKeys)
    (hkey : key ∉ ["type", "externalDocs", "properties", "items"]) :
    Keyed.get? key members = Keyed.get? key others := by
  rcases h key hread with hsame | ⟨value, other, -, -, hvalue⟩
  · exact hsame
  · exact absurd hvalue.mem_keys hkey

theorem type_eq : (Keyed.get? "type" members).bind SchemaFields.typeName? =
    (Keyed.get? "type" others).bind SchemaFields.typeName? := by
  rcases h "type" (by decide) with hsame | ⟨value, other, hmember, hother, hvalue⟩
  · rw [hsame]
  · rw [hmember, hother]
    cases hvalue with
    | type _ hname => exact hname
    | _ hkey => simp at hkey

theorem externalDocs_eq :
    SchemaFields.externalDocs? members = SchemaFields.externalDocs? others := by
  rcases h "externalDocs" (by decide) with hsame | ⟨value, other, hmember, hother, hvalue⟩
  · simp only [SchemaFields.externalDocs?, Field.textRecord?, hsame]
  · cases hvalue with
    | externalDocs _ hurl =>
        simp only [SchemaFields.externalDocs?, Field.textRecord?, hmember, hother, List.mapM_cons,
          List.mapM_nil, hurl]
    | _ hkey => simp at hkey

theorem hasReadableProperties_eq :
    SchemaFields.hasReadableProperties members = SchemaFields.hasReadableProperties others := by
  rcases h "properties" (by decide) with hsame | ⟨value, other, hmember, hother, hvalue⟩
  · simp only [SchemaFields.hasReadableProperties, hsame]
  · cases hvalue with
    | properties => simp only [SchemaFields.hasReadableProperties, hmember, hother]
    | _ hkey => simp at hkey

theorem read?_eq : SchemaFields.read? members = SchemaFields.read? others := by
  have htitle := h.get?_eq "title" (by decide) (by decide)
  have hdescription := h.get?_eq "description" (by decide) (by decide)
  have hrequired := h.get?_eq "required" (by decide) (by decide)
  have henum := h.get?_eq "enum" (by decide) (by decide)
  have hadditional := h.get?_eq "additionalProperties" (by decide) (by decide)
  simp only [SchemaFields.read?, Field.text?, SchemaFields.required?, SchemaFields.literals?,
    SchemaFields.allowsAdditional, h.type_eq, h.externalDocs_eq, h.hasReadableProperties_eq,
    htitle, hdescription, hrequired, henum, hadditional]

theorem propertiesIn_eq : Shape.propertiesIn members = Shape.propertiesIn others := by
  rw [Shape.propertiesIn_eq, Shape.propertiesIn_eq]
  rcases h "properties" (by decide) with hsame | ⟨value, other, hmember, hother, hvalue⟩
  · rw [hsame]
  · cases hvalue with
    | properties _ hinside => simpa [hmember, hother, Shape.ofProperties] using hinside
    | _ hkey => simp at hkey

theorem itemsIn_eq : Shape.itemsIn members = Shape.itemsIn others := by
  rw [Shape.itemsIn_eq, Shape.itemsIn_eq]
  rcases h "items" (by decide) with hsame | ⟨value, other, hmember, hother, hvalue⟩
  · rw [hsame]
  · cases hvalue with
    | items _ hinside => simpa [hmember, hother] using hinside
    | _ hkey => simp at hkey

theorem ofJson_eq : Shape.ofJson (.obj members) = Shape.ofJson (.obj others) := by
  rw [Shape.ofJson, Shape.ofJson, Shape.assemble, Shape.assemble, h.read?_eq, h.propertiesIn_eq,
    h.itemsIn_eq]

end Alike

namespace SchemaEdit

theorem exists_members {node other : Json} (h : SchemaEdit node other) :
    ∃ members others, node = .obj members ∧ other = .obj others := by
  cases h <;> exact ⟨_, _, rfl, rfl⟩

theorem typeName?_of_namesOnly {name : String} {elements : List Json} (hname : name ≠ "null")
    (h : NamesOnly name elements) :
    SchemaFields.typeName? (.str name) = SchemaFields.typeName? (.arr elements) := by
  obtain ⟨before, after, rfl, hnull⟩ := h
  have hnone : ∀ part : List Json, (∀ text, .str text ∈ part → text = "null") →
      (part.filterMap Json.str?).filter (· ≠ "null") = [] := by
    intro part hpart
    refine List.filter_eq_nil_iff.mpr fun text htext => ?_
    obtain ⟨element, helement, hstr⟩ := List.mem_filterMap.mp htext
    cases element with
    | str written =>
        obtain rfl := Option.some.inj hstr
        simp [hpart written helement]
    | _ => simp [Json.str?] at hstr
  have hbefore := hnone before fun text htext => hnull text (List.mem_append_left _ htext)
  have hafter := hnone after fun text htext => hnull text (List.mem_append_right _ htext)
  have hstr : Json.str? (.str name) = some name := rfl
  have hnames : ((before ++ .str name :: after).filterMap Json.str?).filter (· ≠ "null") =
      [name] := by
    rw [List.filterMap_append, List.filter_append, hbefore, List.nil_append,
      List.filterMap_cons_some hstr, List.filter_cons_of_pos (by simpa using hname), hafter]
  rw [SchemaFields.typeName?, SchemaFields.typeName?, hnames]

/-- One edit leaves the shape as it is. -/
theorem ofJson_eq {node other : Json} (h : SchemaEdit node other) :
    Shape.ofJson node = Shape.ofJson other := by
  induction h with
  | reorder hperm hkeys =>
      exact (Alike.of_get?_eq fun key _ => Keyed.get?_eq_of_perm hperm hkeys key).ofJson_eq
  | @reorderDocs fields others before after hperm hkeys =>
      have hurl : Field.text? "url" fields = Field.text? "url" others := by
        rw [Field.text?, Field.text?, Keyed.get?_eq_of_perm hperm hkeys "url"]
      exact (Alike.replace (.externalDocs rfl hurl) before after).ofJson_eq
  | insert value before after hkey =>
      refine (Alike.of_get?_eq fun sought hsought => ?_).ofJson_eq
      exact (Keyed.get?_insert_of_ne (by rintro rfl; exact hkey hsought) value before after).symm
  | listType before after hname honly =>
      have htype := typeName?_of_namesOnly hname honly
      exact (Alike.replace (.type rfl htype) before after).ofJson_eq
  | @property node other key front back before after _ ih =>
      have hinside : Shape.ofMembers (front ++ (key, node) :: back) =
          Shape.ofMembers (front ++ (key, other) :: back) := by
        simp only [Shape.ofMembers_eq_map, List.map_append, List.map_cons, ih]
      exact (Alike.replace (.properties rfl hinside) before after).ofJson_eq
  | item before after hedit ih =>
      obtain ⟨members, others, rfl, rfl⟩ := hedit.exists_members
      have hinside : Shape.ofItems (.obj members) = Shape.ofItems (.obj others) := by
        rw [Shape.ofItems_obj, Shape.ofItems_obj, ih]
      exact (Alike.replace (.items rfl hinside) before after).ofJson_eq
  | @alternative node other front back before after _ ih =>
      have hinside : Shape.ofItems (.arr (front ++ node :: back)) =
          Shape.ofItems (.arr (front ++ other :: back)) := by
        rw [Shape.ofItems_arr (by simp), Shape.ofItems_arr (by simp)]
        simp only [List.map_append, List.map_cons, ih]
      exact (Alike.replace (.items rfl hinside) before after).ofJson_eq

end SchemaEdit

namespace Shape

/-- Schemas that edits turn into each other have the same shape, readable or not. -/
theorem ofJson_eq_of_edits {schema other : Json} (h : Relation.EqvGen SchemaEdit schema other) :
    ofJson schema = ofJson other := by
  induction h with
  | rel _ _ hedit => exact hedit.ofJson_eq
  | refl _ => rfl
  | symm _ _ _ ih => exact ih.symm
  | trans _ _ _ _ _ ihfirst ihsecond => exact ihfirst.trans ihsecond

/-- In the second schema the members stand in another order, one more says nothing about the
shape, and the type of the elements is a list. One alternative for them is unreadable in both. -/
theorem ofJson_eq_of_edits_array :
    let broken := Json.obj [("title", .str "Id"), ("required", .str "id")]
    let elements (type : Json) := Json.obj [("type", type), ("enum", .arr [.str "a", .null])]
    let node (type : Json) (extra : List (String × Json)) :=
      Json.obj ([("items", .arr [elements type, broken]), ("type", .str "array")] ++ extra)
    let schema := Json.obj [("type", .str "object"),
      ("properties", .obj [("ids", node (.str "string") [])])]
    let other := Json.obj [("properties", .obj [("ids",
        node (.arr [.str "null", .str "string", .num (.integer 1)]) [("x-order", .bool true)])]),
      ("type", .str "object")]
    Relation.EqvGen SchemaEdit schema other ∧ ofJson schema = ofJson other ∧
      ofJson schema = .object [("ids", .tuple [.enumeration ["a"] {}, .unreadable] {})] []
        false {} := by
  intro broken elements node schema other
  have hnames : NamesOnly "string" [.str "null", .str "string", .num (.integer 1)] :=
    ⟨[.str "null"], [.num (.integer 1)], rfl, by simp⟩
  have hlisted : SchemaEdit (node (.str "string") [])
      (node (.arr [.str "null", .str "string", .num (.integer 1)]) []) :=
    .alternative [] [broken] [] [("type", .str "array")]
      (.listType [] [("enum", .arr [.str "a", .null])] (by decide) hnames)
  have hextended : SchemaEdit
      (node (.arr [.str "null", .str "string", .num (.integer 1)]) [])
      (node (.arr [.str "null", .str "string", .num (.integer 1)])
        [("x-order", .bool true)]) :=
    .insert (.bool true) [_, _] [] (by decide)
  have hedits : Relation.EqvGen SchemaEdit schema other := by
    refine .trans _ _ _ (.rel _ _ (.property "ids" [] [] [("type", .str "object")] [] hlisted)) ?_
    refine .trans _ _ _
      (.rel _ _ (.property "ids" [] [] [("type", .str "object")] [] hextended)) ?_
    exact .rel _ _ (.reorder (.swap _ _ _) (by decide))
  refine ⟨hedits, ofJson_eq_of_edits hedits, rfl⟩

end Shape

end ApiInterfaces
