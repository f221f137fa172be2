import ApiInterfaces.Schema.Field
import ApiInterfaces.Schema.Shape

/-!
Reading the shape that a schema node describes. A record with a malformed field is unreadable as
a whole; a node that is no record, or has no single type, leaves its value unspecified.
-/

namespace ApiInterfaces

/-- The fields of a schema record that do not hold further schemas. -/
structure SchemaFields where
  type : Option String
  docs : ShapeDocs
  required : List String
  literals : List String
  additional : Bool

namespace SchemaFields

/-- The type that a node has: a name, or a list with one name besides `null`. -/
def typeName? : Json → Option String
  | .str name => some name
  | .arr elements =>
    match (elements.filterMap Json.str?).filter (· ≠ "null") with
    | [name] => some name
    | _ => none
  | _ => none

def required? (members : Field.Members) : Option (List String) :=
  match Keyed.get? "required" members with
  | none => some []
  | some (.arr elements) => elements.mapM Json.str?
  | some _ => none

/-- The literals of an enumeration; entries that are no strings do not count. -/
def literals? (members : Field.Members) : Option (List String) :=
  match Keyed.get? "enum" members with
  | none | some .null => some []
  | some (.arr elements) => some (elements.filterMap Json.str?)
  | some _ => none

/-- Further members are allowed by `true` and by a record that describes them. -/
def allowsAdditional (members : Field.Members) : Bool :=
  match Keyed.get? "additionalProperties" members with
  | some (.bool allowed) => allowed
  | some (.obj _) => true
  | _ => false

/-- The properties must be a record where they are given. -/
def hasReadableProperties (members : Field.Members) : Bool :=
  match Keyed.get? "properties" members with
  | none | some (.obj _) => true
  | some _ => false

def externalDocs? (members : Field.Members) : Option (Option String) := do
  let fields ← Field.textRecord? ["url"] "externalDocs" members
  pure (fields.bind fun texts => texts.head?.join)

def read? (members : Field.Members) : Option SchemaFields := do
  let title ← Field.text? "title" members
  let description ← Field.text? "description" members
  let externalDocs ← externalDocs? members
  let required ← required? members
  let literals ← literals? members
  if !hasReadableProperties members then none
  pure {
    type := (Keyed.get? "type" members).bind typeName?
    docs := { description, title, externalDocs }
    required
    literals
    additional := allowsAdditional members }

end SchemaFields

namespace Shape

/-- The elements of an array, as its schema gives them. -/
inductive Items where
  | missing
  | single (item : Shape)
  | oneOf (alternatives : List Shape)

/-- The shape of a schema record, from its own fields, the shapes of its properties and that of
its items. -/
def assemble (members : List (String × Json)) (properties : List (String × Shape))
    (items : Items) : Shape :=
  match SchemaFields.read? members with
  | none => .unreadable
  | some fields =>
    match fields.type with
    | some "array" =>
      match items with
      | .missing => .untypedArray fields.docs
      | .single item => .array item fields.docs
      | .oneOf alternatives => .tuple alternatives fields.docs
    | some "boolean" => .primitive .boolean fields.docs
    | some "integer" | some "number" => .primitive .number fields.docs
    | some "object" => .object properties fields.required fields.additional fields.docs
    | some "string" =>
      if fields.literals.isEmpty then .primitive .string fields.docs
      else .enumeration fields.literals fields.docs
    | _ => .unspecified fields.docs

mutual

/-- The shape that a schema node describes. -/
def ofJson : Json → Shape
  | .obj members => assemble members (propertiesIn members) (itemsIn members)
  | _ => .unspecified {}

/-- The shapes of the properties among the members of a schema. -/
def propertiesIn : List (String × Json) → List (String × Shape)
  | [] => []
  | (key, value) :: rest => if key = "properties" then ofProperties value else propertiesIn rest

def ofProperties : Json → List (String × Shape)
  | .obj members => ofMembers members
  | _ => []

def ofMembers : List (String × Json) → List (String × Shape)
  | [] => []
  | (key, value) :: rest => (key, ofJson value) :: ofMembers rest

/-- The items among the members of a schema. -/
def itemsIn : List (String × Json) → Items
  | [] => .missing
  | (key, value) :: rest => if key = "items" then ofItems value else itemsIn rest

def ofItems : Json → Items
  | .arr [] => .missing
  | .arr (first :: rest) => .oneOf (ofJson first :: ofElements rest)
  | .obj members => .single (assemble members (propertiesIn members) (itemsIn members))
  | _ => .missing

def ofElements : List Json → List Shape
  | [] => []
  | value :: rest => ofJson value :: ofElements rest

end

end Shape

end ApiInterfaces
