/-!
Shapes: what the schema of a value says about it.
-/

namespace ApiInterfaces

inductive Primitive where
  | string
  | number
  | boolean
deriving DecidableEq, Repr, Inhabited

/-- What a schema says about a value to a human reader. -/
structure ShapeDocs where
  description : Option String := none
  title : Option String := none
  externalDocs : Option String := none
deriving DecidableEq, Repr, Inhabited

inductive Shape where
  | primitive (kind : Primitive) (docs : ShapeDocs)
  /-- A string restricted to the values listed. -/
  | enumeration (values : List String) (docs : ShapeDocs)
  /-- A sequence of anything. -/
  | untypedArray (docs : ShapeDocs)
  | array (item : Shape) (docs : ShapeDocs)
  /-- A sequence whose elements have one of several shapes. -/
  | tuple (alternatives : List Shape) (docs : ShapeDocs)
  | object (properties : List (String × Shape)) (required : List String) (additional : Bool)
      (docs : ShapeDocs)
  /-- A schema without a usable type. -/
  | unspecified (docs : ShapeDocs)
  /-- A schema with a malformed field; nothing in it counts. -/
  | unreadable
deriving Repr, BEq, Inhabited

namespace Shape

def docs : Shape → ShapeDocs
  | .primitive _ d | .enumeration _ d | .untypedArray d | .array _ d | .tuple _ d
  | .object _ _ _ d | .unspecified d => d
  | .unreadable => {}

def title? (s : Shape) : Option String := s.docs.title

def isObject : Shape → Bool
  | .object .. => true
  | _ => false

mutual

/-- The number of malformed schemas in a shape. -/
def unreadableCount : Shape → Nat
  | .array item _ => item.unreadableCount
  | .tuple alternatives _ => unreadableCountList alternatives
  | .object properties _ _ _ => unreadableCountProperties properties
  | .unreadable => 1
  | _ => 0

def unreadableCountList : List Shape → Nat
  | [] => 0
  | s :: rest => s.unreadableCount + unreadableCountList rest

def unreadableCountProperties : List (String × Shape) → Nat
  | [] => 0
  | (_, s) :: rest => s.unreadableCount + unreadableCountProperties rest

end

end Shape

end ApiInterfaces
