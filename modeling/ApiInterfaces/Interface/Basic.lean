import ApiInterfaces.Schema.Shape
import ApiInterfaces.Text.Pieces

/-!
Interface declarations: type expressions, documented members, and the declarations of a file
under its header.
-/

namespace ApiInterfaces

inductive TypeExpr where
  | string
  | number
  | boolean
  | any
  | array (item : TypeExpr)
  | union (alternatives : List TypeExpr)
  | literal (text : String)
  /-- A reference to an interface of the same file. -/
  | named (name : String)
deriving Repr, BEq, Inhabited

/-- The lines of a documentation comment, at least one. -/
structure DocBlock where
  lines : List String
deriving DecidableEq, Repr, Inhabited

namespace DocBlock

/-- The texts cut at their line feeds; no block when there are no lines. -/
def ofTexts? (texts : List String) : Option DocBlock :=
  let lines := texts.flatMap fun text => (Text.feedLines text.toList).map String.ofList
  if lines.isEmpty then none else some ⟨lines⟩

/-- Description, title and address of further documentation, in this order. -/
def ofDocs? (docs : ShapeDocs) : Option DocBlock :=
  ofTexts? <| [docs.description, docs.title.map ("Title: " ++ ·),
    docs.externalDocs.map ("External docs: " ++ ·)].filterMap id

end DocBlock

structure Member where
  name : String
  type : TypeExpr
  optional : Bool
  docs : Option DocBlock
deriving Repr, BEq, Inhabited

/-- A signature for members of any name. -/
structure IndexSignature where
  key : String
  value : TypeExpr
  docs : Option DocBlock
deriving Repr, BEq, Inhabited

/-- The signature of an object that allows additional properties. -/
def IndexSignature.additionalProperties : IndexSignature where
  key := "prop"
  value := .any
  docs := some ⟨["schema.additionalProperties: true"]⟩

structure Declaration where
  name : String
  docs : Option DocBlock
  index : Option IndexSignature
  members : List Member
deriving Repr, BEq, Inhabited

def Declaration.member? (d : Declaration) (name : String) : Option Member :=
  d.members.find? (·.name = name)

/-- A file of declarations. An empty header is none. -/
structure DeclarationFile where
  header : List String := []
  declarations : List Declaration := []
deriving Repr, BEq, Inhabited

namespace DeclarationFile

def names (f : DeclarationFile) : List String := f.declarations.map (·.name)

def declaration? (f : DeclarationFile) (name : String) : Option Declaration :=
  f.declarations.find? (·.name = name)

end DeclarationFile

end ApiInterfaces
