import ApiInterfaces.Document.Extraction
import ApiInterfaces.Interface.Basic
import ApiInterfaces.Naming.Identifier
import ApiInterfaces.Naming.Registry

/-!
From shapes to declarations. Every object becomes an interface; one nested inside another is
declared after it and referred to by name. A name is claimed before the members are compiled, so
that nothing inside the object can take it.
-/

namespace ApiInterfaces

/-- The names of a run and the events raised as they were claimed. -/
structure NameLog where
  registry : Naming.Registry := {}
  events : List Event := []
deriving Repr, Inhabited

/-- Claims a name and reports it. -/
def NameLog.claim (log : NameLog) (base : String) : String × NameLog :=
  let (name, registry) := log.registry.claim base
  (name, ⟨registry, log.events ++ [.interfaceAdded name]⟩)

/-- The result of compiling a part of a definition: the part itself, the declarations lifted out
of it, and the names claimed so far. -/
structure Compiled (α : Type) where
  value : α
  lifted : List Declaration
  log : NameLog

namespace Compiled

variable {α β : Type}

def pure (value : α) (log : NameLog) : Compiled α := ⟨value, [], log⟩

def map (f : α → β) (c : Compiled α) : Compiled β := ⟨f c.value, c.lifted, c.log⟩

/-- Puts a part in front of the parts compiled after it. -/
def cons (first : Compiled α) (rest : NameLog → Compiled (List α)) : Compiled (List α) :=
  let others := rest first.log
  ⟨first.value :: others.value, first.lifted ++ others.lifted, others.log⟩

end Compiled

namespace Shape

/-- The name that an object inside `property` of the interface `outer` asks for. -/
def nestedBase (docs : ShapeDocs) (outer property : String) : String :=
  match docs.title with
  | some title => Naming.ofTitle title
  | none => Naming.ofProperty outer property

/-- The declaration of an object whose members are compiled. -/
def declaration (name : String) (additional : Bool) (docs : ShapeDocs) (members : List Member) :
    Declaration where
  name
  docs := DocBlock.ofDocs? docs
  index := if additional then some .additionalProperties else none
  members

/-- Claims a name for an object and declares it, in front of what its members lift out. -/
def declareWith (base : String) (additional : Bool) (docs : ShapeDocs)
    (members : String → NameLog → Compiled (List Member)) (log : NameLog) : Compiled String :=
  let (name, log) := log.claim base
  let compiled := members name log
  ⟨name, declaration name additional docs compiled.value :: compiled.lifted, compiled.log⟩

mutual

/-- The type of a shape under `property` of the interface `outer`. -/
def typeOf (outer property : String) : Shape → NameLog → Compiled TypeExpr
  | .primitive .string _, log => .pure .string log
  | .primitive .number _, log => .pure .number log
  | .primitive .boolean _, log => .pure .boolean log
  | .enumeration values _, log => .pure (.union (values.map .literal)) log
  | .untypedArray _, log => .pure (.array .any) log
  | .array item _, log => (typeOf outer property item log).map .array
  | .tuple alternatives _, log =>
    (typesOf outer property alternatives log).map fun types => .array (.union types)
  | .object properties required additional docs, log =>
    (declareWith (nestedBase docs outer property) additional docs
      (fun name => membersOf name required properties) log).map .named
  | .unspecified _, log | .unreadable, log => .pure .any log

def typesOf (outer property : String) : List Shape → NameLog → Compiled (List TypeExpr)
  | [], log => .pure [] log
  | shape :: rest, log => (typeOf outer property shape log).cons (typesOf outer property rest)

/-- The members of the interface `name`; those not required are optional. -/
def membersOf (name : String) (required : List String) :
    List (String × Shape) → NameLog → Compiled (List Member)
  | [], log => .pure [] log
  | (property, shape) :: rest, log =>
    ((typeOf name property shape log).map fun type =>
      { name := property, type, optional := property ∉ required,
        docs := DocBlock.ofDocs? shape.docs : Member }).cons (membersOf name required rest)

end

/-- The name that a definition at a place of the document asks for. -/
def definitionBase (docs : ShapeDocs) (place : Place) : String :=
  match docs.title with
  | some title => Naming.ofTitle title
  | none => Naming.ofPath place

end Shape

/-- A run: the names claimed, the declarations made and the events raised so far. -/
structure Compilation where
  registry : Naming.Registry := {}
  declarations : List Declaration := []
  events : List Event := []
deriving Repr, Inhabited

namespace Compilation

/-- Compiles one definition and gives the name of its interface. Only objects have one. -/
def define (c : Compilation) (place : Place) (shape : Shape) : Option String × Compilation :=
  match shape with
  | .object properties required additional docs =>
    let compiled := Shape.declareWith (Shape.definitionBase docs place) additional docs
      (fun name => Shape.membersOf name required properties) ⟨c.registry, c.events⟩
    (some compiled.value,
      ⟨compiled.log.registry, c.declarations ++ compiled.lifted, compiled.log.events⟩)
  | _ => (none, { c with events := c.events ++ [.definitionSkipped place.text] })

/-- Compiles definitions one after another and gives the names of their interfaces. -/
def defineAll (c : Compilation) : List (Place × Shape) → List String × Compilation
  | [] => ([], c)
  | (place, shape) :: rest =>
    let (name, c) := c.define place shape
    let (names, c) := c.defineAll rest
    (name.toList ++ names, c)

/-- Compiles every object defined in a document. -/
def defineObjects (c : Compilation) (e : Extraction) : List String × Compilation :=
  c.defineAll e.objectDefinitions

def finish (c : Compilation) (header : List String) : DeclarationFile := ⟨header, c.declarations⟩

end Compilation

namespace DeclarationFile

/-- The declarations of everything that `document` defines, with the events on the way. -/
def ofDocument (document : Json) (header : List String) : DeclarationFile × List Event :=
  let (extraction, events) := Extraction.ofDocument document
  let (_, c) := ({ events : Compilation }).defineObjects extraction
  (c.finish header, c.events)

end DeclarationFile

end ApiInterfaces
