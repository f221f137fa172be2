import ApiInterfaces.Json.Pointer
import ApiInterfaces.Log.Event

/-!
Inlining of local references. A record whose `$ref` is a text that begins with `#` stands for the
node that the pointer after the `#` leads to. It is replaced by that node, references inside being
replaced in turn, unless the pointer leads nowhere or the same reference is being followed
already.
-/

namespace ApiInterfaces.Json

/-- The text of the local reference that a record is. -/
def localReference? : Json → Option String
  | .obj members =>
    match Keyed.get? "$ref" members with
    | some (.str reference) => if reference.toList.head? = some '#' then some reference else none
    | _ => none
  | _ => none

mutual

/-- The texts of all local references in a node. -/
def localReferences : Json → List String
  | .obj members => (localReference? (.obj members)).toList ++ localReferencesInMembers members
  | .arr elements => localReferencesInElements elements
  | _ => []

def localReferencesInMembers : List (String × Json) → List String
  | [] => []
  | (_, child) :: rest => child.localReferences ++ localReferencesInMembers rest

def localReferencesInElements : List Json → List String
  | [] => []
  | child :: rest => child.localReferences ++ localReferencesInElements rest

end

mutual

/-- Replaces the outermost local references of a node by what `follow` makes of the record and
its reference. -/
def mapReferences (follow : Json → String → Json × List Event) : Json → Json × List Event
  | .obj members =>
    match localReference? (.obj members) with
    | some reference => follow (.obj members) reference
    | none =>
      let (members, events) := mapReferencesInMembers follow members
      (.obj members, events)
  | .arr elements =>
    let (elements, events) := mapReferencesInElements follow elements
    (.arr elements, events)
  | scalar => (scalar, [])

def mapReferencesInMembers (follow : Json → String → Json × List Event) :
    List (String × Json) → List (String × Json) × List Event
  | [] => ([], [])
  | (key, child) :: rest =>
    let (child, events) := child.mapReferences follow
    let (rest, others) := mapReferencesInMembers follow rest
    ((key, child) :: rest, events ++ others)

def mapReferencesInElements (follow : Json → String → Json × List Event) :
    List Json → List Json × List Event
  | [] => ([], [])
  | child :: rest =>
    let (child, events) := child.mapReferences follow
    let (rest, others) := mapReferencesInElements follow rest
    (child :: rest, events ++ others)

end

/-- Where a local reference leads. -/
def target? (document : Json) (reference : String) : Option Json :=
  document.pointer? (String.ofList reference.toList.tail)

/-- Inlines the references of a node, `followed` being those that led to it. The first argument
counts the references of the document that are not among them; when there is none left, every
reference is one that is being followed. -/
def inlineFrom (document : Json) : Nat → List String → Json → Json × List Event
  | 0, _, node => node.mapReferences fun node reference => (node, [.recursiveReference reference])
  | n + 1, followed, node => node.mapReferences fun node reference =>
    if reference ∈ followed then (node, [.recursiveReference reference])
    else match document.target? reference with
    | none => (node, [.unresolvableReference reference])
    | some target => inlineFrom document n (reference :: followed) target

/-- The document with its local references inlined, and the references left in place. -/
def inlineReferences (document : Json) : Json × List Event :=
  inlineFrom document document.localReferences.eraseDups.length [] document

end ApiInterfaces.Json
