import ApiInterfaces.Document.Walk
import ApiInterfaces.Log.Event
import ApiInterfaces.Schema.Info
import ApiInterfaces.Schema.Reading

/-!
What a document defines. One walk collects every schema under its place in the document, the
operations below `paths`, and the metadata; it never looks for schemas inside a schema.
-/

namespace ApiInterfaces

/-- A place in a document: record keys and decimal indices, from the root on. -/
abbrev Place := List String

namespace Place

/-- The place as one text. -/
def text (place : Place) : String := String.intercalate ":" place

end Place

/-- Everything found in a document, in the order found. -/
structure Extraction where
  definitions : List (Place × Shape) := []
  operations : List (String × Json) := []
  info : Option ApiInfo := none
deriving Repr, Inhabited

namespace Extraction

/-- The definitions of objects; the others declare nothing. -/
def objectDefinitions (e : Extraction) : List (Place × Shape) :=
  e.definitions.filter fun definition => definition.2.isObject

/-- A search in progress: the edges of the visits that are open, innermost first and without the
root's, those that lead to the record of operations while its visit is open, what has been found,
and the events so far. -/
structure Search where
  edges : List Edge := []
  operationsEdges : Option (List Edge) := none
  found : Extraction := {}
  events : List Event := []
deriving Repr, Inhabited

namespace Search

def place (s : Search) : Place := s.edges.reverse.filterMap Edge.segment?

/-- Goes one edge down. The root has no edge to go down. -/
def push (edge : Edge) (s : Search) : Search :=
  if edge = .root then s else { s with edges := edge :: s.edges }

def pop (edge : Edge) (s : Search) : Search :=
  if edge = .root then s else { s with edges := s.edges.tail }

/-- The node just entered is the root's own member under `key`. -/
def isTopLevel (key : String) (visit : Visit) (s : Search) : Bool :=
  visit.edge.key? = some key && s.edges.length = 1

/-- The record of operations is the root's own `paths`. -/
def openOperations (visit : Visit) (s : Search) : Search :=
  if s.isTopLevel "paths" visit && visit.node.isObject then
    { s with operationsEdges := some s.edges }
  else s

/-- The members of the record of operations are operations. The edges to the parent of a node are
those to the node but for the innermost. -/
def noteOperation (visit : Visit) (s : Search) : Search :=
  match visit.parent, visit.edge.key? with
  | some _, some name =>
    if s.operationsEdges = some s.edges.tail then
      { s with found.operations := Keyed.put name visit.node s.found.operations }
    else s
  | _, _ => s

/-- Leaving the record of operations ends it. -/
def closeOperations (s : Search) : Search :=
  if s.operationsEdges = some s.edges then { s with operationsEdges := none } else s

def noteDefinition (visit : Visit) (s : Search) : Search :=
  let shape := Shape.ofJson visit.node
  { s with
    found.definitions := Keyed.put s.place shape s.found.definitions
    events := s.events ++ .definitionFound s.place.text ::
      List.replicate shape.unreadableCount .unreadableSchema }

/-- The metadata is the root's own `info`. -/
def noteInfo (visit : Visit) (s : Search) : Search :=
  if s.isTopLevel "info" visit && s.found.info.isNone then
    { s with
      found.info := ApiInfo.ofJson? visit.node
      events := s.events ++ if ApiInfo.isUnreadable visit.node then [.unreadableInfo] else [] }
  else s

def visitor : Visitor Search where
  enter visit s :=
    let s := noteOperation visit (openOperations visit (s.push visit.edge))
    if visit.edge.key? = some "schema" then (.skip, noteDefinition visit s)
    else (.descend, noteInfo visit s)
  leave visit s := s.closeOperations.pop visit.edge

end Search

/-- What `document` defines, with the events of the search. -/
def ofDocument (document : Json) : Extraction × List Event :=
  let s := Search.visitor.walk document {}
  let e := s.found
  (e, s.events ++ [.extractionFinished e.definitions.length e.operations.length e.info.isSome])

end Extraction

end ApiInterfaces
