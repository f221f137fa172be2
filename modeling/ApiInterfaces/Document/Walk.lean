import ApiInterfaces.Json.Basic

/-!
Depth-first walks. Records and sequences are visited in document order; a visitor is told of
each node before and after what lies below it, and may leave that out for the node at hand.
-/

namespace ApiInterfaces

/-- How a node was reached from its parent. -/
inductive Edge where
  | root
  | key (key : String)
  | index (index : Nat)
deriving DecidableEq, Repr, Inhabited

namespace Edge

/-- What the edge adds to a path. -/
def segment? : Edge → Option String
  | .root => none
  | .key k => some k
  | .index i => some (Nat.repr i)

def key? : Edge → Option String
  | .key k => some k
  | _ => none

end Edge

/-- One node on a walk. -/
structure Visit where
  node : Json
  parent : Option Json
  edge : Edge
deriving Repr, Inhabited

inductive Flow where
  | descend
  | skip
deriving DecidableEq, Repr, Inhabited

/-- What happens on the way down and up, over a state that all visits share. -/
structure Visitor (σ : Type) where
  enter : Visit → σ → Flow × σ := fun _ s => (.descend, s)
  leave : Visit → σ → σ := fun _ s => s

namespace Visitor

variable {σ : Type} (v : Visitor σ)

/-- Enters a node, does what is `inside` unless told to skip it, and leaves the node. -/
def bracket (visit : Visit) (inside : σ → σ) (s : σ) : σ :=
  match v.enter visit s with
  | (.skip, s) => v.leave visit s
  | (.descend, s) => v.leave visit (inside s)

mutual

def walkFrom (parent : Option Json) (edge : Edge) : Json → σ → σ
  | .obj members => v.bracket ⟨.obj members, parent, edge⟩ (walkMembers (.obj members) members)
  | .arr elements => v.bracket ⟨.arr elements, parent, edge⟩ (walkElements (.arr elements) 0 elements)
  | scalar => v.bracket ⟨scalar, parent, edge⟩ id

def walkMembers (parent : Json) : List (String × Json) → σ → σ
  | [], s => s
  | (key, child) :: rest, s =>
    walkMembers parent rest
      (if child.isContainer then walkFrom (some parent) (.key key) child s else s)

def walkElements (parent : Json) (index : Nat) : List Json → σ → σ
  | [], s => s
  | child :: rest, s =>
    walkElements parent (index + 1) rest
      (if child.isContainer then walkFrom (some parent) (.index index) child s else s)

end

/-- Walks a whole document. -/
def walk (document : Json) : σ → σ := v.walkFrom none .root document

end Visitor

end ApiInterfaces
