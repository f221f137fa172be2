import ApiInterfaces.Proofs.Document.Inlining
import Mathlib.Data.List.Nodup

/-!
The children of a node. Records and sequences are alike in having children at
the ends of edges, in document order, and what holds of all documents is proved
by induction on them. An edge leads to one child only where the keys of each
record are distinct.
-/

namespace ApiInterfaces.Json

/-- The children of a node with the edges to them, in document order. -/
def children : Json → List (Edge × Json)
  | .obj members => members.map fun m => (.key m.1, m.2)
  | .arr elements => elements.zipIdx.map fun e => (.index e.2, e.1)
  | _ => []

/-- The edges to the children, in document order. -/
def edges (node : Json) : List Edge := node.children.map Prod.fst

/-- The children that are records or sequences. -/
def branches (node : Json) : List (Edge × Json) :=
  node.children.filter fun branch => branch.2.isContainer

/-- No record in the node has two members under one key. -/
inductive DistinctKeys : Json → Prop
  | scalar {node : Json} : node.isContainer = false → DistinctKeys node
  | sequence {elements : List Json} :
      (∀ child ∈ elements, DistinctKeys child) → DistinctKeys (.arr elements)
  | record {members : List (String × Json)} : (Keyed.keys members).Nodup →
      (∀ m ∈ members, DistinctKeys m.2) → DistinctKeys (.obj members)

section

variable {node child : Json} {edge : Edge}

theorem mem_children_obj {members : List (String × Json)} :
    (edge, child) ∈ (obj members).children ↔ ∃ key, edge = .key key ∧ (key, child) ∈ members := by
  simp only [children, List.mem_map, Prod.mk.injEq, Prod.exists]
  constructor
  · rintro ⟨key, value, hmem, rfl, rfl⟩
    exact ⟨key, rfl, hmem⟩
  · rintro ⟨key, rfl, hmem⟩
    exact ⟨key, child, hmem, rfl, rfl⟩

theorem mem_children_arr {elements : List Json} :
    (edge, child) ∈ (arr elements).children ↔
      ∃ index : Nat, edge = .index index ∧ elements[index]? = some child := by
  simp only [children, List.mem_map, Prod.mk.injEq, Prod.exists]
  constructor
  · rintro ⟨value, index, hmem, rfl, rfl⟩
    exact ⟨index, rfl, List.mem_zipIdx_iff_getElem?.mp hmem⟩
  · rintro ⟨index, rfl, hget⟩
    exact ⟨child, index, List.mem_zipIdx_iff_getElem?.mpr hget, rfl, rfl⟩

theorem sizeOf_lt_of_mem_children (h : (edge, child) ∈ node.children) :
    sizeOf child < sizeOf node := by
  cases node with
  | obj members =>
      obtain ⟨key, -, hmem⟩ := mem_children_obj.mp h
      have hlt := List.sizeOf_lt_of_mem hmem
      simp only [Prod.mk.sizeOf_spec] at hlt
      simp only [obj.sizeOf_spec]
      omega
  | arr elements =>
      obtain ⟨index, -, hget⟩ := mem_children_arr.mp h
      have hlt := List.sizeOf_lt_of_mem (List.mem_of_getElem? hget)
      simp only [arr.sizeOf_spec]
      omega
  | _ => simp [children] at h

/-- What holds of a node whenever it holds of its children holds of all nodes. -/
theorem induction_children {motive : Json → Prop}
    (step : ∀ node, (∀ edge child, (edge, child) ∈ node.children → motive child) → motive node)
    (node : Json) : motive node :=
  step node fun _ child _h =>
    induction_children step child
termination_by sizeOf node
decreasing_by exact sizeOf_lt_of_mem_children _h

theorem mem_branches :
    (edge, child) ∈ node.branches ↔ (edge, child) ∈ node.children ∧ child.isContainer = true :=
  List.mem_filter

/-- A scalar has no children. -/
theorem children_of_not_isContainer (h : node.isContainer = false) : node.children = [] := by
  cases node with
  | obj members => simp [isContainer] at h
  | arr elements => simp [isContainer] at h
  | _ => rfl

/-- Only the root is at the end of the edge to the root. -/
theorem root_not_mem_of_at? {path : List Edge} (h : node.at? path = some child) :
    Edge.root ∉ path := by
  induction path generalizing node with
  | nil => exact List.not_mem_nil
  | cons first rest ih =>
      obtain ⟨next, hnext, hrest⟩ := Option.bind_eq_some_iff.mp h
      have hfirst : first ≠ .root := by
        rintro rfl
        simp [along?] at hnext
      exact List.not_mem_cons_of_ne_of_not_mem hfirst.symm (ih hrest)

theorem mem_children_of_along? (h : node.along? edge = some child) :
    (edge, child) ∈ node.children := by
  cases node with
  | obj members =>
      cases edge with
      | key key => exact mem_children_obj.mpr ⟨key, rfl, Keyed.mem_of_get?_eq_some h⟩
      | _ => simp [along?, element?] at h
  | arr elements =>
      cases edge with
      | index index => exact mem_children_arr.mpr ⟨index, rfl, h⟩
      | _ => simp [along?, get?] at h
  | _ => cases edge <;> simp [along?, get?, element?] at h

/-- No node below a scalar is a record or a sequence. -/
theorem isContainer_of_at? {path : List Edge} (h : node.at? path = some child)
    (hchild : child.isContainer = true) : node.isContainer = true := by
  cases path with
  | nil =>
      obtain rfl := Option.some.inj h
      exact hchild
  | cons first rest =>
      obtain ⟨next, hnext, -⟩ := Option.bind_eq_some_iff.mp h
      by_contra hscalar
      have hnone := children_of_not_isContainer (Bool.eq_false_iff.mpr hscalar)
      simpa [hnone] using mem_children_of_along? hnext

end

/-! Nodes whose records have distinct keys. -/

namespace DistinctKeys

variable {node target : Json} {edge : Edge}

theorem child (h : node.DistinctKeys) (hchild : (edge, target) ∈ node.children) :
    target.DistinctKeys := by
  cases h with
  | scalar hscalar => simp [children_of_not_isContainer hscalar] at hchild
  | sequence hchildren =>
      obtain ⟨index, -, hget⟩ := mem_children_arr.mp hchild
      exact hchildren target (List.mem_of_getElem? hget)
  | record _ hchildren =>
      obtain ⟨key, -, hmem⟩ := mem_children_obj.mp hchild
      exact hchildren (key, target) hmem

theorem nodup_keys {members : List (String × Json)} (h : (obj members).DistinctKeys) :
    (Keyed.keys members).Nodup := by
  cases h with
  | record hnodup _ => exact hnodup
  | scalar hscalar => simp [isContainer] at hscalar

theorem nodup_edges (h : node.DistinctKeys) : node.edges.Nodup := by
  cases h with
  | scalar hscalar => simp [edges, children_of_not_isContainer hscalar]
  | @sequence elements =>
      have hindices : (arr elements).edges = (List.range elements.length).map Edge.index := by
        rw [edges, children, List.map_map, List.range_eq_range', ← List.zipIdx_map_snd 0 elements,
          List.map_map]
        rfl
      rw [hindices]
      exact List.nodup_range.map fun _ _ h => Edge.index.inj h
  | @record members hnodup =>
      have hkeys : (obj members).edges = (Keyed.keys members).map Edge.key := by
        simp [edges, children, Keyed.keys]
      rw [hkeys]
      exact hnodup.map fun _ _ h => Edge.key.inj h

theorem along?_eq_some_iff (h : node.DistinctKeys) :
    node.along? edge = some target ↔ (edge, target) ∈ node.children := by
  refine ⟨mem_children_of_along?, fun hmem => ?_⟩
  cases node with
  | obj members =>
      obtain ⟨key, rfl, hmember⟩ := mem_children_obj.mp hmem
      exact Keyed.get?_of_mem h.nodup_keys hmember
  | arr elements =>
      obtain ⟨index, rfl, hget⟩ := mem_children_arr.mp hmem
      exact hget
  | _ => simp [children] at hmem

theorem at? {path : List Edge} (h : node.DistinctKeys) (hat : node.at? path = some target) :
    target.DistinctKeys := by
  induction path generalizing node with
  | nil =>
      obtain rfl := Option.some.inj hat
      exact h
  | cons first rest ih =>
      obtain ⟨next, hnext, hrest⟩ := Option.bind_eq_some_iff.mp hat
      exact ih (h.child (mem_children_of_along? hnext)) hrest

end DistinctKeys

end ApiInterfaces.Json
