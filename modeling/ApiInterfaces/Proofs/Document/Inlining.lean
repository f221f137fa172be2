import ApiInterfaces.Document.Walk
import ApiInterfaces.Proofs.Document.Reference
import Mathlib.Data.List.Induction

/-!
The document with its references inlined is a finite truncation of the document
unfolded. The unfolded document has no end where references recur, so it is not
a tree: it is what a path from the root leads to when references are followed on
the way, none of them twice.
-/

namespace ApiInterfaces.Json

/-- The node at the end of an edge. No edge leads to the root. -/
def along? (node : Json) : Edge → Option Json
  | .root => none
  | .key key => node.get? key
  | .index index => node.element? index

/-- The node at the end of a path of keys and indices. -/
def at? (node : Json) : List Edge → Option Json
  | [] => some node
  | edge :: rest => (node.along? edge).bind (·.at? rest)

theorem at?_append (node : Json) (path rest : List Edge) :
    node.at? (path ++ rest) = (node.at? path).bind (·.at? rest) := by
  induction path generalizing node with
  | nil => simp [at?]
  | cons first path ih =>
      rw [List.cons_append, at?, at?]
      cases node.along? first with
      | none => rfl
      | some child => exact ih child

theorem at?_concat (node : Json) (path : List Edge) (edge : Edge) :
    node.at? (path ++ [edge]) = (node.at? path).bind (·.along? edge) := by
  simp [at?_append, at?]

theorem localReferences_subset_of_along? {node child : Json} {edge : Edge}
    (h : node.along? edge = some child) : child.localReferences ⊆ node.localReferences := by
  cases edge with
  | root => simp [along?] at h
  | key key => exact localReferences_subset_of_get? h
  | index index => exact localReferences_subset_of_element? h

/-! The unfolded document. -/

/-- Starting from a node that is met after the references `followed`, its reference
is followed to its target, and so on as long as the reference leads somewhere and
has not been followed yet. -/
inductive Settles (document : Json) : List String → Json → List String → Json → Prop
  | stays {followed : List String} {node : Json} :
      (∀ reference target, node.IsReference reference →
        document.target? reference = some target → reference ∈ followed) →
      Settles document followed node followed node
  | follows {followed further : List String} {node target settled : Json} {reference : String} :
      node.IsReference reference → reference ∉ followed →
      document.target? reference = some target →
      Settles document (reference :: followed) target further settled →
      Settles document followed node further settled

/-- A path leads to a node of the unfolded document, after the references
`followed`. It ends at a reference that is not followed any more. -/
inductive Reaches (document : Json) : List Edge → List String → Json → Prop
  | root {followed : List String} {node : Json} :
      Settles document [] document followed node → Reaches document [] followed node
  | along {path : List Edge} {edge : Edge} {followed further : List String}
      {node child settled : Json} :
      Reaches document path followed node → (∀ reference, ¬ node.IsReference reference) →
      node.along? edge = some child → Settles document followed child further settled →
      Reaches document (path ++ [edge]) further settled

/-- Equal scalars, sequences of one length, or records with the same keys in the
same order. -/
inductive SameOutline : Json → Json → Prop
  | scalar {node : Json} : node.isContainer = false → SameOutline node node
  | sequence {elements others : List Json} :
      elements.length = others.length → SameOutline (.arr elements) (.arr others)
  | record {members others : List (String × Json)} :
      Keyed.keys members = Keyed.keys others → SameOutline (.obj members) (.obj others)

/-- What stands where the unfolded document has `node`: a reference that is not
followed stands unchanged, and it leads nowhere or has been followed already; of
anything else the outline is the same. -/
def Truncates (document : Json) (followed : List String) (node result : Json) : Prop :=
  (∃ reference, node.IsReference reference ∧ result = node ∧
    (document.target? reference = none ∨ reference ∈ followed)) ∨
  ((∀ reference, ¬ node.IsReference reference) ∧ SameOutline node result)

/-! Inlining one node. -/

theorem mapReferencesInMembers_eq (follow : Json → String → Json × List Event)
    (members : List (String × Json)) :
    (mapReferencesInMembers follow members).1 =
      members.map fun m => (m.1, (m.2.mapReferences follow).1) := by
  induction members with
  | nil => rfl
  | cons m rest ih =>
      obtain ⟨key, child⟩ := m
      rw [mapReferencesInMembers, List.map_cons, ← ih]

theorem mapReferencesInElements_eq (follow : Json → String → Json × List Event)
    (elements : List Json) :
    (mapReferencesInElements follow elements).1 =
      elements.map fun child => (child.mapReferences follow).1 := by
  induction elements with
  | nil => rfl
  | cons child rest ih => rw [mapReferencesInElements, List.map_cons, ← ih]

theorem mapReferences_of_isReference (follow : Json → String → Json × List Event) {node : Json}
    {reference : String} (h : node.IsReference reference) :
    node.mapReferences follow = follow node reference := by
  cases node with
  | obj members => rw [mapReferences, localReference?_eq_some_iff.mpr h]
  | _ => simp [IsReference, get?] at h

theorem mapReferences_obj (follow : Json → String → Json × List Event)
    {members : List (String × Json)} (h : ∀ reference, ¬ (obj members).IsReference reference) :
    ((obj members).mapReferences follow).1 =
      .obj (members.map fun m => (m.1, (m.2.mapReferences follow).1)) := by
  rw [mapReferences, localReference?_eq_none_iff.mpr h, ← mapReferencesInMembers_eq]

theorem mapReferences_arr (follow : Json → String → Json × List Event) (elements : List Json) :
    ((arr elements).mapReferences follow).1 =
      .arr (elements.map fun child => (child.mapReferences follow).1) := by
  rw [mapReferences, ← mapReferencesInElements_eq]

theorem sameOutline_mapReferences (follow : Json → String → Json × List Event) {node : Json}
    (h : ∀ reference, ¬ node.IsReference reference) :
    SameOutline node (node.mapReferences follow).1 := by
  cases node with
  | obj members =>
      rw [mapReferences_obj follow h]
      refine .record ?_
      rw [Keyed.keys, Keyed.keys, List.map_map]
      rfl
  | arr elements =>
      rw [mapReferences_arr]
      exact .sequence (List.length_map _).symm
  | _ => exact .scalar rfl

theorem along?_mapReferences (follow : Json → String → Json × List Event) {node : Json}
    (h : ∀ reference, ¬ node.IsReference reference) (edge : Edge) :
    (node.mapReferences follow).1.along? edge =
      (node.along? edge).map fun child => (child.mapReferences follow).1 := by
  cases node with
  | obj members =>
      rw [mapReferences_obj follow h]
      cases edge with
      | key key => exact Keyed.get?_map (fun child => (child.mapReferences follow).1) key members
      | _ => rfl
  | arr elements =>
      rw [mapReferences_arr]
      cases edge with
      | index index => exact List.getElem?_map
      | _ => rfl
  | _ => cases edge <;> rfl

section

variable {document node target : Json} {left : Nat} {followed : List String} {reference : String}

theorem sameOutline_inlineFrom (left : Nat) (followed : List String)
    (h : ∀ reference, ¬ node.IsReference reference) :
    SameOutline node (inlineFrom document left followed node).1 := by
  cases left <;> exact sameOutline_mapReferences _ h

theorem along?_inlineFrom (left : Nat) (followed : List String)
    (h : ∀ reference, ¬ node.IsReference reference) (edge : Edge) :
    (inlineFrom document left followed node).1.along? edge =
      (node.along? edge).map fun child => (inlineFrom document left followed child).1 := by
  cases left <;> exact along?_mapReferences _ h edge

theorem inlineFrom_of_follows (hnode : node.IsReference reference)
    (hfresh : reference ∉ followed) (htarget : document.target? reference = some target) :
    inlineFrom document (left + 1) followed node =
      inlineFrom document left (reference :: followed) target := by
  rw [inlineFrom, mapReferences_of_isReference _ hnode, if_neg hfresh, htarget]

theorem inlineFrom_of_stays (hnode : node.IsReference reference)
    (hstays : document.target? reference = none ∨ reference ∈ followed) :
    (inlineFrom document left followed node).1 = node := by
  cases left with
  | zero => rw [inlineFrom, mapReferences_of_isReference _ hnode]
  | succ left =>
      rw [inlineFrom, mapReferences_of_isReference _ hnode]
      by_cases hfollowed : reference ∈ followed
      · rw [if_pos hfollowed]
      · rw [if_neg hfollowed, hstays.resolve_right hfollowed]

/-! Inlining along a path. -/

theorem Settles.settled {further : List String} {settled : Json}
    (h : Settles document followed node further settled) (hnode : settled.IsReference reference) :
    document.target? reference = none ∨ reference ∈ further := by
  induction h with
  | stays hstays =>
      cases htarget : document.target? reference with
      | none => exact .inl rfl
      | some target => exact .inr (hstays reference target hnode htarget)
  | follows _ _ _ _ ih => exact ih hnode

/-- Following references one by one and inlining the node in front of them come
to the same. -/
theorem Settles.inlineFrom_eq {further : List String} {settled : Json}
    (h : Settles document followed node further settled)
    (hbudget : Budgeted document left followed node) :
    ∃ rest, Budgeted document rest further settled ∧
      inlineFrom document left followed node = inlineFrom document rest further settled := by
  induction h generalizing left with
  | stays => exact ⟨left, hbudget, rfl⟩
  | @follows followed further node target settled reference hnode hfresh htarget _ ih =>
      -- The reference is one of those left, so the count is not at its end.
      obtain ⟨left, rfl⟩ := Nat.exists_eq_add_one.mpr (hbudget.left_pos hnode hfresh)
      obtain ⟨rest, hrest, heq⟩ := ih (hbudget.follow hnode hfresh htarget)
      exact ⟨rest, hrest, (inlineFrom_of_follows hnode hfresh htarget).trans heq⟩

/-- The references of a node are settled after finitely many steps. -/
theorem Budgeted.exists_settles (h : Budgeted document left followed node) :
    ∃ further settled, Settles document followed node further settled := by
  induction left generalizing followed node with
  | zero =>
      refine ⟨followed, node, .stays fun reference target hnode _ => ?_⟩
      by_contra hfresh
      exact absurd (h.left_pos hnode hfresh) (Nat.lt_irrefl 0)
  | succ left ih =>
      by_cases hleads : ∃ reference target, node.IsReference reference ∧ reference ∉ followed ∧
          document.target? reference = some target
      · obtain ⟨reference, target, hnode, hfresh, htarget⟩ := hleads
        obtain ⟨further, settled, hsettles⟩ := ih (h.follow hnode hfresh htarget)
        exact ⟨further, settled, .follows hnode hfresh htarget hsettles⟩
      · refine ⟨followed, node, .stays fun reference target hnode htarget => ?_⟩
        by_contra hfresh
        exact hleads ⟨reference, target, hnode, hfresh, htarget⟩

theorem Reaches.settled {path : List Edge} (h : Reaches document path followed node)
    (hnode : node.IsReference reference) :
    document.target? reference = none ∨ reference ∈ followed := by
  cases h with
  | root hsettles => exact hsettles.settled hnode
  | along _ _ _ hsettles => exact hsettles.settled hnode

/-- Where a path leads in the unfolded document, it leads in the inlined one to
what inlining makes of the node after the references followed. -/
theorem Reaches.at?_eq {path : List Edge} (h : Reaches document path followed node) :
    ∃ left, Budgeted document left followed node ∧
      document.inlineReferences.1.at? path = some (inlineFrom document left followed node).1 := by
  induction h with
  | root hsettles =>
      obtain ⟨left, hbudget, heq⟩ := hsettles.inlineFrom_eq (Budgeted.start document)
      exact ⟨left, hbudget, by rw [at?, inlineReferences, heq]⟩
  | @along path edge followed further node child settled _ hplain hchild hsettles ih =>
      obtain ⟨left, hbudget, hat⟩ := ih
      have hinside := hbudget.descend (localReferences_subset_of_along? hchild)
      obtain ⟨rest, hrest, heq⟩ := hsettles.inlineFrom_eq hinside
      refine ⟨rest, hrest, ?_⟩
      rw [at?_concat, hat, Option.bind_some, along?_inlineFrom left followed hplain, hchild,
        Option.map_some, heq]

/-- A path that leads somewhere in the inlined document leads somewhere in the
unfolded one, unless it goes on below a reference that is not followed. -/
theorem exists_reaches_of_at? {path : List Edge} {result : Json}
    (h : document.inlineReferences.1.at? path = some result) :
    (∃ followed node, Reaches document path followed node) ∨
    ∃ before after followed node reference, path = before ++ after ∧ after ≠ [] ∧
      Reaches document before followed node ∧ node.IsReference reference := by
  induction path using List.reverseRecOn generalizing result with
  | nil =>
      obtain ⟨followed, node, hsettles⟩ := (Budgeted.start document).exists_settles
      exact .inl ⟨followed, node, .root hsettles⟩
  | append_singleton path edge ih =>
      rw [at?_concat] at h
      obtain ⟨parent, hparent, hedge⟩ := Option.bind_eq_some_iff.mp h
      rcases ih hparent with ⟨followed, node, hreaches⟩ |
        ⟨before, after, followed, node, reference, hpath, -, hreaches, hnode⟩
      · by_cases hplain : ∀ reference, ¬ node.IsReference reference
        · -- Inlining keeps the children, so the edge is one of the node's own.
          obtain ⟨left, hbudget, hat⟩ := hreaches.at?_eq
          obtain rfl : _ = parent := Option.some.inj (hat.symm.trans hparent)
          rw [along?_inlineFrom left followed hplain] at hedge
          obtain ⟨child, hchild, -⟩ := Option.map_eq_some_iff.mp hedge
          have hinside := hbudget.descend (localReferences_subset_of_along? hchild)
          obtain ⟨further, settled, hsettles⟩ := hinside.exists_settles
          exact .inl ⟨further, settled, .along hreaches hplain hchild hsettles⟩
        · push Not at hplain
          obtain ⟨reference, hnode⟩ := hplain
          exact .inr ⟨path, [edge], followed, node, reference, rfl, by simp, hreaches, hnode⟩
      · refine .inr ⟨before, after ++ [edge], followed, node, reference, ?_, by simp, hreaches,
          hnode⟩
        rw [hpath, List.append_assoc]

end

/-- Inlining truncates the unfolded document: where a path leads in the one it
leads in the other, and what stands there agrees. Beyond that the inlined
document has only what stands inside the references that it leaves in place. -/
theorem inlineReferences_truncates (document : Json) :
    (∀ path followed node, Reaches document path followed node →
      ∃ result, document.inlineReferences.1.at? path = some result ∧
        Truncates document followed node result) ∧
    ∀ path result, document.inlineReferences.1.at? path = some result →
      (∃ followed node, Reaches document path followed node) ∨
      ∃ before after followed node reference, path = before ++ after ∧ after ≠ [] ∧
        Reaches document before followed node ∧ node.IsReference reference := by
  refine ⟨fun path followed node hreaches => ?_, fun path result h => exists_reaches_of_at? h⟩
  obtain ⟨left, -, hat⟩ := hreaches.at?_eq
  refine ⟨_, hat, ?_⟩
  by_cases hplain : ∀ reference, ¬ node.IsReference reference
  · exact .inr ⟨hplain, sameOutline_inlineFrom left followed hplain⟩
  · push Not at hplain
    obtain ⟨reference, hnode⟩ := hplain
    have hstays := hreaches.settled hnode
    exact .inl ⟨reference, hnode, inlineFrom_of_stays hnode hstays, hstays⟩

end ApiInterfaces.Json
