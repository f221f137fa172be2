import ApiInterfaces.Document.Reference
import Mathlib.Data.List.Basic

/-!
The references that inlining meets. They all stand in the document itself, so
that only finitely many can be followed on the way to a node, and the count of
those not followed yet never runs out before them.
-/

namespace ApiInterfaces.Json

/-- The node is a record that refers to a place of the document: under `$ref` it
holds a text that begins with `#`. -/
def IsReference (node : Json) (reference : String) : Prop :=
  node.get? "$ref" = some (.str reference) ∧ reference.toList.head? = some '#'

theorem localReference?_eq_some_iff {node : Json} {reference : String} :
    node.localReference? = some reference ↔ node.IsReference reference := by
  cases node with
  | obj members =>
      simp only [localReference?, IsReference, get?]
      split
      next text htext =>
        rw [htext]
        by_cases hsame : text = reference
        · subst hsame
          simp
        · simp [hsame]
      next hother => simpa using fun h => absurd h (hother reference)
  | _ => simp [localReference?, IsReference, get?]

theorem localReference?_eq_none_iff {node : Json} :
    node.localReference? = none ↔ ∀ reference, ¬ node.IsReference reference := by
  simp only [← localReference?_eq_some_iff, Option.eq_none_iff_forall_ne_some, ne_eq]

/-! The references in a node and in its children. -/

theorem localReferencesInMembers_eq (members : List (String × Json)) :
    localReferencesInMembers members = members.flatMap fun m => m.2.localReferences := by
  induction members with
  | nil => rfl
  | cons m rest ih =>
      obtain ⟨key, child⟩ := m
      rw [localReferencesInMembers, ih, List.flatMap_cons]

theorem localReferencesInElements_eq (elements : List Json) :
    localReferencesInElements elements = elements.flatMap localReferences := by
  induction elements with
  | nil => rfl
  | cons child rest ih => rw [localReferencesInElements, ih, List.flatMap_cons]

theorem mem_localReferences_of_isReference {node : Json} {reference : String}
    (h : node.IsReference reference) : reference ∈ node.localReferences := by
  cases node with
  | obj members =>
      rw [localReferences, localReference?_eq_some_iff.mpr h]
      exact List.mem_append_left _ (by simp)
  | _ => simp [IsReference, get?] at h

theorem localReferences_subset_of_get? {node child : Json} {key : String}
    (h : node.get? key = some child) : child.localReferences ⊆ node.localReferences := by
  cases node with
  | obj members =>
      have hmem := Keyed.mem_of_get?_eq_some h
      rw [localReferences, localReferencesInMembers_eq]
      intro reference hreference
      exact List.mem_append_right _ (List.mem_flatMap.mpr ⟨_, hmem, hreference⟩)
  | _ => simp [get?] at h

theorem localReferences_subset_of_element? {node child : Json} {index : Nat}
    (h : node.element? index = some child) : child.localReferences ⊆ node.localReferences := by
  cases node with
  | arr elements =>
      have hmem := List.mem_of_getElem? h
      rw [localReferences, localReferencesInElements_eq]
      intro reference hreference
      exact List.mem_flatMap.mpr ⟨child, hmem, hreference⟩
  | _ => simp [element?] at h

theorem localReferences_subset_of_child? {node child : Json} {token : String}
    (h : node.child? token = some child) : child.localReferences ⊆ node.localReferences := by
  cases node with
  | obj members =>
      have hget : (obj members).get? token = some child := h
      exact localReferences_subset_of_get? hget
  | arr elements =>
      obtain ⟨index, -, hindex⟩ := Option.bind_eq_some_iff.mp h
      have helement : (arr elements).element? index = some child := hindex
      exact localReferences_subset_of_element? helement
  | _ => simp [child?] at h

theorem of_descend? {P : Json → Prop}
    (step : ∀ node child token, P node → node.child? token = some child → P child)
    {document node : Json} {tokens : List String} (hdocument : P document)
    (h : document.descend? tokens = some node) : P node := by
  induction tokens generalizing document with
  | nil =>
      obtain rfl : document = node := by simpa [descend?] using h
      exact hdocument
  | cons token rest ih =>
      rw [descend?, List.foldlM_cons] at h
      obtain ⟨child, hchild, hrest⟩ := Option.bind_eq_some_iff.mp h
      exact ih (step document child token hdocument hchild) hrest

/-- What passes from a node to its children holds of the target of a reference if it
holds of the document. -/
theorem of_target? {P : Json → Prop}
    (step : ∀ node child token, P node → node.child? token = some child → P child)
    {document target : Json} {reference : String} (hdocument : P document)
    (h : document.target? reference = some target) : P target := by
  obtain ⟨tokens, -, htokens⟩ := Option.bind_eq_some_iff.mp h
  exact of_descend? step hdocument htokens

/-- What is copied from the document holds no reference that the document does
not hold. -/
theorem localReferences_subset_of_target? {document target : Json} {reference : String}
    (h : document.target? reference = some target) :
    target.localReferences ⊆ document.localReferences := by
  refine of_target? (P := fun node => node.localReferences ⊆ document.localReferences) ?_
    (List.Subset.refl _) h
  intro node child token hnode hchild
  exact List.Subset.trans (localReferences_subset_of_child? hchild) hnode

/-! The references left to follow. -/

/-- The state in which inlining meets a node: `left` counts the references of the
document that have not been followed on the way to it. -/
structure Budgeted (document : Json) (left : Nat) (followed : List String) (node : Json) :
    Prop where
  /-- No reference has been followed twice. -/
  nodup : followed.Nodup
  /-- Those followed stand in the document. -/
  known : followed ⊆ document.localReferences
  /-- Each of the document's references is either followed or left. -/
  count : left + followed.length = document.localReferences.eraseDups.length
  /-- So do those that may be met inside the node. -/
  inside : node.localReferences ⊆ document.localReferences

namespace Budgeted

variable {document node target : Json} {left : Nat} {followed : List String} {reference : String}

theorem start (document : Json) :
    Budgeted document document.localReferences.eraseDups.length [] document where
  nodup := List.nodup_nil
  known := List.nil_subset _
  count := rfl
  inside := List.Subset.refl _

theorem descend (h : Budgeted document left followed node) {child : Json}
    (hchild : child.localReferences ⊆ node.localReferences) :
    Budgeted document left followed child :=
  ⟨h.nodup, h.known, h.count, List.Subset.trans hchild h.inside⟩

/-- A reference that is not followed yet is one of those left: the ones followed
and this one are distinct and stand in the document. -/
theorem left_pos (h : Budgeted document left followed node) (hnode : node.IsReference reference)
    (hfresh : reference ∉ followed) : 0 < left := by
  have hnodup : (reference :: followed).Nodup := List.nodup_cons.mpr ⟨hfresh, h.nodup⟩
  have hsubset : reference :: followed ⊆ document.localReferences.eraseDups := by
    intro other hother
    rw [List.mem_eraseDups]
    rcases List.mem_cons.mp hother with rfl | hother
    · exact h.inside (mem_localReferences_of_isReference hnode)
    · exact h.known hother
  have hlength := hnodup.length_le_of_subset hsubset
  have hcount := h.count
  rw [List.length_cons] at hlength
  omega

theorem follow (h : Budgeted document (left + 1) followed node)
    (hnode : node.IsReference reference) (hfresh : reference ∉ followed)
    (htarget : document.target? reference = some target) :
    Budgeted document left (reference :: followed) target where
  nodup := List.nodup_cons.mpr ⟨hfresh, h.nodup⟩
  known := List.cons_subset.mpr
    ⟨h.inside (mem_localReferences_of_isReference hnode), h.known⟩
  count := by
    have hcount := h.count
    rw [List.length_cons]
    omega
  inside := localReferences_subset_of_target? htarget

end Budgeted

end ApiInterfaces.Json
