import ApiInterfaces.Proofs.Document.Children
import Mathlib.Data.List.Dedup
import Mathlib.Logic.Relation

/-!
Inlining ends on every document. The target of a reference can be larger than
the record that it replaces, so the nodes alone do not get smaller: each
expansion uses up one of the references of the document, and the nodes get
smaller only between two expansions.
-/

namespace ApiInterfaces.Json

/-- The node is a part of another one or that one itself. -/
inductive PartOf (node : Json) : Json → Prop
  | self : PartOf node node
  | inside {whole child : Json} {edge : Edge} :
      (edge, child) ∈ whole.children → PartOf node child → PartOf node whole

theorem localReferences_eq (node : Json) :
    node.localReferences = node.localReference?.toList ++
      node.children.flatMap fun branch => branch.2.localReferences := by
  cases node with
  | obj members =>
      rw [localReferences, localReferencesInMembers_eq, children, List.flatMap_map]
  | arr elements =>
      have helements : elements.zipIdx.map Prod.fst = elements := List.zipIdx_map_fst 0 elements
      rw [localReferences, localReferencesInElements_eq, children, List.flatMap_map]
      nth_rewrite 1 [← helements]
      rw [List.flatMap_map]
      rfl
  | _ => rfl

/-- The reference texts that the count of inlining starts from are those of the
references in the document. -/
theorem mem_localReferences_iff {node : Json} {reference : String} :
    reference ∈ node.localReferences ↔ ∃ part, PartOf part node ∧ part.IsReference reference := by
  constructor
  · induction node using induction_children with
    | step node ih =>
        intro h
        rw [localReferences_eq, List.mem_append, List.mem_flatMap] at h
        rcases h with hown | ⟨⟨edge, child⟩, hchild, hinside⟩
        · exact ⟨node, .self, localReference?_eq_some_iff.mp (by simpa using hown)⟩
        · obtain ⟨part, hpart, hreference⟩ := ih edge child hchild hinside
          exact ⟨part, .inside hchild hpart, hreference⟩
  · rintro ⟨part, hpart, hreference⟩
    induction hpart with
    | self => exact mem_localReferences_of_isReference hreference
    | inside hchild _ ih =>
        rw [localReferences_eq, List.mem_append, List.mem_flatMap]
        exact .inr ⟨_, hchild, ih⟩

/-- One call of inlining: the references that are being expanded, the innermost
first, and the node at hand. -/
structure Task where
  followed : List String
  node : Json

/-- The task at the outset: nothing is being expanded yet. -/
def Task.start (document : Json) : Task := ⟨[], document⟩

/-- The tasks that a task calls for: the children of a node that is no reference,
and the target of a reference that is not being expanded yet. -/
inductive CallsFor (document : Json) : Task → Task → Prop
  | child {followed : List String} {node child : Json} {edge : Edge} :
      (∀ reference, ¬ node.IsReference reference) → (edge, child) ∈ node.children →
      CallsFor document ⟨followed, node⟩ ⟨followed, child⟩
  | target {followed : List String} {node target : Json} {reference : String} :
      node.IsReference reference → reference ∉ followed →
      document.target? reference = some target →
      CallsFor document ⟨followed, node⟩ ⟨reference :: followed, target⟩

/-- The tasks that come up while a document is inlined. -/
def Arises (document : Json) (task : Task) : Prop :=
  Relation.ReflTransGen (CallsFor document) (.start document) task

/-- What becomes of a reference that is met in a task, when `inline` says what
becomes of its target. -/
def follow (document : Json) (inline : Task → Json × List Event) (followed : List String)
    (node : Json) (reference : String) : Json × List Event :=
  if reference ∈ followed then (node, [.recursiveReference reference])
  else match document.target? reference with
  | none => (node, [.unresolvableReference reference])
  | some target => inline ⟨reference :: followed, target⟩

/-- Inlining as a recursion that counts nothing: the result for a task that arises
is made of the results for the targets that are met in it. -/
def Obeys (document : Json) (inline : Task → Json × List Event) : Prop :=
  ∀ task, Arises document task →
    inline task = task.node.mapReferences (follow document inline task.followed)

/-! Nested calls come to an end. -/

section

variable {document node : Json} {left : Nat} {followed : List String} {task : Task}

theorem localReferences_subset_of_mem_children {child : Json} {edge : Edge}
    (h : (edge, child) ∈ node.children) : child.localReferences ⊆ node.localReferences := by
  intro reference hreference
  rw [localReferences_eq node, List.mem_append, List.mem_flatMap]
  exact .inr ⟨_, h, hreference⟩

/-- A call keeps to the count of the references left. -/
theorem CallsFor.budgeted {inner : Task} (hcall : CallsFor document task inner)
    (h : Budgeted document left task.followed task.node) :
    ∃ rest, Budgeted document rest inner.followed inner.node := by
  cases hcall with
  | child _ hchild => exact ⟨left, h.descend (localReferences_subset_of_mem_children hchild)⟩
  | target hnode hfresh htarget =>
      obtain ⟨rest, rfl⟩ := Nat.exists_eq_add_one.mpr (h.left_pos hnode hfresh)
      exact ⟨rest, h.follow hnode hfresh htarget⟩

theorem Arises.budgeted (h : Arises document task) :
    ∃ left, Budgeted document left task.followed task.node := by
  induction h with
  | refl => exact ⟨_, Budgeted.start document⟩
  | tail _ hcall ih =>
      obtain ⟨left, hbudget⟩ := ih
      exact hcall.budgeted hbudget

/-- The references left decrease whenever one is followed, and the node gets
smaller whenever none is. -/
theorem Budgeted.acc (h : Budgeted document left followed node) :
    Acc (flip (CallsFor document)) ⟨followed, node⟩ := by
  induction left using Nat.strongRecOn generalizing followed node with
  | _ left ihleft =>
      induction node using induction_children with
      | step node ihnode =>
          refine Acc.intro _ fun inner hcall => ?_
          cases hcall with
          | child hplain hchild =>
              exact ihnode _ _ hchild (h.descend (localReferences_subset_of_mem_children hchild))
          | target hnode hfresh htarget =>
              obtain ⟨rest, rfl⟩ := Nat.exists_eq_add_one.mpr (h.left_pos hnode hfresh)
              exact ihleft rest (Nat.lt_succ_self rest) (h.follow hnode hfresh htarget)

end

/-! The count decides nothing. -/

/-- The part is met in a node without following a reference. -/
inductive Exposed (part : Json) : Json → Prop
  | self : Exposed part part
  | inside {node child : Json} {edge : Edge} :
      (∀ reference, ¬ node.IsReference reference) → (edge, child) ∈ node.children →
      Exposed part child → Exposed part node

section

variable {f g : Json → String → Json × List Event}

mutual

/-- Only what is made of the references exposed in a node counts for it. -/
theorem mapReferences_congr (node : Json)
    (h : ∀ part reference, Exposed part node → part.IsReference reference →
      f part reference = g part reference) :
    node.mapReferences f = node.mapReferences g := by
  cases node with
  | obj members =>
      by_cases hplain : ∀ reference, ¬ (obj members).IsReference reference
      · have hmembers := mapReferencesInMembers_congr members fun m hm part reference hpart =>
          h part reference (.inside hplain (mem_children_obj.mpr ⟨m.1, rfl, hm⟩) hpart)
        simp only [mapReferences, localReference?_eq_none_iff.mpr hplain, hmembers]
      · push Not at hplain
        obtain ⟨reference, hnode⟩ := hplain
        rw [mapReferences_of_isReference f hnode, mapReferences_of_isReference g hnode]
        exact h _ reference .self hnode
  | arr elements =>
      have hplain : ∀ reference, ¬ (arr elements).IsReference reference := by
        simp [IsReference, get?]
      have helements := mapReferencesInElements_congr elements
        fun child hchild part reference hpart =>
          have ⟨_, hindex⟩ := List.getElem?_of_mem hchild
          h part reference (.inside hplain (mem_children_arr.mpr ⟨_, rfl, hindex⟩) hpart)
      simp only [mapReferences, helements]
  | _ => rfl

theorem mapReferencesInMembers_congr (members : List (String × Json))
    (h : ∀ m ∈ members, ∀ part reference, Exposed part m.2 → part.IsReference reference →
      f part reference = g part reference) :
    mapReferencesInMembers f members = mapReferencesInMembers g members := by
  cases members with
  | nil => rfl
  | cons m rest =>
      obtain ⟨key, child⟩ := m
      have hchild := mapReferences_congr child (h _ List.mem_cons_self)
      have hrest := mapReferencesInMembers_congr rest fun m hm => h m (List.mem_cons_of_mem _ hm)
      simp only [mapReferencesInMembers, hchild, hrest]

theorem mapReferencesInElements_congr (elements : List Json)
    (h : ∀ child ∈ elements, ∀ part reference, Exposed part child →
      part.IsReference reference → f part reference = g part reference) :
    mapReferencesInElements f elements = mapReferencesInElements g elements := by
  cases elements with
  | nil => rfl
  | cons child rest =>
      have hchild := mapReferences_congr child (h _ List.mem_cons_self)
      have hrest := mapReferencesInElements_congr rest fun other hother =>
        h other (List.mem_cons_of_mem _ hother)
      simp only [mapReferencesInElements, hchild, hrest]

end

end

theorem Exposed.localReferences_subset {part node : Json} (h : Exposed part node) :
    part.localReferences ⊆ node.localReferences := by
  induction h with
  | self => exact List.Subset.refl _
  | inside _ hchild _ ih =>
      exact List.Subset.trans ih (localReferences_subset_of_mem_children hchild)

/-- What inlining makes of a task with as many references left as the document has
besides those that are being expanded. -/
def inlineTask (document : Json) (task : Task) : Json × List Event :=
  inlineFrom document (document.localReferences.eraseDups.length - task.followed.length)
    task.followed task.node

theorem obeys_inlineTask (document : Json) : Obeys document (inlineTask document) := by
  intro task harises
  obtain ⟨left, hbudget⟩ := harises.budgeted
  have hcount := hbudget.count
  have hleft : document.localReferences.eraseDups.length - task.followed.length = left := by
    omega
  rw [inlineTask, hleft]
  cases left with
  | zero =>
      -- Nothing is left to follow, so every reference that is met is being expanded.
      rw [inlineFrom]
      refine mapReferences_congr _ fun part reference hpart hreference => ?_
      have hfollowed : reference ∈ task.followed := by
        by_contra hfresh
        have hpos := (hbudget.descend hpart.localReferences_subset).left_pos hreference hfresh
        exact absurd hpos (Nat.lt_irrefl 0)
      rw [follow, if_pos hfollowed]
  | succ left =>
      have hrest :
          document.localReferences.eraseDups.length - (task.followed.length + 1) = left := by
        omega
      rw [inlineFrom]
      refine mapReferences_congr _ fun part reference _ _ => ?_
      by_cases hfollowed : reference ∈ task.followed
      · rw [follow, if_pos hfollowed, if_pos hfollowed]
      · rw [follow, if_neg hfollowed, if_neg hfollowed]
        cases document.target? reference with
        | none => rfl
        | some target =>
            change _ = inlineTask document ⟨reference :: task.followed, target⟩
            rw [inlineTask, List.length_cons, hrest]

/-- Two solutions of the recursion agree on what they make of a reference, by
induction on the calls that a task gives rise to. -/
theorem follow_congr {document : Json} {f g : Task → Json × List Event} (hf : Obeys document f)
    (hg : Obeys document g) {task : Task} (hacc : Acc (flip (CallsFor document)) task)
    (harises : Arises document task) {part : Json} {reference : String}
    (hpart : Exposed part task.node) (hreference : part.IsReference reference) :
    follow document f task.followed part reference =
      follow document g task.followed part reference := by
  induction hacc generalizing part reference with
  | intro task _ ih =>
      obtain ⟨followed, node⟩ := task
      cases hpart with
      | self =>
          by_cases hfollowed : reference ∈ followed
          · simp only [follow, if_pos hfollowed]
          · cases htarget : document.target? reference with
            | none => simp only [follow, if_neg hfollowed, htarget]
            | some target =>
                have hcall : CallsFor document ⟨followed, node⟩ ⟨reference :: followed, target⟩ :=
                  .target hreference hfollowed htarget
                have htask := harises.tail hcall
                simp only [follow, if_neg hfollowed, htarget]
                rw [hf _ htask, hg _ htask]
                exact mapReferences_congr _ fun _ _ => ih _ hcall htask
      | inside hplain hchild hpart =>
          have hcall : CallsFor document ⟨followed, node⟩ ⟨followed, _⟩ := .child hplain hchild
          exact ih _ hcall (harises.tail hcall) hpart hreference

theorem Obeys.eq_inlineReferences {document : Json} {inline : Task → Json × List Event}
    (h : Obeys document inline) : inline (.start document) = document.inlineReferences := by
  have hacc := (Budgeted.start document).acc
  rw [h _ .refl]
  refine (mapReferences_congr _ fun part reference hpart hreference => ?_).trans
    (obeys_inlineTask document _ .refl).symm
  exact follow_congr h (obeys_inlineTask document) hacc .refl hpart hreference

/-- Inlining comes to an end on every document. No chain of nested calls goes on
for ever, and the recursion that the calls follow has a result for the document,
which is the one that inlining gives. The references that are being expanded at
any time are distinct and stand in the document, so that there are never more of
them than the document has. -/
theorem inlineReferences_terminates (document : Json) :
    Acc (flip (CallsFor document)) (.start document) ∧
    (∃ inline, Obeys document inline) ∧
    (∀ inline, Obeys document inline → inline (.start document) = document.inlineReferences) ∧
    ∃ references : List String, references.Nodup ∧
      (∀ reference, reference ∈ references ↔
        ∃ node, PartOf node document ∧ node.IsReference reference) ∧
      ∀ task, Arises document task →
        task.followed.Nodup ∧ task.followed ⊆ references ∧
        task.followed.length ≤ references.length := by
  refine ⟨(Budgeted.start document).acc, ⟨_, obeys_inlineTask document⟩,
    fun inline h => h.eq_inlineReferences, document.localReferences.dedup,
    List.nodup_dedup _, fun reference => ?_, fun task harises => ?_⟩
  · rw [List.mem_dedup, mem_localReferences_iff]
  · obtain ⟨left, hbudget⟩ := harises.budgeted
    have hsubset : task.followed ⊆ document.localReferences.dedup := fun reference h =>
      List.mem_dedup.mpr (hbudget.known h)
    exact ⟨hbudget.nodup, hsubset, hbudget.nodup.length_le_of_subset hsubset⟩

end ApiInterfaces.Json
