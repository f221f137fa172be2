import ApiInterfaces.Proofs.Document.Children

/-!
Document order and partial walks. A walk may leave out what lies below a node,
at any node and for any reason. Whatever it leaves out, it enters the records and
sequences that are below none of these nodes, each once, in document order.
-/

namespace ApiInterfaces.Json

/-- The node one step up a path. Nothing is above the root. -/
def above? (document : Json) (path : List Edge) : Option Json :=
  if path = [] then none else document.at? path.dropLast

/-- The path leads to the root, or to a record or a sequence below it. -/
def IsSite (document : Json) (path : List Edge) : Prop :=
  path = [] ∨ ∃ node, document.at? path = some node ∧ node.isContainer = true

/-- The order of the document: a node stands in front of all that is below it, and
what is below a child in front of what is below later children of the same node. -/
inductive Precedes (document : Json) : List Edge → List Edge → Prop
  | below {path rest : List Edge} : rest ≠ [] → Precedes document path (path ++ rest)
  | beside {path rest others : List Edge} {first second : Edge} {node : Json} :
      document.at? path = some node → [first, second].Sublist node.edges →
      Precedes document (path ++ first :: rest) (path ++ second :: others)

/-- The paths entered at some branches and below them, with the answers given:
below a node that was answered with a skip nothing is entered. -/
inductive Entered : List (Edge × Json) → List (List Edge × Flow) → Prop
  | nil : Entered [] []
  | skipped {edge : Edge} {child : Json} {rest : List (Edge × Json)}
      {more : List (List Edge × Flow)} :
      Entered rest more → Entered ((edge, child) :: rest) (([edge], .skip) :: more)
  | descended {edge : Edge} {child : Json} {rest : List (Edge × Json)}
      {inside more : List (List Edge × Flow)} :
      Entered child.branches inside → Entered rest more →
      Entered ((edge, child) :: rest)
        (([edge], .descend) :: (inside.map (fun e => (edge :: e.1, e.2)) ++ more))

theorem above?_concat (document : Json) (path : List Edge) (edge : Edge) :
    document.above? (path ++ [edge]) = document.at? path := by
  simp [above?]

theorem branches_sublist_children (node : Json) : node.branches.Sublist node.children :=
  List.filter_sublist

theorem DistinctKeys.nodup_branches {node : Json} (h : node.DistinctKeys) :
    (node.branches.map Prod.fst).Nodup :=
  h.nodup_edges.sublist (node.branches_sublist_children.map Prod.fst)

theorem isSite_nil (node : Json) : node.IsSite [] := .inl rfl

section

variable {node child : Json} {edge : Edge} {path rest : List Edge}

theorem DistinctKeys.at?_cons (h : node.DistinctKeys) (hchild : (edge, child) ∈ node.children) :
    node.at? (edge :: rest) = child.at? rest := by
  rw [Json.at?, h.along?_eq_some_iff.mpr hchild, Option.bind_some]

/-- What is below a node is below one of its branches. -/
theorem DistinctKeys.isSite_cons_iff (h : node.DistinctKeys) :
    node.IsSite (edge :: rest) ↔ ∃ child, (edge, child) ∈ node.branches ∧ child.IsSite rest := by
  constructor
  · rintro (habsurd | ⟨target, htarget, hcontainer⟩)
    · simp at habsurd
    · obtain ⟨child, hchild, hrest⟩ := Option.bind_eq_some_iff.mp htarget
      have hmem := mem_children_of_along? hchild
      have hbranch := mem_branches.mpr ⟨hmem, isContainer_of_at? hrest hcontainer⟩
      exact ⟨child, hbranch, .inr ⟨target, hrest, hcontainer⟩⟩
  · rintro ⟨child, hchild, hsite⟩
    obtain ⟨hmem, hcontainer⟩ := mem_branches.mp hchild
    rcases hsite with rfl | ⟨target, htarget, htargetContainer⟩
    · exact .inr ⟨child, by rw [h.at?_cons hmem, Json.at?], hcontainer⟩
    · exact .inr ⟨target, by rw [h.at?_cons hmem, htarget], htargetContainer⟩

theorem DistinctKeys.isSite_cons (h : node.DistinctKeys) (hchild : (edge, child) ∈ node.branches) :
    node.IsSite (edge :: rest) ↔ child.IsSite rest := by
  rw [h.isSite_cons_iff]
  refine ⟨fun ⟨other, hother, hsite⟩ => ?_, fun hsite => ⟨child, hchild, hsite⟩⟩
  have hsame := h.along?_eq_some_iff.mpr (mem_branches.mp hchild).1
  rw [h.along?_eq_some_iff.mpr (mem_branches.mp hother).1] at hsame
  obtain rfl := Option.some.inj hsame
  exact hsite

/-- Order below a child is order below the node. -/
theorem Precedes.cons (h : node.DistinctKeys) (hchild : (edge, child) ∈ node.children)
    {p q : List Edge} (hpq : child.Precedes p q) : node.Precedes (edge :: p) (edge :: q) := by
  cases hpq with
  | @below path rest hrest => exact .below hrest
  | @beside path rest others first second inner hat hedges =>
      have hat' : node.at? (edge :: path) = some inner := by rw [h.at?_cons hchild, hat]
      exact .beside hat' hedges

theorem Precedes.ne (h : node.DistinctKeys) {p q : List Edge} (hpq : node.Precedes p q) :
    p ≠ q := by
  cases hpq with
  | below hrest => simpa using hrest
  | @beside path rest others first second inner hat hedges =>
      intro heq
      obtain ⟨rfl, -⟩ := List.cons.inj (List.append_cancel_left heq)
      have hnodup := (h.at? hat).nodup_edges.sublist hedges
      simp at hnodup

/-- Order of what is below a child is order below the child. -/
theorem Precedes.of_cons (h : node.DistinctKeys) (hchild : node.along? edge = some child)
    {p q : List Edge} (hpq : node.Precedes (edge :: p) (edge :: q)) : child.Precedes p q := by
  generalize hp : edge :: p = path at hpq
  generalize hq : edge :: q = other at hpq
  cases hpq with
  | below hrest =>
      obtain ⟨-, rfl⟩ := List.cons.inj (hp ▸ hq)
      exact .below hrest
  | @beside above rest others first second inner hat hedges =>
      cases above with
      | nil =>
          obtain ⟨rfl, -⟩ := List.cons.inj hp
          obtain ⟨rfl, -⟩ := List.cons.inj hq
          obtain rfl := Option.some.inj hat
          have hnodup := h.nodup_edges.sublist hedges
          simp at hnodup
      | cons top above =>
          obtain ⟨rfl, rfl⟩ := List.cons.inj hp
          obtain ⟨-, rfl⟩ := List.cons.inj hq
          rw [at?, hchild, Option.bind_some] at hat
          exact .beside hat hedges

/-- Of two children, the one that precedes the other stands in front of it. -/
theorem DistinctKeys.sublist_edges_of_precedes (h : node.DistinctKeys) {first second : Edge}
    (hat : node.at? path = some child)
    (hpq : node.Precedes (path ++ [first]) (path ++ [second])) :
    [first, second].Sublist child.edges := by
  induction path generalizing node with
  | nil =>
      obtain rfl := Option.some.inj hat
      generalize hp : [] ++ [first] = p at hpq
      generalize hq : [] ++ [second] = q at hpq
      cases hpq with
      | below hrest => simp [← hp, hrest] at hq
      | @beside above rest others edge edge' inner hinner hedges =>
          cases above with
          | nil =>
              obtain ⟨rfl, -⟩ := List.cons.inj hp
              obtain ⟨rfl, -⟩ := List.cons.inj hq
              obtain rfl := Option.some.inj hinner
              exact hedges
          | cons top above => simp at hp
  | cons edge rest ih =>
      obtain ⟨next, hnext, hrest⟩ := Option.bind_eq_some_iff.mp hat
      exact ih (h.child (mem_children_of_along? hnext)) hrest (hpq.of_cons h hnext)

/-- What is above a record or sequence is one. -/
theorem IsSite.above {above : List Edge} (h : node.IsSite path) (hpre : above <+: path) :
    node.IsSite above := by
  obtain ⟨rest, rfl⟩ := hpre
  rcases h with hnil | ⟨target, htarget, hcontainer⟩
  · exact .inl (List.append_eq_nil_iff.mp hnil).1
  · rw [at?_append] at htarget
    obtain ⟨inner, hinner, hrest⟩ := Option.bind_eq_some_iff.mp htarget
    exact .inr ⟨inner, hinner, isContainer_of_at? hrest hcontainer⟩

end

/-! What is entered. -/

/-- What is entered at a node and below it, by the paths from there. -/
def EnteredFrom (node : Json) (entries : List (List Edge × Flow)) : Prop :=
  entries = [([], .skip)] ∨
    ∃ inside, entries = ([], .descend) :: inside ∧ Entered node.branches inside

namespace Entered

variable {branches : List (Edge × Json)} {entries : List (List Edge × Flow)}

/-- Every path that is entered begins with the edge to one of the branches. -/
theorem exists_cons (h : Entered branches entries) {path : List Edge} {answer : Flow}
    (hpath : (path, answer) ∈ entries) :
    ∃ edge rest, path = edge :: rest ∧ edge ∈ branches.map Prod.fst := by
  induction h with
  | nil => simp at hpath
  | skipped _ ih =>
      rcases List.mem_cons.mp hpath with heq | hpath
      · obtain ⟨rfl, -⟩ := Prod.mk.inj heq
        exact ⟨_, [], rfl, List.mem_cons_self⟩
      · obtain ⟨edge, rest, heq, hedge⟩ := ih hpath
        exact ⟨edge, rest, heq, List.mem_cons_of_mem _ hedge⟩
  | descended _ _ _ ih =>
      rcases List.mem_cons.mp hpath with heq | hpath
      · obtain ⟨rfl, -⟩ := Prod.mk.inj heq
        exact ⟨_, [], rfl, List.mem_cons_self⟩
      · rcases List.mem_append.mp hpath with hinside | hmore
        · obtain ⟨entry, -, heq⟩ := List.mem_map.mp hinside
          obtain ⟨rfl, -⟩ := Prod.mk.inj heq
          exact ⟨_, entry.1, rfl, List.mem_cons_self⟩
        · obtain ⟨edge, rest, heq, hedge⟩ := ih hmore
          exact ⟨edge, rest, heq, List.mem_cons_of_mem _ hedge⟩

theorem cons_not_mem (h : Entered branches entries) {edge : Edge} {path : List Edge}
    {answer : Flow} (hedge : edge ∉ branches.map Prod.fst) : (edge :: path, answer) ∉ entries := by
  intro hpath
  obtain ⟨first, rest, heq, hfirst⟩ := h.exists_cons hpath
  obtain ⟨rfl, -⟩ := List.cons.inj heq
  exact hedge hfirst

/-- The entries under the edge to a branch are what is entered from there. -/
theorem exists_enteredFrom (h : Entered branches entries) (hnodup : (branches.map Prod.fst).Nodup)
    {edge : Edge} {child : Json} (hchild : (edge, child) ∈ branches) :
    ∃ own, EnteredFrom child own ∧
      ∀ path answer, (edge :: path, answer) ∈ entries ↔ (path, answer) ∈ own := by
  induction h with
  | nil => simp at hchild
  | @skipped first other rest more hmore ih =>
      obtain ⟨hfirst, hrest⟩ := List.nodup_cons.mp hnodup
      rcases List.mem_cons.mp hchild with heq | hchild
      · obtain ⟨rfl, rfl⟩ := Prod.mk.inj heq
        refine ⟨_, .inl rfl, fun path answer => ?_⟩
        simp [hmore.cons_not_mem hfirst]
      · obtain ⟨own, hown, hiff⟩ := ih hrest hchild
        have hmem : edge ∈ rest.map Prod.fst := List.mem_map_of_mem hchild
        have hne : edge ≠ first := fun heq => hfirst (heq ▸ hmem)
        exact ⟨own, hown, fun path answer => by simp [hne, hiff]⟩
  | @descended first other rest inside more hinside hmore _ ih =>
      obtain ⟨hfirst, hrest⟩ := List.nodup_cons.mp hnodup
      rcases List.mem_cons.mp hchild with heq | hchild
      · obtain ⟨rfl, rfl⟩ := Prod.mk.inj heq
        refine ⟨_, .inr ⟨inside, rfl, hinside⟩, fun path answer => ?_⟩
        simp [hmore.cons_not_mem hfirst]
      · obtain ⟨own, hown, hiff⟩ := ih hrest hchild
        have hmem : edge ∈ rest.map Prod.fst := List.mem_map_of_mem hchild
        have hne : edge ≠ first := fun heq => hfirst (heq ▸ hmem)
        exact ⟨own, hown, fun path answer => by simp [hne, hne.symm, hiff]⟩

/-- What is entered below a branch stands behind the branch and behind what is
entered below the branches in front of it. -/
theorem precedes_of_mem (h : Entered branches entries) {node child : Json} {edge : Edge}
    (hbranches : ((edge, child) :: branches).Sublist node.children) (path : List Edge)
    {entry : List Edge × Flow} (hentry : entry ∈ entries) :
    node.Precedes (edge :: path) entry.1 := by
  obtain ⟨second, others, heq, hsecond⟩ := h.exists_cons hentry
  have hedges : (edge :: branches.map Prod.fst).Sublist node.edges := hbranches.map Prod.fst
  have hpair : [edge, second].Sublist node.edges :=
    ((List.singleton_sublist.mpr hsecond).cons_cons edge).trans hedges
  have hroot : node.at? [] = some node := rfl
  rw [heq]
  exact .beside hroot hpair

/-- What is entered is entered in the order of the document. -/
theorem pairwise_precedes (h : Entered branches entries) {node : Json}
    (hkeys : node.DistinctKeys) (hbranches : branches.Sublist node.children) :
    (entries.map Prod.fst).Pairwise node.Precedes := by
  induction h generalizing node with
  | nil => exact .nil
  | @skipped edge child rest more hmore ih =>
      have hrest : rest.Sublist node.children := (List.sublist_cons_self _ _).trans hbranches
      refine List.pairwise_cons.mpr ⟨fun path hpath => ?_, ih hkeys hrest⟩
      obtain ⟨entry, hentry, rfl⟩ := List.mem_map.mp hpath
      exact hmore.precedes_of_mem hbranches [] hentry
  | @descended edge child rest inside more hinside hmore ihinside ihmore =>
      have hrest : rest.Sublist node.children := (List.sublist_cons_self _ _).trans hbranches
      have hchild : (edge, child) ∈ node.children := hbranches.subset List.mem_cons_self
      have hbelow := ihinside (hkeys.child hchild) child.branches_sublist_children
      have hbelow' : (inside.map fun e => edge :: e.1).Pairwise node.Precedes := by
        rw [List.pairwise_map] at hbelow ⊢
        exact hbelow.imp fun hpq => hpq.cons hkeys hchild
      -- The branch itself, what is below it, and what is entered after it.
      simp only [List.map_cons, List.map_append, List.map_map, Function.comp_def]
      refine List.pairwise_cons.mpr ⟨fun path hpath => ?_, List.pairwise_append.mpr
        ⟨hbelow', ihmore hkeys hrest, fun path hpath later hlater => ?_⟩⟩
      · rcases List.mem_append.mp hpath with hpath | hpath
        · obtain ⟨⟨path, answer⟩, hentry, rfl⟩ := List.mem_map.mp hpath
          obtain ⟨first, others, rfl, -⟩ := hinside.exists_cons hentry
          exact .below (List.cons_ne_nil _ _)
        · obtain ⟨entry, hentry, rfl⟩ := List.mem_map.mp hpath
          exact hmore.precedes_of_mem hbranches [] hentry
      · obtain ⟨own, -, rfl⟩ := List.mem_map.mp hpath
        obtain ⟨entry, hentry, rfl⟩ := List.mem_map.mp hlater
        exact hmore.precedes_of_mem hbranches own.1 hentry

end Entered

namespace EnteredFrom

variable {node : Json} {entries : List (List Edge × Flow)}

theorem pairwise_precedes (h : EnteredFrom node entries) (hkeys : node.DistinctKeys) :
    (entries.map Prod.fst).Pairwise node.Precedes := by
  rcases h with rfl | ⟨inside, rfl, hinside⟩
  · exact List.pairwise_singleton _ _
  · refine List.pairwise_cons.mpr
      ⟨fun path hpath => ?_, hinside.pairwise_precedes hkeys node.branches_sublist_children⟩
    obtain ⟨⟨path, answer⟩, hentry, rfl⟩ := List.mem_map.mp hpath
    obtain ⟨first, others, rfl, -⟩ := hinside.exists_cons hentry
    exact .below (List.cons_ne_nil _ _)

/-- A record or sequence is entered unless a node above it was answered with a
skip, and nothing else is entered but the root. -/
theorem mem_iff (h : EnteredFrom node entries) (hkeys : node.DistinctKeys) (path : List Edge) :
    path ∈ entries.map Prod.fst ↔ node.IsSite path ∧
      ∀ above, above <+: path → above ≠ path → (above, .skip) ∉ entries := by
  induction path generalizing node entries with
  | nil =>
      have hroot : [] ∈ entries.map Prod.fst := by
        rcases h with rfl | ⟨inside, rfl, -⟩ <;> exact List.mem_cons_self
      have hnone : ∀ above : List Edge, above <+: [] → above ≠ [] → (above, .skip) ∉ entries :=
        fun above hpre hne => absurd (List.prefix_nil.mp hpre) hne
      exact iff_of_true hroot ⟨isSite_nil node, hnone⟩
  | cons edge rest ih =>
      rcases h with rfl | ⟨inside, rfl, hinside⟩
      · -- The node itself was skipped, and it is above all that is below it.
        refine iff_of_false (by simp) fun ⟨_, hopen⟩ => ?_
        exact hopen [] List.nil_prefix (List.cons_ne_nil _ _).symm List.mem_cons_self
      · by_cases hbranch : ∃ child, (edge, child) ∈ node.branches
        · -- All three parts of the statement pass to the branch, with the first edge taken off.
          obtain ⟨child, hchild⟩ := hbranch
          obtain ⟨own, hown, hiff⟩ := hinside.exists_enteredFrom hkeys.nodup_branches hchild
          have hbelow := ih hown (hkeys.child (mem_branches.mp hchild).1)
          have hentered : edge :: rest ∈ (([], Flow.descend) :: inside).map Prod.fst ↔
              rest ∈ own.map Prod.fst := by
            simp [hiff]
          have hopen : (∀ above, above <+: edge :: rest → above ≠ edge :: rest →
                (above, .skip) ∉ ([], Flow.descend) :: inside) ↔
              ∀ above, above <+: rest → above ≠ rest → (above, .skip) ∉ own := by
            constructor
            · intro h above hpre hne hskip
              refine h (edge :: above) (List.cons_prefix_cons.mpr ⟨rfl, hpre⟩) (by simpa) ?_
              exact List.mem_cons_of_mem _ ((hiff above .skip).mpr hskip)
            · intro h above hpre hne hskip
              rcases List.prefix_cons_iff.mp hpre with rfl | ⟨inner, rfl, hinner⟩
              · obtain ⟨first, others, heq, -⟩ := hinside.exists_cons (by simpa using hskip)
                simp at heq
              · refine h inner hinner (by simpa using hne) ?_
                exact (hiff inner .skip).mp (by simpa using hskip)
          rw [hentered, hkeys.isSite_cons hchild, hopen, hbelow]
        · -- No branch begins with the edge, so there is nothing to enter and nothing entered.
          refine iff_of_false (fun hpath => ?_) fun ⟨hsite, _⟩ => ?_
          · obtain ⟨⟨_, answer⟩, hentry, rfl⟩ := List.mem_map.mp hpath
            obtain ⟨first, others, heq, hfirst⟩ := hinside.exists_cons (by simpa using hentry)
            obtain ⟨rfl, -⟩ := List.cons.inj heq
            obtain ⟨⟨_, child⟩, hchild, rfl⟩ := List.mem_map.mp hfirst
            exact hbranch ⟨child, hchild⟩
          · obtain ⟨child, hchild, -⟩ := hkeys.isSite_cons_iff.mp hsite
            exact hbranch ⟨child, hchild⟩

end EnteredFrom

end ApiInterfaces.Json
