import ApiInterfaces.Proofs.Document.Order

/-!
What every walk does, whatever the visitor answers. A walk is a tour of the
branches of a node: the visitor enters each, the walk makes a tour of what is
below unless told to skip it, and the visitor leaves. All laws of walks are
proved of tours, by induction on them.
-/

namespace ApiInterfaces.Visitor

variable {σ : Type}

/-- A call of a hook; an enter is recorded with the answer that it was given. -/
inductive HookCall where
  | enter (visit : Visit) (answer : Flow)
  | leave (visit : Visit)

/-- The visit that a hook is called for. -/
def HookCall.visit : HookCall → Visit
  | .enter visit _ | .leave visit => visit

/-- The visitor that answers as `v` does and keeps a record of the calls. -/
def traced (v : Visitor σ) : Visitor (σ × List HookCall) where
  enter visit s :=
    ((v.enter visit s.1).1, (v.enter visit s.1).2, s.2 ++ [.enter visit (v.enter visit s.1).1])
  leave visit s := (v.leave visit s.1, s.2 ++ [.leave visit])

/-- The calls made on a walk that begins in `s`, in order. -/
def calls (v : Visitor σ) (document : Json) (s : σ) : List HookCall :=
  (v.traced.walk document (s, [])).2

/-- Called one after another, the hooks of `v` answer as recorded and turn the
first state into the last. -/
inductive Performs (v : Visitor σ) : σ → List HookCall → σ → Prop
  | nil {s : σ} : Performs v s [] s
  | enter {s t u : σ} {visit : Visit} {answer : Flow} {calls : List HookCall} :
      v.enter visit s = (answer, t) → Performs v t calls u →
      Performs v s (.enter visit answer :: calls) u
  | leave {s t : σ} {visit : Visit} {calls : List HookCall} :
      Performs v (v.leave visit s) calls t → Performs v s (.leave visit :: calls) t

/-- Each enter is matched by a leave for the same node, parent and edge, and the
calls between the two are matched among themselves. -/
inductive Balanced : List HookCall → Prop
  | nil : Balanced []
  | bracket {visit : Visit} {answer : Flow} {inside rest : List HookCall} :
      Balanced inside → Balanced rest →
      Balanced (.enter visit answer :: (inside ++ .leave visit :: rest))

/-- The calls, each with the edges of the visits that are open at it, the one that
it is a call for included; the innermost is the last. -/
def placed : List Edge → List HookCall → List (List Edge × HookCall)
  | _, [] => []
  | opened, .enter visit answer :: rest =>
      (opened ++ [visit.edge], .enter visit answer) :: placed (opened ++ [visit.edge]) rest
  | opened, .leave visit :: rest => (opened, .leave visit) :: placed opened.dropLast rest

/-- The answers among placed calls. -/
def answersOf (calls : List (List Edge × HookCall)) : List (List Edge × Flow) :=
  calls.filterMap fun
    | (opened, .enter _ answer) => some (opened, answer)
    | (_, .leave _) => none

/-- A walk below a node: each of the branches in turn is entered, walked below
unless the visitor skips it, and left. -/
inductive Tour (v : Visitor σ) : Option Json → List (Edge × Json) → σ → List HookCall → σ → Prop
  | nil {parent : Option Json} {s : σ} : Tour v parent [] s [] s
  | skipped {parent : Option Json} {edge : Edge} {child : Json} {rest : List (Edge × Json)}
      {s t u : σ} {calls : List HookCall} :
      v.enter ⟨child, parent, edge⟩ s = (.skip, t) →
      Tour v parent rest (v.leave ⟨child, parent, edge⟩ t) calls u →
      Tour v parent ((edge, child) :: rest) s
        (.enter ⟨child, parent, edge⟩ .skip :: .leave ⟨child, parent, edge⟩ :: calls) u
  | descended {parent : Option Json} {edge : Edge} {child : Json} {rest : List (Edge × Json)}
      {s t u w : σ} {inside calls : List HookCall} :
      v.enter ⟨child, parent, edge⟩ s = (.descend, t) →
      Tour v (some child) child.branches t inside u →
      Tour v parent rest (v.leave ⟨child, parent, edge⟩ u) calls w →
      Tour v parent ((edge, child) :: rest) s
        (.enter ⟨child, parent, edge⟩ .descend ::
          (inside ++ .leave ⟨child, parent, edge⟩ :: calls)) w

/-! Every walk is a tour. -/

/-- Walks from the branches of a node, one after another. -/
def walkBranches (v : Visitor σ) (parent : Json) : List (Edge × Json) → σ → σ
  | [], s => s
  | (edge, child) :: rest, s =>
      walkBranches v parent rest (v.walkFrom (some parent) edge child s)

theorem walkMembers_eq (v : Visitor σ) (parent : Json) (members : List (String × Json)) (s : σ) :
    v.walkMembers parent members s = v.walkBranches parent (Json.branches (.obj members)) s := by
  rw [Json.branches, Json.children]
  induction members generalizing s with
  | nil => rfl
  | cons m rest ih =>
      obtain ⟨key, child⟩ := m
      rw [walkMembers, List.map_cons, List.filter_cons, ih]
      cases child.isContainer <;> rfl

theorem walkElements_eq (v : Visitor σ) (parent : Json) (index : Nat) (elements : List Json)
    (s : σ) :
    v.walkElements parent index elements s = v.walkBranches parent
      (((elements.zipIdx index).map fun e => (.index e.2, e.1)).filter fun branch =>
        branch.2.isContainer) s := by
  induction elements generalizing index s with
  | nil => rfl
  | cons child rest ih =>
      rw [walkElements, List.zipIdx_cons, List.map_cons, List.filter_cons, ih]
      cases child.isContainer <;> rfl

theorem walkFrom_eq (v : Visitor σ) (parent : Option Json) (edge : Edge) (node : Json) (s : σ) :
    v.walkFrom parent edge node s =
      v.bracket ⟨node, parent, edge⟩ (v.walkBranches node node.branches) s := by
  cases node with
  | obj members =>
      rw [walkFrom]
      congr 1
      funext s
      exact walkMembers_eq v _ members s
  | arr elements =>
      rw [walkFrom]
      congr 1
      funext s
      exact walkElements_eq v _ 0 elements s
  | _ => simp [walkFrom, Json.branches, Json.children, bracket, walkBranches]

section

variable {v : Visitor σ} {visit : Visit} {s t : σ}

theorem bracket_of_skip (h : v.enter visit s = (.skip, t)) (inside : σ → σ) :
    v.bracket visit inside s = v.leave visit t := by
  rw [bracket, h]

theorem bracket_of_descend (h : v.enter visit s = (.descend, t)) (inside : σ → σ) :
    v.bracket visit inside s = v.leave visit (inside t) := by
  rw [bracket, h]

theorem enter_traced {answer : Flow} (h : v.enter visit s = (answer, t))
    (before : List HookCall) :
    v.traced.enter visit (s, before) = (answer, t, before ++ [.enter visit answer]) := by
  simp only [traced, h]

theorem leave_traced (v : Visitor σ) (visit : Visit) (s : σ) (before : List HookCall) :
    v.traced.leave visit (s, before) = (v.leave visit s, before ++ [.leave visit]) := rfl

end

section

variable {v : Visitor σ} {parent : Option Json} {branches others : List (Edge × Json)}
  {s t u : σ} {calls more : List HookCall}

theorem Tour.append (h : Tour v parent branches s calls t) (h' : Tour v parent others t more u) :
    Tour v parent (branches ++ others) s (calls ++ more) u := by
  induction h with
  | nil => exact h'
  | skipped henter _ ih => exact .skipped henter (ih h')
  | descended henter hinside _ _ ih =>
      rw [List.cons_append, List.cons_append, List.append_assoc, List.cons_append]
      exact .descended henter hinside (ih h')

end

/-- The walk from a node makes a tour of it, with the calls that the traced visitor
adds to its record on the same walk. -/
def Toured (v : Visitor σ) (node : Json) : Prop :=
  ∀ parent edge s before, ∃ calls,
    Tour v parent [(edge, node)] s calls (v.walkFrom parent edge node s) ∧
    v.traced.walkFrom parent edge node (s, before) =
      (v.walkFrom parent edge node s, before ++ calls)

theorem exists_tour_walkBranches {v : Visitor σ} (parent : Json) {branches : List (Edge × Json)}
    (hchildren : ∀ edge child, (edge, child) ∈ branches → Toured v child)
    (s : σ) (before : List HookCall) :
    ∃ calls, Tour v (some parent) branches s calls (v.walkBranches parent branches s) ∧
      v.traced.walkBranches parent branches (s, before) =
        (v.walkBranches parent branches s, before ++ calls) := by
  induction branches generalizing s before with
  | nil => exact ⟨[], .nil, by simp [walkBranches]⟩
  | cons branch rest ih =>
      obtain ⟨edge, child⟩ := branch
      obtain ⟨calls, htour, hcalls⟩ := hchildren edge child List.mem_cons_self (some parent) edge s
        before
      obtain ⟨more, hrest, hmore⟩ := ih (fun edge child h => hchildren edge child
        (List.mem_cons_of_mem _ h)) (v.walkFrom (some parent) edge child s) (before ++ calls)
      refine ⟨calls ++ more, htour.append hrest, ?_⟩
      rw [walkBranches, hcalls, hmore, List.append_assoc]
      rfl

theorem toured (v : Visitor σ) (node : Json) : Toured v node := by
  induction node using Json.induction_children with
  | step node ih =>
      -- Both visitors give the same answer, and only the traced one writes it down.
      intro parent edge s before
      rw [walkFrom_eq, walkFrom_eq]
      cases henter : v.enter ⟨node, parent, edge⟩ s with
      | mk answer t =>
          cases answer with
          | skip =>
              rw [bracket_of_skip henter, bracket_of_skip (enter_traced henter before),
                leave_traced, List.append_assoc]
              exact ⟨_, .skipped henter .nil, rfl⟩
          | descend =>
              obtain ⟨inside, htour, hcalls⟩ := exists_tour_walkBranches node
                (fun edge child h => ih edge child (Json.mem_branches.mp h).1) t
                (before ++ [.enter ⟨node, parent, edge⟩ .descend])
              rw [bracket_of_descend henter, bracket_of_descend (enter_traced henter before),
                hcalls, leave_traced, List.append_assoc, List.append_assoc]
              exact ⟨_, .descended henter htour .nil, rfl⟩

/-- The calls of a walk are those of a tour of the document from the root. -/
theorem tour_calls (v : Visitor σ) (document : Json) (s : σ) :
    Tour v none [(.root, document)] s (v.calls document s) (v.walk document s) := by
  obtain ⟨calls, htour, hcalls⟩ := toured v document none .root s []
  have hrecorded : v.calls document s = calls := by
    rw [Visitor.calls, walk, hcalls, List.nil_append]
  rw [hrecorded]
  exact htour

/-! The laws of tours. -/

section

variable {v : Visitor σ} {parent : Option Json} {branches : List (Edge × Json)} {s t u : σ}
  {calls more : List HookCall}

theorem Performs.append (h : Performs v s calls t) (h' : Performs v t more u) :
    Performs v s (calls ++ more) u := by
  induction h with
  | nil => exact h'
  | enter henter _ ih => exact .enter henter (ih h')
  | leave _ ih => exact .leave (ih h')

theorem Tour.performs (h : Tour v parent branches s calls t) : Performs v s calls t := by
  induction h with
  | nil => exact .nil
  | skipped henter _ ih => exact .enter henter (.leave ih)
  | descended henter _ _ ihinside ihrest => exact .enter henter (ihinside.append (.leave ihrest))

theorem Tour.balanced (h : Tour v parent branches s calls t) : Balanced calls := by
  induction h with
  | nil => exact .nil
  | skipped _ _ ih => exact .bracket .nil ih
  | descended _ _ _ ihinside ihrest => exact .bracket ihinside ihrest

/-- Balanced calls leave the visits open that were open before. -/
theorem Balanced.placed_append (h : Balanced calls) (opened : List Edge) (more : List HookCall) :
    placed opened (calls ++ more) = placed opened calls ++ placed opened more := by
  induction h generalizing opened more with
  | nil => rfl
  | @bracket visit answer inside rest _ _ ihinside ihrest =>
      rw [List.cons_append, List.append_assoc, List.cons_append, placed, placed, ihinside,
        ihinside, placed, placed, List.dropLast_concat, ihrest]
      simp

/-- The calls of a visit stand where the visit is, and between them those below it. -/
theorem Balanced.placed_bracket {inside : List HookCall} (h : Balanced inside)
    (opened : List Edge) (visit : Visit) (answer : Flow) (rest : List HookCall) :
    placed opened (.enter visit answer :: (inside ++ .leave visit :: rest)) =
      (opened ++ [visit.edge], .enter visit answer) ::
        (placed (opened ++ [visit.edge]) inside ++
          (opened ++ [visit.edge], .leave visit) :: placed opened rest) := by
  rw [placed, h.placed_append, placed, List.dropLast_concat]

/-- The edges that are open at a call lead from the root to the node that it is a
call for. The last of them is the edge that is reported, and the node one step up is
the parent that is reported. -/
def Located (document : Json) (opened : List Edge) (visit : Visit) : Prop :=
  ∃ path, opened = .root :: path ∧ opened.getLast? = some visit.edge ∧
    document.at? path = some visit.node ∧ visit.parent = document.above? path

theorem located_root (document : Json) : Located document [.root] ⟨document, none, .root⟩ :=
  ⟨[], rfl, rfl, rfl, rfl⟩

/-- A visit is to the root, or to a child of its parent. -/
theorem Located.root_or_below {document : Json} {opened : List Edge} {visit : Visit}
    (h : Located document opened visit) :
    (opened = [.root] ∧ visit.edge = .root) ∨
    ∃ above parent, opened = .root :: (above ++ [visit.edge]) ∧ visit.edge ≠ .root ∧
      visit.parent = some parent ∧ document.at? above = some parent ∧
      parent.along? visit.edge = some visit.node := by
  obtain ⟨path, rfl, hlast, hat, hparent⟩ := h
  rcases List.eq_nil_or_concat path with rfl | ⟨above, edge, rfl⟩
  · exact .inl ⟨rfl, (Option.some.inj hlast).symm⟩
  · rw [List.concat_eq_append] at *
    rw [← List.cons_append, List.getLast?_concat] at hlast
    obtain rfl := Option.some.inj hlast
    have hne : visit.edge ≠ .root := fun hroot =>
      Json.root_not_mem_of_at? hat (hroot ▸ List.mem_append_right above List.mem_cons_self)
    rw [Json.at?_concat] at hat
    obtain ⟨parent, habove, halong⟩ := Option.bind_eq_some_iff.mp hat
    rw [Json.above?_concat, habove] at hparent
    exact .inr ⟨above, parent, rfl, hne, hparent, habove, halong⟩

theorem Located.child {document child : Json} {opened : List Edge} {visit : Visit} {edge : Edge}
    (h : Located document opened visit) (hkeys : document.DistinctKeys)
    (hchild : (edge, child) ∈ visit.node.children) :
    Located document (opened ++ [edge]) ⟨child, some visit.node, edge⟩ := by
  obtain ⟨path, rfl, -, hat, -⟩ := h
  have halong : visit.node.along? edge = some child := (hkeys.at? hat).along?_eq_some_iff.mpr hchild
  refine ⟨path ++ [edge], rfl, List.getLast?_concat, ?_, ?_⟩
  · rw [Json.at?_concat, hat, Option.bind_some, halong]
  · rw [Json.above?_concat, hat]

/-- If each of the branches stands where the open edges lead, then so does every
node that is reported. -/
theorem Tour.located (h : Tour v parent branches s calls t) {document : Json}
    (hkeys : document.DistinctKeys) {opened : List Edge}
    (hbranches : ∀ edge child, (edge, child) ∈ branches →
      Located document (opened ++ [edge]) ⟨child, parent, edge⟩) :
    ∀ call ∈ placed opened calls, Located document call.1 call.2.visit := by
  induction h generalizing opened with
  | nil => simp [placed]
  | skipped _ _ ih =>
      have hown := hbranches _ _ List.mem_cons_self
      have hrest := ih fun edge child hmem => hbranches edge child (List.mem_cons_of_mem _ hmem)
      -- A skip is a bracket with nothing inside.
      rw [← List.nil_append (HookCall.leave _ :: _), Balanced.nil.placed_bracket]
      simpa [placed, HookCall.visit, hown] using hrest
  | descended _ hinside _ ihinside ihrest =>
      -- What is below the branch stands below where the branch itself stands.
      have hown := hbranches _ _ List.mem_cons_self
      have hbelow := ihinside fun edge child hmem => hown.child hkeys (Json.mem_branches.mp hmem).1
      have hrest := ihrest fun edge child hmem => hbranches edge child (List.mem_cons_of_mem _ hmem)
      rw [hinside.balanced.placed_bracket]
      simp only [List.mem_cons, List.mem_append]
      rintro call (rfl | hcall | rfl | hcall)
      · exact hown
      · exact hbelow call hcall
      · exact hown
      · exact hrest call hcall

@[simp] theorem answersOf_cons_enter (opened : List Edge) (visit : Visit) (answer : Flow)
    (rest : List (List Edge × HookCall)) :
    answersOf ((opened, .enter visit answer) :: rest) = (opened, answer) :: answersOf rest := rfl

@[simp] theorem answersOf_cons_leave (opened : List Edge) (visit : Visit)
    (rest : List (List Edge × HookCall)) :
    answersOf ((opened, .leave visit) :: rest) = answersOf rest := rfl

@[simp] theorem answersOf_append (first second : List (List Edge × HookCall)) :
    answersOf (first ++ second) = answersOf first ++ answersOf second :=
  List.filterMap_append

/-- What is entered on a tour. -/
theorem Tour.exists_entered (h : Tour v parent branches s calls t) :
    ∃ entries, Json.Entered branches entries ∧
      ∀ opened, answersOf (placed opened calls) = entries.map fun e => (opened ++ e.1, e.2) := by
  induction h with
  | nil => exact ⟨[], .nil, fun opened => rfl⟩
  | skipped _ _ ih =>
      obtain ⟨more, hmore, hcalls⟩ := ih
      refine ⟨_, .skipped hmore, fun opened => ?_⟩
      rw [← List.nil_append (HookCall.leave _ :: _), Balanced.nil.placed_bracket]
      simp [placed, hcalls]
  | descended _ hinside _ ihinside ihrest =>
      obtain ⟨inside, hbelow, hinsideCalls⟩ := ihinside
      obtain ⟨more, hmore, hcalls⟩ := ihrest
      refine ⟨_, .descended hbelow hmore, fun opened => ?_⟩
      rw [hinside.balanced.placed_bracket]
      simp [hcalls, hinsideCalls]

end

/-- The answers given on a walk, with the paths to the nodes in the order in which
they were entered. -/
def answers (v : Visitor σ) (document : Json) (s : σ) : List (List Edge × Flow) :=
  (answersOf (placed [] (v.calls document s))).map fun e => (e.1.tail, e.2)

theorem enteredFrom_answers (v : Visitor σ) (document : Json) (s : σ) :
    document.EnteredFrom (v.answers document s) := by
  obtain ⟨entries, hentered, hcalls⟩ := (tour_calls v document s).exists_entered
  rw [answers, hcalls []]
  cases hentered with
  | skipped hrest =>
      cases hrest
      exact .inl rfl
  | @descended _ _ _ inside _ hinside hrest =>
      cases hrest
      exact .inr ⟨inside, by simp [Function.comp_def], hinside⟩

/-- Wherever the walk is, the open edges lead to the node that is reported. -/
theorem located_calls {document : Json} (hkeys : document.DistinctKeys) (v : Visitor σ) (s : σ) :
    ∀ call ∈ placed [] (v.calls document s), Located document call.1 call.2.visit := by
  refine (tour_calls v document s).located hkeys fun edge child hmem => ?_
  obtain ⟨rfl, rfl⟩ := Prod.mk.inj (List.mem_singleton.mp hmem)
  exact located_root _

/-- The law of walks, for every visitor. The calls, which are those that the walk
makes, are balanced, and each is for the node to which the edges open at it lead.
A record or sequence is entered exactly if no node above it was answered with a
skip, and once; the root is always entered, and no other scalar is. The nodes are
entered in the order of the document. -/
theorem walk_visits (document : Json) (hkeys : document.DistinctKeys) (v : Visitor σ) (s : σ) :
    let calls := v.calls document s
    let answers := v.answers document s
    Performs v s calls (v.walk document s) ∧
    Balanced calls ∧
    (∀ call ∈ placed [] calls, Located document call.1 call.2.visit) ∧
    (∀ path, path ∈ answers.map Prod.fst ↔ document.IsSite path ∧
      ∀ above, above <+: path → above ≠ path → (above, .skip) ∉ answers) ∧
    (answers.map Prod.fst).Nodup ∧
    (answers.map Prod.fst).Pairwise document.Precedes := by
  have htour := tour_calls v document s
  have hentered := enteredFrom_answers v document s
  have horder := hentered.pairwise_precedes hkeys
  exact ⟨htour.performs, htour.balanced, located_calls hkeys v s, hentered.mem_iff hkeys,
    horder.imp fun hpq => hpq.ne hkeys, horder⟩

/-- A visitor that skips every second node that it enters. -/
def alternating : Visitor Nat where
  enter _ n := (if n % 2 = 1 then .skip else .descend, n + 1)

/-- A skip hides what is below the node that it was the answer for, and nothing
beside it. -/
theorem walk_visits_alternating :
    let document := Json.obj [("a", .obj [("b", .obj [])]), ("c", .arr [.obj [], .null])]
    let entered := (alternating.answers document 0).map Prod.fst
    document.DistinctKeys ∧ entered.Nodup ∧ [.key "a", .key "b"] ∉ entered ∧
      [.key "c", .index 0] ∈ entered := by
  intro document entered
  have hkeys : document.DistinctKeys := by
    have hempty : (Json.obj []).DistinctKeys := .record List.nodup_nil (by simp)
    have hnull : Json.null.DistinctKeys := .scalar rfl
    have hfirst : (Json.obj [("b", .obj [])]).DistinctKeys := .record (by decide) (by simp [hempty])
    have hsecond : (Json.arr [.obj [], .null]).DistinctKeys := .sequence (by simp [hempty, hnull])
    exact .record (by decide) (by simp [hfirst, hsecond])
  have hkept : [.key "c", .index 0] ∈ entered := by decide
  have hskip : ([.key "a"], .skip) ∈ alternating.answers document 0 := by decide
  obtain ⟨-, -, -, hentered, hnodup, -⟩ := walk_visits document hkeys alternating 0
  refine ⟨hkeys, hnodup, fun hmem => ?_, hkept⟩
  exact ((hentered _).mp hmem).2 [.key "a"] (by decide) (by decide) hskip

end ApiInterfaces.Visitor
