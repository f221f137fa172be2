import ApiInterfaces.Proofs.Document.Place
import ApiInterfaces.Proofs.Document.Tour

/-!
What the search of a document finds. The search is a visitor, so it enters the
nodes that the law of walks says it enters; what it adds at each of them depends
on the path to the node alone, because the edges that it keeps are those of the
visits that are open, and the record of operations is open while they lead
through it.
-/

namespace ApiInterfaces.Extraction

/-- The name of the operation at the end of a path. -/
def operationName? : List Edge → Option String
  | [.key outer, .key name] => if outer = "paths" then some name else none
  | _ => none

theorem operationName?_eq_some_iff {path : List Edge} {name : String} :
    operationName? path = some name ↔ path = [.key "paths", .key name] := by
  constructor
  · intro h
    unfold operationName? at h
    split at h
    next outer name' =>
      split at h
      next houter =>
        obtain rfl := Option.some.inj h
        rw [houter]
      next => simp at h
    next => simp at h
  · rintro rfl
    rfl

theorem operationName?_concat (above : List Edge) (edge : Edge) :
    operationName? (above ++ [edge]) = if above = [.key "paths"] then edge.key? else none := by
  match above with
  | [] => cases edge <;> rfl
  | [first] => cases first <;> cases edge <;> simp [operationName?, Edge.key?]
  | first :: second :: rest => simp [operationName?]

/-- The path leads to its node under a key `schema`. -/
def IsSchemaPath (path : List Edge) : Prop := path.getLast? = some (.key "schema")

instance (path : List Edge) : Decidable (IsSchemaPath path) :=
  inferInstanceAs (Decidable (path.getLast? = some (.key "schema")))

/-- What is found as a definition where a node is entered. -/
def definitionAt? (entry : List Edge × Json) : Option (Place × Shape) :=
  if IsSchemaPath entry.1 then some (Place.ofPath entry.1, Shape.ofJson entry.2) else none

def operationAt? (entry : List Edge × Json) : Option (String × Json) :=
  (operationName? entry.1).map fun name => (name, entry.2)

def infoAt? (entry : List Edge × Json) : Option ApiInfo :=
  if entry.1 = [.key "info"] then ApiInfo.ofJson? entry.2 else none

/-- What there is to find at nodes that are entered one after another. -/
def ofEntries (entries : List (List Edge × Json)) : Extraction where
  definitions := Keyed.ofList (entries.filterMap definitionAt?)
  operations := Keyed.ofList (entries.filterMap operationAt?)
  info := entries.findSome? infoAt?

/-- The nodes among placed calls that are entered, with the paths to them. -/
def entriesOf (calls : List (List Edge × Visitor.HookCall)) : List (List Edge × Json) :=
  calls.filterMap fun
    | (opened, .enter visit _) => some (opened.tail, visit.node)
    | (_, .leave _) => none

@[simp] theorem entriesOf_cons_enter (opened : List Edge) (visit : Visit) (answer : Flow)
    (rest : List (List Edge × Visitor.HookCall)) :
    entriesOf ((opened, .enter visit answer) :: rest) =
      (opened.tail, visit.node) :: entriesOf rest := rfl

@[simp] theorem entriesOf_cons_leave (opened : List Edge) (visit : Visit)
    (rest : List (List Edge × Visitor.HookCall)) :
    entriesOf ((opened, .leave visit) :: rest) = entriesOf rest := rfl

theorem definitions_ofEntries_concat (entries : List (List Edge × Json)) (path : List Edge)
    (node : Json) :
    (ofEntries (entries ++ [(path, node)])).definitions =
      if IsSchemaPath path then
        Keyed.put (Place.ofPath path) (Shape.ofJson node) (ofEntries entries).definitions
      else (ofEntries entries).definitions := by
  by_cases h : IsSchemaPath path <;> simp [ofEntries, definitionAt?, h, Keyed.ofList_concat]

theorem operations_ofEntries_concat (entries : List (List Edge × Json)) (path : List Edge)
    (node : Json) :
    (ofEntries (entries ++ [(path, node)])).operations =
      match operationName? path with
      | some name => Keyed.put name node (ofEntries entries).operations
      | none => (ofEntries entries).operations := by
  cases h : operationName? path <;> simp [ofEntries, operationAt?, h, Keyed.ofList_concat]

theorem info_ofEntries_concat (entries : List (List Edge × Json)) (path : List Edge)
    (node : Json) :
    (ofEntries (entries ++ [(path, node)])).info =
      if path = [.key "info"] ∧ (ofEntries entries).info.isNone then ApiInfo.ofJson? node
      else (ofEntries entries).info := by
  by_cases hpath : path = [.key "info"] <;> cases hinfo : entries.findSome? infoAt? <;>
    simp [ofEntries, infoAt?, hpath, hinfo]

/-- A schema is not the metadata, which stands under another key. -/
theorem info_ofEntries_schema (entries : List (List Edge × Json)) {path : List Edge} (node : Json)
    (h : IsSchemaPath path) :
    (ofEntries (entries ++ [(path, node)])).info = (ofEntries entries).info := by
  have hne : path ≠ [.key "info"] := by
    rintro rfl
    simp [IsSchemaPath] at h
  rw [info_ofEntries_concat, if_neg fun hpath => hne hpath.1]

namespace Search

/-! What the search keeps of the open visits. -/

/-- The edges to the record of operations, if the given edges, innermost first, lead to it or
through it. -/
def operationsOn (document : Json) (edges : List Edge) : Option (List Edge) :=
  if edges.getLast? = some (.key "paths") ∧ (document.get? "paths").any Json.isObject then
    some [.key "paths"]
  else none

theorem operationsOn_cons {document : Json} {edges : List Edge} (edge : Edge) (h : edges ≠ []) :
    operationsOn document (edge :: edges) = operationsOn document edges := by
  rw [operationsOn, List.getLast?_cons_of_ne_nil h, operationsOn]

theorem operationsOn_eq_some_iff {document : Json} {edges kept : List Edge} :
    operationsOn document edges = some kept ↔ kept = [.key "paths"] ∧
      edges.getLast? = some (.key "paths") ∧ (document.get? "paths").any Json.isObject := by
  unfold operationsOn
  split
  next h => simp [h, eq_comm]
  next h => simp [h]

/-- The search has gone where the open visits are: it keeps their edges but the root's, and knows
of the record of operations as long as it is inside. -/
structure Follows (document : Json) (opened : List Edge) (s : Search) : Prop where
  edges : s.edges = opened.tail.reverse
  operationsEdges : s.operationsEdges = operationsOn document s.edges

theorem follows_start (document : Json) : Follows document [] {} := ⟨rfl, rfl⟩

theorem found_push (edge : Edge) (s : Search) : (s.push edge).found = s.found := by
  unfold push
  split <;> rfl

theorem found_pop (edge : Edge) (s : Search) : (s.pop edge).found = s.found := by
  unfold pop
  split <;> rfl

theorem found_openOperations (visit : Visit) (s : Search) :
    (openOperations visit s).found = s.found := by
  unfold openOperations
  split <;> rfl

theorem found_closeOperations (s : Search) : s.closeOperations.found = s.found := by
  unfold closeOperations
  split <;> rfl

section

variable {document : Json} {visit : Visit} {opened : List Edge} {s t : Search}
  {before : List (List Edge × Json)}

theorem Follows.congr (h : s.Follows document opened) (hedges : t.edges = s.edges)
    (hoperations : t.operationsEdges = s.operationsEdges) : t.Follows document opened where
  edges := hedges.trans h.edges
  operationsEdges := by rw [hoperations, h.operationsEdges, hedges]

/-- The root has no member above it, and the members of the root are one edge away from it. -/
theorem isTopLevel_iff {key : String} (h : Visitor.Located document opened visit)
    (hedges : s.edges = opened.tail.reverse) :
    s.isTopLevel key visit = true ↔ opened.tail = [.key key] := by
  rcases h.root_or_below with ⟨rfl, hroot⟩ | ⟨above, -, rfl, -, -⟩
  · simp [isTopLevel, hroot, Edge.key?]
  · have hkey : visit.edge.key? = some key ↔ visit.edge = .key key := by
      cases visit.edge <;> simp [Edge.key?]
    cases above with
    | nil => simp [isTopLevel, hedges, hkey]
    | cons first rest => simp [isTopLevel, hedges]

/-- The record of operations comes to the edges where the root's own `paths` is entered. -/
theorem operationsOn_concat {above : List Edge} {parent child : Json} {edge : Edge}
    (hparent : document.at? above = some parent) (hchild : parent.along? edge = some child) :
    operationsOn document (above ++ [edge]).reverse =
      if above ++ [edge] = [.key "paths"] ∧ child.isObject then some (above ++ [edge]).reverse
      else operationsOn document above.reverse := by
  rw [List.reverse_concat]
  cases above with
  | nil =>
      obtain rfl : document = parent := Option.some.inj hparent
      by_cases hpaths : edge = .key "paths"
      · subst hpaths
        have hget : document.get? "paths" = some child := hchild
        simp [operationsOn, hget]
      · simp [operationsOn, hpaths]
  | cons first rest =>
      have hne : (first :: rest).reverse ≠ [] := by simp
      rw [operationsOn_cons edge hne, if_neg (by simp)]

theorem follows_enter (h : Visitor.Located document (opened ++ [visit.edge]) visit)
    (hs : s.Follows document opened) :
    (openOperations visit (s.push visit.edge)).Follows document (opened ++ [visit.edge]) := by
  rcases h.root_or_below with ⟨hroot, hedge⟩ | ⟨above, parent, habove, hne, -, hat, halong⟩
  · -- The root is entered at no edge, and the search keeps none for it.
    obtain rfl : opened = [] := List.append_left_eq_self.mp (hroot.trans (by rw [hedge]))
    have hpush : s.push visit.edge = s := if_pos hedge
    have hkept : openOperations visit s = s := by
      simp [openOperations, isTopLevel, hedge, Edge.key?]
    rw [hpush, hkept, hedge]
    exact ⟨hs.edges, hs.operationsEdges⟩
  · rw [← List.cons_append] at habove
    obtain rfl := List.append_cancel_right habove
    have hkept : s.edges = above.reverse := hs.edges
    have hedges : (s.push visit.edge).edges = (above ++ [visit.edge]).reverse := by
      rw [push, if_neg hne, List.reverse_concat, ← hkept]
    have hoperations : (s.push visit.edge).operationsEdges = operationsOn document above.reverse := by
      rw [push, if_neg hne, ← hkept]
      exact hs.operationsEdges
    have htop : (s.push visit.edge).isTopLevel "paths" visit = true ↔
        above ++ [visit.edge] = [.key "paths"] := isTopLevel_iff h hedges
    have hlast := operationsOn_concat hat halong
    unfold openOperations
    split
    next hopen =>
      obtain ⟨htoplevel, hobject⟩ := Bool.and_eq_true_iff.mp hopen
      rw [if_pos ⟨htop.mp htoplevel, hobject⟩] at hlast
      exact ⟨hedges, by rw [hedges, hlast]⟩
    next hclosed =>
      have hother : ¬ (above ++ [visit.edge] = [.key "paths"] ∧ visit.node.isObject = true) :=
        fun ⟨hpaths, hobject⟩ =>
          hclosed (Bool.and_eq_true_iff.mpr ⟨htop.mpr hpaths, hobject⟩)
      rw [if_neg hother] at hlast
      exact ⟨hedges, by rw [hedges, hlast, hoperations]⟩

theorem follows_leave (h : Visitor.Located document opened visit)
    (hs : s.Follows document opened) :
    (s.closeOperations.pop visit.edge).Follows document opened.dropLast := by
  rcases h.root_or_below with ⟨rfl, hedge⟩ | ⟨above, -, rfl, hne, -, -, -⟩
  · have hedges : s.edges = [] := hs.edges
    have hkept : s.closeOperations = s := by
      rw [closeOperations, hs.operationsEdges, hedges]
      rfl
    rw [hkept, pop, if_pos hedge]
    exact ⟨hedges, hs.operationsEdges⟩
  · have hedges : s.edges = visit.edge :: above.reverse := by
      rw [hs.edges, List.tail_cons, List.reverse_concat]
    have hleft : (s.closeOperations.pop visit.edge).edges = above.reverse := by
      rw [pop, if_neg hne, closeOperations]
      split <;> simp [hedges]
    have habove : (Edge.root :: (above ++ [visit.edge])).dropLast = .root :: above := by
      rw [← List.cons_append, List.dropLast_concat]
    rw [habove]
    refine ⟨hleft, ?_⟩
    have hoperations : (s.closeOperations.pop visit.edge).operationsEdges =
        s.closeOperations.operationsEdges := by
      rw [pop, if_neg hne]
    rw [hoperations, hleft, closeOperations, hs.operationsEdges, hedges]
    split
    next hown =>
      -- The record of operations is left itself, and nothing leads to it any more.
      have hshort := (operationsOn_eq_some_iff.mp hown).1
      obtain ⟨-, hnil⟩ := List.cons.inj hshort
      rw [hnil]
      rfl
    next hother =>
      rw [hs.operationsEdges, hedges]
      cases habove : above.reverse with
      | nil =>
          refine Option.eq_none_iff_forall_ne_some.mpr fun kept hkept => hother ?_
          obtain ⟨rfl, hedge, -⟩ := operationsOn_eq_some_iff.mp hkept
          have hpaths : visit.edge = .key "paths" := Option.some.inj hedge
          rw [habove, hkept, hpaths]
      | cons first rest => exact operationsOn_cons _ (List.cons_ne_nil first rest)

/-! What the search finds at a node. -/

/-- Only a record has members, so a member below `paths` is below the record of operations. -/
theorem operationsOn_eq_parent_iff {above : List Edge} {parent child : Json} {name : String}
    (hparent : document.at? above = some parent) (hchild : parent.along? (.key name) = some child) :
    operationsOn document (.key name :: above.reverse) = some above.reverse ↔
      above = [.key "paths"] := by
  rw [operationsOn_eq_some_iff]
  constructor
  · rintro ⟨hpaths, -⟩
    exact List.reverse_eq_iff.mp hpaths
  · rintro rfl
    have hget : document.get? "paths" = some parent := by simpa [Json.at?, Json.along?] using hparent
    have hrecord : parent.isObject = true := by
      cases parent <;> simp_all [Json.along?, Json.get?, Json.isObject]
    exact ⟨rfl, rfl, by rw [hget]; exact hrecord⟩

/-- The operations are the nodes two keys below the root, the first of them `paths`. -/
theorem noteOperation_eq (h : Visitor.Located document opened visit)
    (hs : s.Follows document opened) :
    noteOperation visit s =
      match operationName? opened.tail with
      | some name => { s with
          found.operations := Keyed.put name visit.node s.found.operations }
      | none => s := by
  rcases h.root_or_below with ⟨rfl, hedge⟩ | ⟨above, parent, rfl, -, hparent, hat, halong⟩
  · simp [noteOperation, hedge, Edge.key?, operationName?]
  · have hedges : s.edges = visit.edge :: above.reverse := by
      rw [hs.edges, List.tail_cons, List.reverse_concat]
    rw [List.tail_cons, operationName?_concat, noteOperation, hparent]
    cases hedge : visit.edge with
    | root => simp [Edge.key?]
    | index i => simp [Edge.key?]
    | key name =>
        rw [hedge] at hedges halong
        have hinside : s.operationsEdges = some s.edges.tail ↔ above = [.key "paths"] := by
          rw [hs.operationsEdges, hedges]
          exact operationsOn_eq_parent_iff hat halong
        by_cases habove : above = [.key "paths"] <;> simp [Edge.key?, hinside, habove]

theorem found_noteOperation (hlocated : Visitor.Located document opened visit)
    (hs : s.Follows document opened) (h : s.found.operations = (ofEntries before).operations) :
    (noteOperation visit s).found = { s.found with
      operations := (ofEntries (before ++ [(opened.tail, visit.node)])).operations } := by
  rw [noteOperation_eq hlocated hs, operations_ofEntries_concat, ← h]
  cases operationName? opened.tail <;> rfl

theorem found_noteDefinition (h : s.found.definitions = (ofEntries before).definitions)
    (hedges : s.edges = opened.tail.reverse) (hschema : IsSchemaPath opened.tail) :
    (noteDefinition visit s).found = { s.found with
      definitions := (ofEntries (before ++ [(opened.tail, visit.node)])).definitions } := by
  have hplace : s.place = Place.ofPath opened.tail := by
    rw [place, hedges, List.reverse_reverse]
    rfl
  rw [definitions_ofEntries_concat, if_pos hschema, ← h, ← hplace]
  rfl

theorem found_noteInfo (hlocated : Visitor.Located document opened visit)
    (hedges : s.edges = opened.tail.reverse) (h : s.found.info = (ofEntries before).info) :
    (noteInfo visit s).found = { s.found with
      info := (ofEntries (before ++ [(opened.tail, visit.node)])).info } := by
  have htop : s.isTopLevel "info" visit = true ↔ opened.tail = [.key "info"] :=
    isTopLevel_iff hlocated hedges
  simp only [info_ofEntries_concat, ← h, ← htop, noteInfo, Bool.and_eq_true]
  split <;> rfl

theorem follows_noteOperation (hs : s.Follows document opened) :
    (noteOperation visit s).Follows document opened := by
  unfold noteOperation
  split
  next => split <;> exact hs.congr rfl rfl
  next => exact hs

theorem follows_noteInfo (hs : s.Follows document opened) :
    (noteInfo visit s).Follows document opened := by
  unfold noteInfo
  split
  next => exact hs.congr rfl rfl
  next => exact hs

theorem key?_eq_schema_iff (h : Visitor.Located document (opened ++ [visit.edge]) visit) :
    visit.edge.key? = some "schema" ↔ IsSchemaPath (opened ++ [visit.edge]).tail := by
  rcases h.root_or_below with ⟨hroot, hedge⟩ | ⟨above, -, hopened, -⟩
  · rw [hroot, hedge]
    decide
  · rw [hopened, List.tail_cons, IsSchemaPath, List.getLast?_concat]
    cases visit.edge <;> simp [Edge.key?]

/-- Entering the node at the end of a path finds what there is to find at it, and
skips what is below a schema. -/
theorem enter_visitor (hlocated : Visitor.Located document (opened ++ [visit.edge]) visit)
    (hs : s.Follows document opened) (hfound : s.found = ofEntries before) :
    (visitor.enter visit s).2.found =
        ofEntries (before ++ [((opened ++ [visit.edge]).tail, visit.node)]) ∧
      (visitor.enter visit s).2.Follows document (opened ++ [visit.edge]) ∧
      ((visitor.enter visit s).1 = .skip ↔ IsSchemaPath (opened ++ [visit.edge]).tail) := by
  have hschema := key?_eq_schema_iff hlocated
  have hentered := follows_enter hlocated hs
  have hkept : (openOperations visit (s.push visit.edge)).found = ofEntries before := by
    rw [found_openOperations, found_push, hfound]
  have hoperation := found_noteOperation hlocated hentered (congrArg Extraction.operations hkept)
  have hfollows := @follows_noteOperation _ visit _ _ hentered
  have hvisit : visitor.enter visit s =
      if visit.edge.key? = some "schema" then
        (.skip, noteDefinition visit
          (noteOperation visit (openOperations visit (s.push visit.edge))))
      else (.descend, noteInfo visit
        (noteOperation visit (openOperations visit (s.push visit.edge)))) := rfl
  rw [hkept] at hoperation
  generalize noteOperation visit (openOperations visit (s.push visit.edge)) = noted
    at hoperation hfollows hvisit
  generalize (opened ++ [visit.edge]) = entered at *
  by_cases h : IsSchemaPath entered.tail
  · have hinfo := info_ofEntries_schema before visit.node h
    have hdefinition := @found_noteDefinition visit entered noted before (by rw [hoperation])
      hfollows.edges h
    rw [hvisit, if_pos (hschema.mpr h)]
    refine ⟨?_, hfollows.congr rfl rfl, iff_of_true rfl h⟩
    simp only [hdefinition, hoperation, ← hinfo]
  · have hdefinitions : (ofEntries (before ++ [(entered.tail, visit.node)])).definitions =
        (ofEntries before).definitions := by
      rw [definitions_ofEntries_concat, if_neg h]
    have hinfo := @found_noteInfo _ visit entered noted before hlocated hfollows.edges
      (by rw [hoperation])
    rw [hvisit, if_neg (hschema.not.mpr h)]
    refine ⟨?_, follows_noteInfo hfollows, iff_of_false nofun h⟩
    simp only [hinfo, hoperation, ← hdefinitions]

end

/-- What the calls of a search find, and when it skips. -/
theorem found_performs {document : Json} {calls : List Visitor.HookCall} {opened : List Edge}
    {s t : Search} {before : List (List Edge × Json)} (h : Visitor.Performs visitor s calls t)
    (hfound : s.found = ofEntries before) (hs : s.Follows document opened)
    (hlocated : ∀ call ∈ Visitor.placed opened calls,
      Visitor.Located document call.1 call.2.visit) :
    t.found = ofEntries (before ++ entriesOf (Visitor.placed opened calls)) ∧
    ∀ e ∈ Visitor.answersOf (Visitor.placed opened calls), e.2 = .skip ↔ IsSchemaPath e.1.tail := by
  induction h generalizing opened before with
  | nil =>
      refine ⟨?_, by simp [Visitor.placed, Visitor.answersOf]⟩
      simpa [Visitor.placed, entriesOf] using hfound
  | @enter s t u visit answer calls henter _ ih =>
      have hown : Visitor.Located document (opened ++ [visit.edge]) visit :=
        hlocated _ List.mem_cons_self
      obtain ⟨hfound', hfollows, hskip⟩ := enter_visitor hown hs hfound
      rw [henter] at hfound' hfollows hskip
      obtain ⟨hrest, hanswers⟩ := ih hfound' hfollows fun call hmem =>
        hlocated call (List.mem_cons_of_mem _ hmem)
      refine ⟨?_, ?_⟩
      · rw [hrest, List.append_assoc, Visitor.placed, entriesOf_cons_enter]
        rfl
      · rw [Visitor.placed, Visitor.answersOf_cons_enter]
        rintro e (_ | ⟨_, he⟩)
        · exact hskip
        · exact hanswers e he
  | @leave s t visit calls _ ih =>
      have hfollows := follows_leave (hlocated (opened, .leave visit) List.mem_cons_self) hs
      have hkept : (visitor.leave visit s).found = ofEntries before :=
        ((found_pop visit.edge _).trans s.found_closeOperations).trans hfound
      exact ih hkept hfollows fun call hmem => hlocated call (List.mem_cons_of_mem _ hmem)

end Search

end ApiInterfaces.Extraction
