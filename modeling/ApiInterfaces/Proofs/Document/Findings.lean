import ApiInterfaces.Proofs.Document.Search
import Mathlib.Data.List.Sort

/-!
The meaning of an extraction. What the search finds is stated of the document alone,
without the walk: the definitions are the outermost nodes under a key `schema`, the
operations are members of the root's `paths`, and the metadata is the root's `info`.
-/

namespace ApiInterfaces.Extraction

/-- Nothing above the end of the path is under a key `schema`. -/
def IsOutermost (path : List Edge) : Prop :=
  ∀ above, above <+: path → above ≠ path → ¬ IsSchemaPath above

/-- The members of the root's `paths` that are records or sequences. -/
def declaredOperations (document : Json) : List (String × Json) :=
  match document.get? "paths" with
  | some (.obj members) => members.filter fun m => m.2.isContainer
  | _ => []

/-- The metadata in the root's `info`, if that is a record or a sequence. -/
def declaredInfo? (document : Json) : Option ApiInfo :=
  ((document.get? "info").filter Json.isContainer).bind ApiInfo.ofJson?

/-! The nodes that the search enters. -/

/-- The nodes that the search of a document enters, with the paths to them. -/
def entries (document : Json) : List (List Edge × Json) :=
  entriesOf (Visitor.placed [] (Search.visitor.calls document {}))

theorem map_fst_entriesOf (calls : List (List Edge × Visitor.HookCall)) :
    (entriesOf calls).map Prod.fst = (Visitor.answersOf calls).map fun e => e.1.tail := by
  induction calls with
  | nil => rfl
  | cons call rest ih =>
      obtain ⟨opened, call⟩ := call
      cases call with
      | enter visit answer => simpa using ih
      | leave visit => simpa using ih

theorem mem_entriesOf {calls : List (List Edge × Visitor.HookCall)} {path : List Edge}
    {node : Json} (h : (path, node) ∈ entriesOf calls) :
    ∃ call ∈ calls, call.1.tail = path ∧ call.2.visit.node = node := by
  obtain ⟨⟨opened, call⟩, hmem, hcall⟩ := List.mem_filterMap.mp h
  cases call with
  | enter visit answer =>
      obtain ⟨rfl, rfl⟩ := Prod.mk.inj (Option.some.inj hcall)
      exact ⟨_, hmem, rfl, rfl⟩
  | leave visit => simp at hcall

theorem map_fst_entries (document : Json) :
    (entries document).map Prod.fst = (Search.visitor.answers document {}).map Prod.fst := by
  rw [entries, map_fst_entriesOf, Visitor.answers, List.map_map]
  rfl

section

variable {document node : Json} {path : List Edge}

theorem found_and_skipped (hkeys : document.DistinctKeys) :
    (ofDocument document).1 = ofEntries (entries document) ∧
      ∀ e ∈ Search.visitor.answers document {}, e.2 = .skip ↔ IsSchemaPath e.1 := by
  have hcalls := (Visitor.tour_calls Search.visitor document {}).performs
  have hstart : ({} : Search).found = ofEntries [] := rfl
  obtain ⟨hfound, hskip⟩ := Search.found_performs hcalls hstart (Search.follows_start document)
    (Visitor.located_calls hkeys _ _)
  refine ⟨hfound, fun e he => ?_⟩
  obtain ⟨call, hcall, rfl⟩ := List.mem_map.mp he
  exact hskip call hcall

theorem at?_of_mem_entries (hkeys : document.DistinctKeys) (h : (path, node) ∈ entries document) :
    document.at? path = some node := by
  obtain ⟨call, hcall, rfl, rfl⟩ := mem_entriesOf h
  obtain ⟨path, hpath, -, hat, -⟩ := Visitor.located_calls hkeys _ _ call hcall
  rw [hpath]
  exact hat

theorem pairwise_precedes_entries (hkeys : document.DistinctKeys) :
    ((entries document).map Prod.fst).Pairwise document.Precedes := by
  rw [map_fst_entries]
  exact (Visitor.enteredFrom_answers _ _ _).pairwise_precedes hkeys

/-- The search enters every record and every sequence that is not inside a schema. -/
theorem mem_map_fst_entries (hkeys : document.DistinctKeys) :
    path ∈ (entries document).map Prod.fst ↔ document.IsSite path ∧ IsOutermost path := by
  have hentered := (Visitor.enteredFrom_answers Search.visitor document {}).mem_iff hkeys
  have hskip := (found_and_skipped hkeys).2
  rw [map_fst_entries, hentered]
  refine and_congr_right fun hsite => ⟨fun hopen above hpre hne hschema => ?_,
    fun houter above hpre hne hmem => ?_⟩
  · -- The node above would be entered itself, and skipped.
    have habove : above ∈ (Search.visitor.answers document {}).map Prod.fst := by
      refine (hentered above).mpr ⟨hsite.above hpre, fun top htop hne' hmem => ?_⟩
      have htopne : top ≠ path := by
        rintro rfl
        exact hne (hpre.eq_of_length_le htop.length_le)
      exact hopen top (htop.trans hpre) htopne hmem
    obtain ⟨⟨_, answer⟩, hanswer, rfl⟩ := List.mem_map.mp habove
    obtain rfl : answer = .skip := (hskip _ hanswer).mpr hschema
    exact hopen _ hpre hne hanswer
  · exact houter above hpre hne ((hskip _ hmem).mp rfl)

/-- Below the root, the nodes that the search enters are the records and sequences
that are not inside a schema. -/
theorem mem_entries_iff (hkeys : document.DistinctKeys) (hpath : path ≠ []) :
    (path, node) ∈ entries document ↔
      document.at? path = some node ∧ node.isContainer = true ∧ IsOutermost path := by
  constructor
  · intro h
    have hat := at?_of_mem_entries hkeys h
    obtain ⟨hsite, houter⟩ := (mem_map_fst_entries hkeys).mp (List.mem_map_of_mem h)
    obtain ⟨target, htarget, hcontainer⟩ := hsite.resolve_left hpath
    rw [hat] at htarget
    obtain rfl := Option.some.inj htarget
    exact ⟨hat, hcontainer, houter⟩
  · rintro ⟨hat, hcontainer, houter⟩
    have hmem := (mem_map_fst_entries hkeys).mpr ⟨.inr ⟨node, hat, hcontainer⟩, houter⟩
    obtain ⟨⟨_, target⟩, htarget, rfl⟩ := List.mem_map.mp hmem
    have hsame := at?_of_mem_entries hkeys htarget
    rw [hat] at hsame
    obtain rfl := Option.some.inj hsame
    exact htarget

/-! The definitions. -/

/-- The nodes that the search enters under a key `schema`, with the paths to them. -/
def sites (document : Json) : List (List Edge × Json) :=
  (entries document).filter fun entry => IsSchemaPath entry.1

theorem mem_sites_iff (hkeys : document.DistinctKeys) :
    (path, node) ∈ sites document ↔
      document.at? path = some node ∧ node.isContainer = true ∧ IsSchemaPath path ∧
        IsOutermost path := by
  rw [sites, List.mem_filter, decide_eq_true_iff]
  have hroot : IsSchemaPath path → path ≠ [] := by
    rintro hschema rfl
    simp [IsSchemaPath] at hschema
  constructor
  · rintro ⟨hmem, hschema⟩
    obtain ⟨hat, hcontainer, houter⟩ := (mem_entries_iff hkeys (hroot hschema)).mp hmem
    exact ⟨hat, hcontainer, hschema, houter⟩
  · rintro ⟨hat, hcontainer, hschema, houter⟩
    exact ⟨(mem_entries_iff hkeys (hroot hschema)).mpr ⟨hat, hcontainer, houter⟩, hschema⟩

theorem pairwise_precedes_sites (hkeys : document.DistinctKeys) :
    ((sites document).map Prod.fst).Pairwise document.Precedes :=
  (pairwise_precedes_entries hkeys).sublist (List.filter_sublist.map Prod.fst)

theorem filterMap_definitionAt? (entries : List (List Edge × Json)) :
    entries.filterMap definitionAt? =
      (entries.filter fun entry => IsSchemaPath entry.1).map fun site =>
        (Place.ofPath site.1, Shape.ofJson site.2) := by
  induction entries with
  | nil => rfl
  | cons entry rest ih => by_cases h : IsSchemaPath entry.1 <;> simp [definitionAt?, h, ih]

/-- No two definitions are in the same place. -/
theorem nodup_places (hkeys : document.DistinctKeys) :
    (Keyed.keys ((sites document).map fun site =>
      (Place.ofPath site.1, Shape.ofJson site.2))).Nodup := by
  have hpaths : ((sites document).map Prod.fst).Nodup :=
    (pairwise_precedes_sites hkeys).imp fun hpq => hpq.ne hkeys
  have hplaces : (((sites document).map Prod.fst).map Place.ofPath).Nodup := by
    refine List.Nodup.map_on (fun path hpath other hother hsame => ?_) hpaths
    obtain ⟨⟨_, node⟩, hnode, rfl⟩ := List.mem_map.mp hpath
    obtain ⟨⟨_, target⟩, htarget, rfl⟩ := List.mem_map.mp hother
    exact Json.eq_of_ofPath_eq ((mem_sites_iff hkeys).mp hnode).1
      ((mem_sites_iff hkeys).mp htarget).1 hsame
  simpa [Keyed.keys, Function.comp_def] using hplaces

/-! The operations. -/

theorem isOutermost_of_not_mem (h : .key "schema" ∉ path.dropLast) : IsOutermost path := by
  rintro above ⟨rest, rfl⟩ hne hschema
  have hrest : rest ≠ [] := fun hnil => hne (by simp [hnil])
  rw [List.dropLast_append_of_ne_nil hrest] at h
  exact h (List.mem_append_left _ (List.mem_of_getLast? hschema))

theorem mem_filterMap_operationAt? {entries : List (List Edge × Json)} {name : String} :
    (name, node) ∈ entries.filterMap operationAt? ↔
      ([.key "paths", .key name], node) ∈ entries := by
  simp only [List.mem_filterMap, operationAt?, Option.map_eq_some_iff,
    operationName?_eq_some_iff, Prod.mk.injEq, Prod.exists]
  constructor
  · rintro ⟨path, target, hmem, name', rfl, rfl, rfl⟩
    exact hmem
  · intro hmem
    exact ⟨_, node, hmem, name, rfl, rfl, rfl⟩

theorem mem_operations_iff (hkeys : document.DistinctKeys) {name : String} :
    (name, node) ∈ (entries document).filterMap operationAt? ↔
      document.at? [.key "paths", .key name] = some node ∧ node.isContainer = true := by
  have houter : IsOutermost [.key "paths", .key name] := isOutermost_of_not_mem (by simp)
  rw [mem_filterMap_operationAt?, mem_entries_iff hkeys (List.cons_ne_nil _ _)]
  simp [houter]

/-- Of two elements of a list without duplicates, one stands in front. -/
theorem not_sublist_swap {α : Type} {l : List α} {a b : α} (h : l.Nodup)
    (hab : [a, b].Sublist l) : ¬ [b, a].Sublist l := by
  induction l with
  | nil => simp
  | cons first rest ih =>
      obtain ⟨hfirst, hrest⟩ := List.nodup_cons.mp h
      intro hba
      cases hab with
      | cons _ hab =>
          cases hba with
          | cons _ hba => exact ih hrest hab hba
          | cons_cons _ hba => exact hfirst (hab.subset (by simp))
      | cons_cons _ hab =>
          cases hba with
          | cons _ hba => exact hfirst (hba.subset (by simp))
          | cons_cons _ hba => exact hfirst (hab.subset (by simp))

/-- Lists with the same elements in the order of one list are the same. -/
theorem eq_of_pairwise_sublist {α β : Type} {l : List β} (hl : l.Nodup) {f : α → β}
    {xs ys : List α} (hxs : xs.Pairwise fun a b => [f a, f b].Sublist l)
    (hys : ys.Pairwise fun a b => [f a, f b].Sublist l) (h : ∀ a, a ∈ xs ↔ a ∈ ys) : xs = ys := by
  have hne : ∀ {a b : α}, [f a, f b].Sublist l → a ≠ b := by
    rintro a _ hsub rfl
    have hnodup := hl.sublist hsub
    simp at hnodup
  have hperm : xs.Perm ys := (List.perm_ext_iff_of_nodup (hxs.imp hne) (hys.imp hne)).mpr h
  exact hperm.eq_of_pairwise (fun _ _ _ _ hab hba => absurd hba (not_sublist_swap hl hab)) hxs hys

theorem pairwise_operations (hkeys : document.DistinctKeys)
    (hpaths : document.at? [.key "paths"] = some node) :
    ((entries document).filterMap operationAt?).Pairwise fun m m' =>
      [Edge.key m.1, .key m'.1].Sublist node.edges := by
  have horder := List.pairwise_map.mp (pairwise_precedes_entries hkeys)
  refine List.pairwise_filterMap.mpr (horder.imp fun {e e'} hpq m hm m' hm' => ?_)
  obtain ⟨name, hname, rfl⟩ := Option.map_eq_some_iff.mp hm
  obtain ⟨name', hname', rfl⟩ := Option.map_eq_some_iff.mp hm'
  rw [operationName?_eq_some_iff.mp hname, operationName?_eq_some_iff.mp hname'] at hpq
  exact hkeys.sublist_edges_of_precedes hpaths hpq

/-- The search finds the operations in the order of the members of `paths`. -/
theorem operations_eq (hkeys : document.DistinctKeys) :
    (entries document).filterMap operationAt? = declaredOperations document := by
  have hat : ∀ name, document.at? [.key "paths", .key name] =
      (document.get? "paths").bind (·.get? name) := by
    intro name
    simp only [Json.at?, Json.along?]
    cases document.get? "paths" with
    | none => rfl
    | some paths => cases h : paths.get? name <;> simp [h]
  rw [declaredOperations]
  split
  next members hpaths =>
    have hrecord : document.at? [.key "paths"] = some (.obj members) := by
      simp [Json.at?, Json.along?, hpaths]
    have hmembers := hkeys.at? hrecord
    -- Both lists have the same members, in the order of the keys of `paths`.
    refine eq_of_pairwise_sublist (f := fun m => Edge.key m.1) hmembers.nodup_edges
      (pairwise_operations hkeys hrecord) ?_ ?_
    · have hfilter : (members.filter fun m => m.2.isContainer).Sublist members :=
        List.filter_sublist
      refine List.pairwise_iff_forall_sublist.mpr fun {m m'} hsub => ?_
      have hedges := (hsub.trans hfilter).map fun m => Edge.key m.1
      simpa [Json.edges, Json.children, Function.comp_def] using hedges
    · rintro ⟨name, node⟩
      have hmember : Json.get? name (.obj members) = some node ↔ (name, node) ∈ members := by
        have halong : Json.along? (.obj members) (.key name) = some node ↔
            (.key name, node) ∈ (Json.obj members).children := hmembers.along?_eq_some_iff
        simpa [Json.along?, Json.mem_children_obj] using halong
      rw [mem_operations_iff hkeys, List.mem_filter, hat, hpaths, Option.bind_some, hmember]
  next hother =>
    refine List.eq_nil_iff_forall_not_mem.mpr ?_
    rintro ⟨name, node⟩ hmem
    obtain ⟨hfound, -⟩ := (mem_operations_iff hkeys).mp hmem
    rw [hat] at hfound
    obtain ⟨paths, hpaths, hmember⟩ := Option.bind_eq_some_iff.mp hfound
    -- Only a record has a child under a key.
    cases paths with
    | obj members => exact hother members hpaths
    | _ => simp [Json.get?] at hmember

theorem nodup_declaredOperations (hkeys : document.DistinctKeys) :
    (Keyed.keys (declaredOperations document)).Nodup := by
  rw [declaredOperations]
  split
  next members hpaths =>
    have hrecord : document.at? [.key "paths"] = some (.obj members) := by
      simp [Json.at?, Json.along?, hpaths]
    exact (hkeys.at? hrecord).nodup_keys.sublist (List.filter_sublist.map Prod.fst)
  next => exact List.nodup_nil

/-! The metadata. -/

theorem mem_entries_info_iff (hkeys : document.DistinctKeys) :
    ([.key "info"], node) ∈ entries document ↔
      (document.get? "info").filter Json.isContainer = some node := by
  have houter : IsOutermost [.key "info"] := isOutermost_of_not_mem (by simp)
  rw [mem_entries_iff hkeys (List.cons_ne_nil _ _)]
  simp [houter, Json.at?, Json.along?, Option.filter_eq_some_iff]

theorem infoAt?_of_ne {entry : List Edge × Json} (h : entry.1 ≠ [.key "info"]) :
    infoAt? entry = none :=
  if_neg h

/-- The search finds the metadata at the one node that can hold it. -/
theorem info_eq (hkeys : document.DistinctKeys) :
    (entries document).findSome? infoAt? = declaredInfo? document := by
  rw [declaredInfo?]
  cases hinfo : (document.get? "info").filter Json.isContainer with
  | none =>
      refine List.findSome?_eq_none_iff.mpr ?_
      rintro ⟨path, node⟩ hmem
      refine infoAt?_of_ne ?_
      rintro rfl
      simp [(mem_entries_info_iff hkeys).mp hmem] at hinfo
  | some node =>
      -- There is one entry to read the metadata from, so it does not matter which is tried first.
      have hmem := (mem_entries_info_iff hkeys).mpr hinfo
      rw [Option.bind_some]
      cases hfound : (entries document).findSome? infoAt? with
      | none => exact (List.findSome?_eq_none_iff.mp hfound _ hmem).symm
      | some info =>
          obtain ⟨⟨path, other⟩, hother, hread⟩ := List.exists_of_findSome?_eq_some hfound
          have hpath : path = [.key "info"] := by
            by_contra hne
            rw [infoAt?_of_ne hne] at hread
            simp at hread
          subst hpath
          rw [(mem_entries_info_iff hkeys).mp hother] at hinfo
          obtain rfl := Option.some.inj hinfo
          exact hread.symm

end

/-- What an extraction finds in a document. The definitions are the records and
sequences under a key `schema` that are not inside another such node, in document
order, each read at the place that leads to it and no two at one place; the
operations and the metadata are those that the root declares. -/
theorem ofDocument_finds (document : Json) (hkeys : document.DistinctKeys) :
    let found := (ofDocument document).1
    (∃ sites : List (List Edge × Json),
      found.definitions = sites.map (fun site => (Place.ofPath site.1, Shape.ofJson site.2)) ∧
      (∀ path node, (path, node) ∈ sites ↔
        document.at? path = some node ∧ node.isContainer = true ∧ IsSchemaPath path ∧
          IsOutermost path) ∧
      (sites.map Prod.fst).Pairwise document.Precedes ∧
      ∀ site ∈ sites, document.descend? (Place.ofPath site.1) = some site.2) ∧
    (Keyed.keys found.definitions).Nodup ∧
    found.operations = declaredOperations document ∧
    found.info = declaredInfo? document := by
  have hplaces := nodup_places hkeys
  have hdefinitions : (ofDocument document).1.definitions =
      (sites document).map fun site => (Place.ofPath site.1, Shape.ofJson site.2) := by
    rw [(found_and_skipped hkeys).1, ofEntries, filterMap_definitionAt?]
    exact Keyed.ofList_of_nodup hplaces
  have hoperations : (ofDocument document).1.operations = declaredOperations document := by
    rw [(found_and_skipped hkeys).1, ofEntries, operations_eq hkeys]
    exact Keyed.ofList_of_nodup (nodup_declaredOperations hkeys)
  have hinfo : (ofDocument document).1.info = declaredInfo? document := by
    rw [(found_and_skipped hkeys).1, ofEntries, info_eq hkeys]
  refine ⟨⟨sites document, hdefinitions, fun path node => mem_sites_iff hkeys,
    pairwise_precedes_sites hkeys, fun site hsite => ?_⟩, ?_, hoperations, hinfo⟩
  · exact Json.descend?_ofPath ((mem_sites_iff hkeys).mp hsite).1
  · rw [hdefinitions]
    exact hplaces

/-- A schema inside a schema defines nothing of its own, a scalar below `paths` is no
operation, and there is no metadata in a scalar. -/
theorem ofDocument_finds_outermost :
    let schema := Json.obj [("schema", .obj [])]
    let operation := Json.obj [("schema", schema)]
    let document := Json.obj [("paths", .obj [("/a", operation), ("/b", .null)]), ("info", .null)]
    let found := (ofDocument document).1
    document.DistinctKeys ∧
    (["paths", "/a", "schema"], Shape.ofJson schema) ∈ found.definitions ∧
    ["paths", "/a", "schema", "schema"] ∉ Keyed.keys found.definitions ∧
    found.operations = [("/a", operation)] ∧ found.info = none := by
  intro schema operation document found
  have hkeys : document.DistinctKeys := by
    have hnull : Json.null.DistinctKeys := .scalar rfl
    have hempty : (Json.obj []).DistinctKeys := .record List.nodup_nil (by simp)
    have hschema : schema.DistinctKeys := .record (by decide) (by simp [hempty])
    have hoperation : operation.DistinctKeys := .record (by decide) (by simp [hschema])
    have hpaths : (Json.obj [("/a", operation), ("/b", .null)]).DistinctKeys :=
      .record (by decide) (by simp [hoperation, hnull])
    exact .record (by decide) (by simp [hpaths, hnull])
  obtain ⟨⟨sites, hdefinitions, hsites, -⟩, -, hoperations, hinfo⟩ :=
    ofDocument_finds document hkeys
  let outer : List Edge := [.key "paths", .key "/a", .key "schema"]
  have hmem : (outer, schema) ∈ sites :=
    (hsites _ _).mpr ⟨rfl, rfl, rfl, isOutermost_of_not_mem (by decide)⟩
  have hinner : document.at? (outer ++ [.key "schema"]) = some (.obj []) := rfl
  rw [hdefinitions]
  refine ⟨hkeys, List.mem_map_of_mem hmem, fun hplace => ?_, hoperations, hinfo⟩
  obtain ⟨_, hdefinition, hsame⟩ := List.mem_map.mp hplace
  obtain ⟨⟨path, node⟩, hsite, rfl⟩ := List.mem_map.mp hdefinition
  obtain ⟨hat, -, -, houter⟩ := (hsites path node).mp hsite
  obtain rfl := Json.eq_of_ofPath_eq hat hinner hsame
  exact houter outer (List.prefix_append _ _) (by decide) rfl

end ApiInterfaces.Extraction
