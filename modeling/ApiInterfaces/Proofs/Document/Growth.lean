import ApiInterfaces.Proofs.Document.Findings

/-!
Documents that grow at their end. A new last member of a record that lies at the end
of its document, and not inside a schema, leaves what the search enters as it was and
adds to it behind: the nodes of the grown document come after all those that were
there before.
-/

namespace ApiInterfaces

namespace Keyed

variable {κ α : Type} [DecidableEq κ]

theorem get?_append (key : κ) (first second : List (κ × α)) :
    get? key (first ++ second) = (get? key first).or (get? key second) := by
  induction first with
  | nil => simp [get?]
  | cons entry rest ih =>
      obtain ⟨k, v⟩ := entry
      by_cases hk : k = key
      · simp [get?, hk]
      · simp only [List.cons_append, get?, hk, if_false, ih]

end Keyed

namespace Json

open Extraction

/-- The second document is the first with one member more, under a new key, at the
end of a record. The record is reached through last members and last elements only,
none of them a schema. -/
inductive Grows : Json → Json → Prop
  | member {members : List (String × Json)} {key : String} {value : Json} :
      key ∉ Keyed.keys members → value.DistinctKeys →
      Grows (.obj members) (.obj (members ++ [(key, value)]))
  | underKey {members : List (String × Json)} {key : String} {child grown : Json} :
      key ≠ "schema" → Grows child grown →
      Grows (.obj (members ++ [(key, child)])) (.obj (members ++ [(key, grown)]))
  | underIndex {elements : List Json} {child grown : Json} :
      Grows child grown → Grows (.arr (elements ++ [child])) (.arr (elements ++ [grown]))

namespace Grows

variable {document later : Json}

theorem isContainer_left (h : document.Grows later) : document.isContainer = true := by
  cases h <;> rfl

theorem isContainer_right (h : document.Grows later) : later.isContainer = true := by
  cases h <;> rfl

/-- The keys of a grown document are distinct as well. -/
theorem distinctKeys (h : document.Grows later) (hkeys : document.DistinctKeys) :
    later.DistinctKeys := by
  induction h with
  | @member members key value hnew hvalue =>
      refine .record ?_ ?_
      · rw [Keyed.keys, List.map_append, List.map_cons, List.map_nil, ← List.concat_eq_append]
        exact hkeys.nodup_keys.concat hnew
      · intro m hm
        rcases List.mem_append.mp hm with hm | hm
        · exact hkeys.child (mem_children_obj.mpr ⟨m.1, rfl, hm⟩)
        · obtain rfl := List.mem_singleton.mp hm
          exact hvalue
  | @underKey members key child grown _ _ ih =>
      have hchild : child.DistinctKeys :=
        hkeys.child (mem_children_obj.mpr ⟨key, rfl, by simp⟩)
      refine .record ?_ ?_
      · simpa [Keyed.keys] using hkeys.nodup_keys
      · intro m hm
        rcases List.mem_append.mp hm with hm | hm
        · exact hkeys.child (mem_children_obj.mpr ⟨m.1, rfl, List.mem_append_left _ hm⟩)
        · obtain rfl := List.mem_singleton.mp hm
          exact ih hchild
  | @underIndex elements child grown _ ih =>
      have hall : ∀ element ∈ elements ++ [child], element.DistinctKeys := by
        intro element helement
        obtain ⟨index, hget⟩ := List.mem_iff_getElem?.mp helement
        exact hkeys.child (mem_children_arr.mpr ⟨index, rfl, hget⟩)
      refine .sequence ?_
      intro element helement
      rcases List.mem_append.mp helement with helement | helement
      · exact hall element (List.mem_append_left _ helement)
      · obtain rfl := List.mem_singleton.mp helement
        exact ih (hall child (by simp))

/-- What is inside a schema is the same in both documents. -/
theorem at?_eq (h : document.Grows later) {path : List Edge} {node : Json}
    (hschema : .key "schema" ∈ path) (hat : document.at? path = some node) :
    later.at? path = some node := by
  induction h generalizing path with
  | @member members key value =>
      cases path with
      | nil => simp at hschema
      | cons edge rest =>
          obtain ⟨next, hnext, hrest⟩ := Option.bind_eq_some_iff.mp hat
          have hsame : (obj (members ++ [(key, value)])).along? edge = some next := by
            cases edge with
            | key name =>
                have hget : Keyed.get? name members = some next := hnext
                show Keyed.get? name (members ++ [(key, value)]) = some next
                rw [Keyed.get?_append, hget, Option.some_or]
            | _ => simp [along?, element?] at hnext
          rw [at?, hsame, Option.bind_some, hrest]
  | @underKey members key child grown hkey _ ih =>
      cases path with
      | nil => simp at hschema
      | cons edge rest =>
          obtain ⟨next, hnext, hrest⟩ := Option.bind_eq_some_iff.mp hat
          cases edge with
          | key name =>
              have hget : Keyed.get? name (members ++ [(key, child)]) = some next := hnext
              show (Keyed.get? name (members ++ [(key, grown)])).bind (·.at? rest) = some node
              rw [Keyed.get?_append] at hget ⊢
              cases hold : Keyed.get? name members with
              | some old =>
                  -- Another member, which stands in both records.
                  rw [hold, Option.some_or] at hget
                  rw [Option.some_or, hget, Option.bind_some, hrest]
              | none =>
                  rw [hold, Option.none_or] at hget
                  have hname : key = name ∧ child = next := by simpa [Keyed.get?] using hget
                  obtain ⟨rfl, rfl⟩ := hname
                  have hbelow : .key "schema" ∈ rest := by
                    rcases List.mem_cons.mp hschema with heq | hmem
                    · exact absurd (Edge.key.inj heq).symm hkey
                    · exact hmem
                  simpa [Keyed.get?] using ih hbelow hrest
          | _ => simp [along?, element?] at hnext
  | @underIndex elements child grown _ ih =>
      cases path with
      | nil => simp at hschema
      | cons edge rest =>
          obtain ⟨next, hnext, hrest⟩ := Option.bind_eq_some_iff.mp hat
          cases edge with
          | index index =>
              have hget : (elements ++ [child])[index]? = some next := hnext
              show ((elements ++ [grown])[index]?).bind (·.at? rest) = some node
              rcases Nat.lt_trichotomy index elements.length with hlt | rfl | hgt
              · rw [List.getElem?_append_left hlt] at hget ⊢
                rw [hget, Option.bind_some, hrest]
              · have hchild : child = next := by simpa using hget
                subst hchild
                have hbelow : .key "schema" ∈ rest := by simpa using hschema
                simpa using ih hbelow hrest
              · have hbeyond : (elements ++ [child]).length ≤ index := by
                  rw [List.length_append, List.length_singleton]
                  omega
                rw [List.getElem?_eq_none hbeyond] at hget
                simp at hget
          | _ => simp [along?, get?] at hnext

end Grows

/-! What is entered. -/

/-- The answers of a visitor that skips what is inside a schema. -/
def SkipsSchemas (entries : List (List Edge × Flow)) : Prop :=
  ∀ e ∈ entries, e.2 = .skip ↔ IsSchemaPath e.1

theorem isSchemaPath_cons {edge : Edge} {path : List Edge} (h : path ≠ []) :
    IsSchemaPath (edge :: path) ↔ IsSchemaPath path := by
  rw [IsSchemaPath, IsSchemaPath, List.getLast?_cons_of_ne_nil h]

theorem isSchemaPath_singleton {edge : Edge} : IsSchemaPath [edge] ↔ edge = .key "schema" := by
  simp [IsSchemaPath]

namespace SkipsSchemas

variable {entries more : List (List Edge × Flow)}

theorem left (h : SkipsSchemas (entries ++ more)) : SkipsSchemas entries := by
  intro e he
  exact h e (List.mem_append_left _ he)

theorem right (h : SkipsSchemas (entries ++ more)) : SkipsSchemas more := by
  intro e he
  exact h e (List.mem_append_right _ he)

theorem tail {entry : List Edge × Flow} (h : SkipsSchemas (entry :: entries)) :
    SkipsSchemas entries := by
  intro e he
  exact h e (List.mem_cons_of_mem _ he)

/-- Below a branch, paths begin with a further edge, so the one to the branch does
not matter to what is a schema there. -/
theorem inside {branches : List (Edge × Json)} {edge : Edge} (hentered : Entered branches entries)
    (h : SkipsSchemas (entries.map fun e => (edge :: e.1, e.2))) : SkipsSchemas entries := by
  intro e he
  obtain ⟨first, rest, hpath, -⟩ := hentered.exists_cons he
  have hne : e.1 ≠ [] := by
    rw [hpath]
    exact List.cons_ne_nil first rest
  have hmem : (edge :: e.1, e.2) ∈ entries.map fun e => (edge :: e.1, e.2) :=
    List.mem_map_of_mem he
  rw [h _ hmem, isSchemaPath_cons hne]

end SkipsSchemas

namespace Entered

variable {branches others : List (Edge × Json)} {entries more : List (List Edge × Flow)}

/-- What is entered at some branches and then at others comes in this order. -/
theorem exists_append (h : Entered (branches ++ others) entries) :
    ∃ own rest, entries = own ++ rest ∧ Entered branches own ∧ Entered others rest := by
  induction branches generalizing entries with
  | nil => exact ⟨[], entries, rfl, .nil, h⟩
  | cons branch branches ih =>
      cases h with
      | skipped hmore =>
          obtain ⟨own, rest, rfl, hown, hrest⟩ := ih hmore
          exact ⟨_, rest, rfl, .skipped hown, hrest⟩
      | descended hinside hmore =>
          obtain ⟨own, rest, rfl, hown, hrest⟩ := ih hmore
          exact ⟨_, rest, by rw [List.cons_append, List.append_assoc], .descended hinside hown,
            hrest⟩

/-- The answers are all that is left open about what is entered. -/
theorem eq_of_skipsSchemas (h : Entered branches entries) (h' : Entered branches more)
    (hskips : SkipsSchemas entries) (hskips' : SkipsSchemas more) : entries = more := by
  induction h generalizing more with
  | nil =>
      cases h'
      rfl
  | @skipped edge child rest others _ ih =>
      have hschema : IsSchemaPath [edge] := (hskips _ List.mem_cons_self).mp rfl
      cases h' with
      | skipped hmore => rw [ih hmore hskips.tail hskips'.tail]
      | descended =>
          have hanswer := (hskips' _ List.mem_cons_self).mpr hschema
          simp at hanswer
  | @descended edge child rest inside others hinside _ ihinside ihrest =>
      cases h' with
      | skipped =>
          have hschema := (hskips' _ List.mem_cons_self).mp rfl
          have hanswer := (hskips _ List.mem_cons_self).mpr hschema
          simp at hanswer
      | descended hinside' hmore =>
          rw [ihinside hinside' (.inside hinside hskips.tail.left)
              (.inside hinside' hskips'.tail.left),
            ihrest hmore hskips.tail.right hskips'.tail.right]

/-- If what is entered below the last branch is only added to, then so is what is
entered at all branches. -/
theorem prefix_of_last {edge : Edge} {child grown : Json}
    (h : Entered (branches ++ [(edge, child)]) entries)
    (h' : Entered (branches ++ [(edge, grown)]) more) (hskips : SkipsSchemas entries)
    (hskips' : SkipsSchemas more) (hedge : edge ≠ .key "schema")
    (hbelow : ∀ inside inside', Entered child.branches inside → Entered grown.branches inside' →
      SkipsSchemas inside → SkipsSchemas inside' → inside <+: inside') : entries <+: more := by
  obtain ⟨own, last, rfl, hown, hlast⟩ := h.exists_append
  obtain ⟨own', last', rfl, hown', hlast'⟩ := h'.exists_append
  obtain rfl := hown.eq_of_skipsSchemas hown' hskips.left hskips'.left
  have hplain : ¬ IsSchemaPath [edge] := fun hschema => hedge (isSchemaPath_singleton.mp hschema)
  apply (List.prefix_append_right_inj own).mpr
  cases hlast with
  | skipped => exact absurd ((hskips.right _ List.mem_cons_self).mp rfl) hplain
  | @descended _ _ _ inside _ hinside hrest =>
      cases hlast' with
      | skipped => exact absurd ((hskips'.right _ List.mem_cons_self).mp rfl) hplain
      | @descended _ _ _ inside' _ hinside' hrest' =>
          cases hrest
          cases hrest'
          rw [List.append_nil, List.append_nil, List.prefix_cons_inj]
          refine List.IsPrefix.map _ (hbelow inside inside' hinside hinside' ?_ ?_)
          · exact .inside hinside hskips.right.tail.left
          · exact .inside hinside' hskips'.right.tail.left

end Entered

theorem branches_obj_append (members others : List (String × Json)) :
    (obj (members ++ others)).branches = (obj members).branches ++ (obj others).branches := by
  simp [branches, children]

theorem branches_obj_concat {child : Json} (h : child.isContainer = true)
    (members : List (String × Json)) (key : String) :
    (obj (members ++ [(key, child)])).branches = (obj members).branches ++ [(.key key, child)] := by
  simp [branches, children, h]

theorem branches_arr_concat {child : Json} (h : child.isContainer = true) (elements : List Json) :
    (arr (elements ++ [child])).branches =
      (arr elements).branches ++ [(.index elements.length, child)] := by
  simp [branches, children, h, List.zipIdx_append]

namespace Grows

variable {document later : Json}

/-- What is entered in the grown document begins with what was entered before. -/
theorem entered_prefix (h : document.Grows later) {entries more : List (List Edge × Flow)}
    (hentered : Entered document.branches entries) (hentered' : Entered later.branches more)
    (hskips : SkipsSchemas entries) (hskips' : SkipsSchemas more) : entries <+: more := by
  induction h generalizing entries more with
  | @member members key value =>
      rw [branches_obj_append] at hentered'
      obtain ⟨own, rest, rfl, hown, -⟩ := hentered'.exists_append
      rw [hentered.eq_of_skipsSchemas hown hskips hskips'.left]
      exact List.prefix_append own rest
  | @underKey members key child grown hkey hgrows ih =>
      rw [branches_obj_concat hgrows.isContainer_left] at hentered
      rw [branches_obj_concat hgrows.isContainer_right] at hentered'
      apply hentered.prefix_of_last hentered' hskips hskips'
      · intro heq
        exact hkey (Edge.key.inj heq)
      · intro inside inside' hinside hinside' hown hown'
        exact ih hinside hinside' hown hown'
  | @underIndex elements child grown hgrows ih =>
      rw [branches_arr_concat hgrows.isContainer_left] at hentered
      rw [branches_arr_concat hgrows.isContainer_right] at hentered'
      apply hentered.prefix_of_last hentered' hskips hskips' (by simp)
      intro inside inside' hinside hinside' hown hown'
      exact ih hinside hinside' hown hown'

theorem enteredFrom_prefix (h : document.Grows later) {entries more : List (List Edge × Flow)}
    (hentered : document.EnteredFrom entries) (hentered' : later.EnteredFrom more)
    (hskips : SkipsSchemas entries) (hskips' : SkipsSchemas more) : entries <+: more := by
  -- The root is under no key, so it is not skipped.
  have hroot : ¬ IsSchemaPath [] := by simp [IsSchemaPath]
  rcases hentered with rfl | ⟨inside, rfl, hinside⟩
  · exact absurd ((hskips _ List.mem_cons_self).mp rfl) hroot
  · rcases hentered' with rfl | ⟨inside', rfl, hinside'⟩
    · exact absurd ((hskips' _ List.mem_cons_self).mp rfl) hroot
    · rw [List.prefix_cons_inj]
      exact h.entered_prefix hinside hinside' hskips.tail hskips'.tail

end Grows

end Json

/-! What is found. -/

namespace Extraction

variable {document later : Json}

theorem definitions_eq (hkeys : document.DistinctKeys) :
    (ofDocument document).1.definitions =
      (sites document).map fun site => (Place.ofPath site.1, Shape.ofJson site.2) := by
  rw [(found_and_skipped hkeys).1, ofEntries, filterMap_definitionAt?]
  exact Keyed.ofList_of_nodup (nodup_places hkeys)

/-- The paths to the definitions, in the order in which they are found. -/
def sitePaths (document : Json) : List (List Edge) :=
  ((Search.visitor.answers document {}).map Prod.fst).filter fun path => IsSchemaPath path

theorem map_fst_sites (document : Json) : (sites document).map Prod.fst = sitePaths document := by
  rw [sitePaths, ← map_fst_entries, List.filter_map]
  rfl

/-- A look-up that finds each definition at its path gives them all from their paths. -/
theorem sites_eq {lookup : List Edge → Option Json}
    (h : ∀ path node, (path, node) ∈ sites document → lookup path = some node) :
    sites document = (sitePaths document).filterMap fun path =>
      (lookup path).map fun node => (path, node) := by
  rw [← map_fst_sites, List.filterMap_map]
  refine Eq.trans List.filterMap_some.symm (List.filterMap_congr fun site hsite => ?_)
  rw [Function.comp_apply, h site.1 site.2 hsite, Option.map_some]

/-- The definitions of a document that has grown begin with those from before. -/
theorem definitions_prefix (h : document.Grows later) (hkeys : document.DistinctKeys) :
    (ofDocument document).1.definitions <+: (ofDocument later).1.definitions := by
  have hkeys' : later.DistinctKeys := h.distinctKeys hkeys
  have hanswers := h.enteredFrom_prefix (Visitor.enteredFrom_answers Search.visitor document {})
    (Visitor.enteredFrom_answers Search.visitor later {}) (found_and_skipped hkeys).2
    (found_and_skipped hkeys').2
  have hpaths : sitePaths document <+: sitePaths later := (hanswers.map Prod.fst).filter _
  -- The grown document has the old definitions too, so all can be looked up in it.
  have hold : ∀ path node, (path, node) ∈ sites document → later.at? path = some node := by
    intro path node hsite
    obtain ⟨hat, -, hschema, -⟩ := (mem_sites_iff hkeys).mp hsite
    exact h.at?_eq (List.mem_of_getLast? hschema) hat
  have hnew : ∀ path node, (path, node) ∈ sites later → later.at? path = some node := by
    intro path node hsite
    exact ((mem_sites_iff hkeys').mp hsite).1
  rw [definitions_eq hkeys, definitions_eq hkeys', sites_eq hold, sites_eq hnew]
  exact (hpaths.filterMap _).map _

end Extraction

end ApiInterfaces
