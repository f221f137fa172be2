import ApiInterfaces.Proofs.Interface.Record

/-!
The references between the declarations of a run form a forest, listed in
pre-order. Its roots are the interfaces of the definitions; each of them stands
in front of the objects nested in it, in the order of their references.
-/

namespace ApiInterfaces

namespace TypeExpr

mutual

/-- The names that a type refers to, one for each reference, from left to
right. -/
def references : TypeExpr → List String
  | .array item => item.references
  | .union alternatives => referencesIn alternatives
  | .named name => [name]
  | .string | .number | .boolean | .any | .literal _ => []

def referencesIn : List TypeExpr → List String
  | [] => []
  | type :: rest => type.references ++ referencesIn rest

end

theorem referencesIn_map_literal (values : List String) :
    referencesIn (values.map .literal) = [] := by
  induction values with
  | nil => rfl
  | cons value rest ih => exact ih

end TypeExpr

/-- The references in the index signature and in the members. -/
def Declaration.references (d : Declaration) : List String :=
  (d.index.toList.flatMap fun signature => signature.value.references) ++
    d.members.flatMap fun m => m.type.references

/-- The declarations are those that the references name, in order, each in front
of the ones that it refers to itself. -/
inductive PreOrder : List String → List Declaration → Prop
  | nil : PreOrder [] []
  | cons {d : Declaration} {references : List String} {inner rest : List Declaration} :
      PreOrder d.references inner → PreOrder references rest →
        PreOrder (d.name :: references) (d :: (inner ++ rest))

namespace PreOrder

variable {references others : List String} {declarations more : List Declaration}

theorem append (h : PreOrder references declarations) (h' : PreOrder others more) :
    PreOrder (references ++ others) (declarations ++ more) := by
  induction h with
  | nil => exact h'
  | @cons d references inner rest hinner hrest ihinner ihrest =>
      rw [List.cons_append, List.cons_append, List.append_assoc]
      exact .cons hinner ihrest

theorem flatten {roots : List String} {blocks : List (List Declaration)}
    (h : List.Forall₂ (fun root block => PreOrder [root] block) roots blocks) :
    PreOrder roots blocks.flatten := by
  induction h with
  | nil => exact .nil
  | cons hblock _ ih => exact hblock.append ih

/-- The declarations below a single reference begin with the one referred to. -/
theorem exists_own {root : String} {block : List Declaration} (h : PreOrder [root] block) :
    ∃ own nested, block = own :: nested ∧ own.name = root ∧ PreOrder own.references nested := by
  cases h with
  | @cons own _ nested rest hnested hrest =>
      cases hrest
      exact ⟨own, nested, by rw [List.append_nil], rfl, hnested⟩

theorem singleton {d : Declaration} {inner : List Declaration}
    (h : PreOrder d.references inner) : PreOrder [d.name] (d :: inner) := by
  simpa using PreOrder.cons h .nil

/-- A name is declared once for each reference to it, from outside or from a
declaration. -/
theorem count_name_eq (h : PreOrder references declarations) (name : String) :
    (declarations.map (·.name)).count name =
      references.count name + (declarations.flatMap Declaration.references).count name := by
  induction h with
  | nil => rfl
  | @cons d references inner rest hinner hrest ihinner ihrest =>
      simp only [List.map_cons, List.map_append, List.flatMap_cons, List.flatMap_append,
        List.count_cons, List.count_append]
      omega

theorem mem_names (h : PreOrder references declarations) {name : String}
    (hname : name ∈ references) : name ∈ declarations.map (·.name) := by
  have hcount := h.count_name_eq name
  have hpos := List.count_pos_iff.mpr hname
  exact List.count_pos_iff.mp (by omega)

/-- What a declaration refers to stands behind it. -/
theorem mem_names_after (h : PreOrder references declarations) {d : Declaration}
    {after : List Declaration} (hd : d :: after <:+ declarations) {name : String}
    (hname : name ∈ d.references) : name ∈ after.map (·.name) := by
  induction h generalizing after with
  | nil => simp at hd
  | @cons root references inner rest hinner hrest ihinner ihrest =>
      rcases List.suffix_cons_iff.mp hd with heq | hsuffix
      · -- The first declaration refers to those at the head of `inner`.
        obtain ⟨rfl, rfl⟩ := List.cons.inj heq
        rw [List.map_append]
        exact List.mem_append_left _ (hinner.mem_names hname)
      · obtain ⟨before, hsplit⟩ := hsuffix
        rcases List.append_eq_append_iff.mp hsplit with
          ⟨tail, hinnerSplit, htail⟩ | ⟨head, -, hrestSplit⟩
        · cases tail with
          | nil => exact ihrest ⟨[], htail⟩
          | cons first tail =>
              -- The declaration is one of `inner`, and all of `rest` stands behind it.
              obtain ⟨rfl, hafter⟩ := List.cons.inj htail
              have hmem := ihinner ⟨before, hinnerSplit.symm⟩
              rw [hafter]
              simp only [List.append_eq, List.map_append, List.mem_append, hmem, true_or]
        · exact ihrest ⟨head, hrestSplit.symm⟩

end PreOrder

namespace Shape

mutual

/-- The objects in a shape that are reached through properties, items and
alternatives, an object in front of those inside it. -/
def objects : Shape → List Shape
  | .object properties required additional docs =>
      .object properties required additional docs :: objectsInProperties properties
  | .array item _ => item.objects
  | .tuple alternatives _ => objectsInAll alternatives
  | .primitive .. | .enumeration .. | .untypedArray _ | .unspecified _ | .unreadable => []

def objectsInAll : List Shape → List Shape
  | [] => []
  | shape :: rest => shape.objects ++ objectsInAll rest

def objectsInProperties : List (String × Shape) → List Shape
  | [] => []
  | (_, shape) :: rest => shape.objects ++ objectsInProperties rest

end

end Shape

/-- The declaration describes the object in all but the types of the members:
it has its documentation, its index signature, and one member for each property
in order. -/
def Declaration.Describes (d : Declaration) : Shape → Prop
  | .object properties required additional docs =>
      d.docs = DocBlock.ofDocs? docs ∧
      d.index = (if additional then some .additionalProperties else none) ∧
      d.members.map (fun m => (m.name, m.optional, m.docs)) =
        properties.map fun (property, shape) =>
          (property, decide (property ∉ required), DocBlock.ofDocs? shape.docs)
  | _ => False

/-- The declarations are what the references lead to, in pre-order, and describe
the objects one by one. -/
structure Lists (references : List String) (objects : List Shape)
    (declarations : List Declaration) : Prop where
  preOrder : PreOrder references declarations
  describes : List.Forall₂ Declaration.Describes declarations objects

namespace Lists

theorem nil : Lists [] [] [] := ⟨.nil, .nil⟩

theorem append {references others : List String} {objects further : List Shape}
    {declarations more : List Declaration} (h : Lists references objects declarations)
    (h' : Lists others further more) :
    Lists (references ++ others) (objects ++ further) (declarations ++ more) :=
  ⟨h.preOrder.append h'.preOrder, List.rel_append h.describes h'.describes⟩

end Lists

namespace Shape

theorem references_declaration (name : String) (additional : Bool) (docs : ShapeDocs)
    (members : List Member) :
    (declaration name additional docs members).references =
      members.flatMap fun m => m.type.references := by
  cases additional <;> rfl

theorem describes_declaration (name : String) (properties : List (String × Shape))
    (required : List String) (additional : Bool) (docs : ShapeDocs) (log : NameLog) :
    (declaration name additional docs (membersOf name required properties log).value).Describes
      (.object properties required additional docs) := by
  refine ⟨rfl, rfl, ?_⟩
  simp only [declaration]
  induction properties generalizing log with
  | nil => rfl
  | cons property rest ih =>
      obtain ⟨property, shape⟩ := property
      simp only [membersOf, Compiled.cons, Compiled.map, List.map_cons]
      rw [ih]

theorem lists_declareWith (base : String) (properties : List (String × Shape))
    (required : List String) (additional : Bool) (docs : ShapeDocs) (log : NameLog)
    (hmembers : ∀ name log,
      Lists ((membersOf name required properties log).value.flatMap fun m => m.type.references)
        (objectsInProperties properties) (membersOf name required properties log).lifted) :
    let compiled := declareWith base additional docs
      (fun name => membersOf name required properties) log
    Lists [compiled.value] (objects (.object properties required additional docs))
      compiled.lifted := by
  intro compiled
  let name := (log.claim base).1
  let inner := membersOf name required properties (log.claim base).2
  have hinner := hmembers name (log.claim base).2
  have hown : PreOrder (declaration name additional docs inner.value).references inner.lifted := by
    rw [references_declaration]
    exact hinner.preOrder
  exact ⟨hown.singleton,
    .cons (describes_declaration name properties required additional docs _) hinner.describes⟩

mutual

theorem lists_typeOf (outer property : String) (shape : Shape) (log : NameLog) :
    Lists (typeOf outer property shape log).value.references shape.objects
      (typeOf outer property shape log).lifted := by
  cases shape with
  | primitive kind docs => cases kind <;> exact .nil
  | enumeration values docs =>
      have hnone := TypeExpr.referencesIn_map_literal values
      simp only [typeOf, Compiled.pure, TypeExpr.references, hnone]
      exact .nil
  | untypedArray docs => exact .nil
  | array item docs => exact lists_typeOf outer property item log
  | tuple alternatives docs => exact lists_typesOf outer property alternatives log
  | object properties required additional docs =>
      exact lists_declareWith _ properties required additional docs log
        fun name log => lists_membersOf name required properties log
  | unspecified docs => exact .nil
  | unreadable => exact .nil

theorem lists_typesOf (outer property : String) (shapes : List Shape) (log : NameLog) :
    Lists (TypeExpr.referencesIn (typesOf outer property shapes log).value)
      (objectsInAll shapes) (typesOf outer property shapes log).lifted := by
  cases shapes with
  | nil => exact .nil
  | cons shape rest =>
      exact (lists_typeOf outer property shape log).append
        (lists_typesOf outer property rest _)

theorem lists_membersOf (name : String) (required : List String)
    (properties : List (String × Shape)) (log : NameLog) :
    Lists ((membersOf name required properties log).value.flatMap fun m => m.type.references)
      (objectsInProperties properties) (membersOf name required properties log).lifted := by
  cases properties with
  | nil => exact .nil
  | cons property rest =>
      obtain ⟨property, shape⟩ := property
      exact (lists_typeOf name property shape log).append
        (lists_membersOf name required rest _)

end

theorem lists_declaredAt (place : Place) (properties : List (String × Shape))
    (required : List String) (additional : Bool) (docs : ShapeDocs) (log : NameLog) :
    Lists [(declaredAt place properties required additional docs log).value]
      (objects (.object properties required additional docs))
      (declaredAt place properties required additional docs log).lifted :=
  lists_declareWith _ properties required additional docs log
    fun name log => lists_membersOf name required properties log

end Shape

namespace Compilation

/-- Each definition of an object adds one block of declarations. -/
theorem exists_blocks (c : Compilation) (definitions : List (Place × Shape)) :
    ∃ blocks : List (List Declaration),
      (c.defineAll definitions).2.declarations = c.declarations ++ blocks.flatten ∧
      List.Forall₂ (fun root block => PreOrder [root] block) (c.defineAll definitions).1 blocks ∧
      List.Forall₂ (fun definition block => List.Forall₂ Declaration.Describes block
        definition.2.objects) (definitions.filter fun d => d.2.isObject) blocks := by
  induction definitions generalizing c with
  | nil => exact ⟨[], by simp, .nil, .nil⟩
  | cons definition rest ih =>
      obtain ⟨place, shape⟩ := definition
      rcases shape.not_isObject_or_eq_object with
        hobject | ⟨properties, required, additional, docs, rfl⟩
      · obtain ⟨blocks, hdeclarations, hroots, hshapes⟩ := ih (c.skip place)
        rw [defineAll_cons_of_not_isObject c place rest hobject,
          List.filter_cons_of_neg (by simp [hobject])]
        exact ⟨blocks, hdeclarations, hroots, hshapes⟩
      · have hlists := Shape.lists_declaredAt place properties required additional docs
          ⟨c.registry, c.events⟩
        obtain ⟨blocks, hdeclarations, hroots, hshapes⟩ := ih (c.add (Shape.declaredAt place
          properties required additional docs ⟨c.registry, c.events⟩))
        rw [defineAll_cons_object, List.filter_cons_of_pos (by rfl)]
        refine ⟨_ :: blocks, ?_, .cons hlists.preOrder hroots, .cons hlists.describes hshapes⟩
        rw [List.flatten_cons, ← List.append_assoc]
        exact hdeclarations

/-- What a declaration of a run refers to is a declaration too. -/
theorem exists_of_mem_references {calls : List Call} {d : Declaration} {name : String}
    (h : d ∈ (({} : Compilation).run calls).2.declarations) (hname : name ∈ d.references) :
    ∃ target ∈ (({} : Compilation).run calls).2.declarations, target.name = name := by
  obtain ⟨blocks, hdeclarations, hroots, -⟩ := exists_blocks {} (calls.flatMap Call.definitions)
  rw [← run_eq_defineAll] at hdeclarations hroots
  have hpre := PreOrder.flatten hroots
  rw [show blocks.flatten = _ from hdeclarations.symm] at hpre
  obtain ⟨before, after, hsplit⟩ := List.append_of_mem h
  have hmem := hpre.mem_names_after ⟨before, hsplit.symm⟩ hname
  obtain ⟨target, htarget, rfl⟩ := List.mem_map.mp hmem
  refine ⟨target, ?_, rfl⟩
  rw [hsplit]
  exact List.mem_append_right _ (List.mem_cons_of_mem d htarget)

/-- The declarations of a run form a forest. A reference names one declaration,
which stands behind the one with the reference. A declaration is the root of a
definition, given once and never referred to, or the target of one reference.
The declarations of a definition are a block: its own, then the nested ones in
pre-order, one for each object in it. -/
theorem references_form_forest (calls : List Call) :
    let roots := (({} : Compilation).run calls).1
    let declarations := (({} : Compilation).run calls).2.declarations
    let references := declarations.flatMap Declaration.references
    (∀ d after, d :: after <:+ declarations → ∀ name ∈ d.references,
      (declarations.map (·.name)).count name = 1 ∧ name ∈ after.map (·.name)) ∧
    (∀ d ∈ declarations,
      (roots.count d.name = 1 ∧ references.count d.name = 0) ∨
      (roots.count d.name = 0 ∧ references.count d.name = 1)) ∧
    roots.Nodup ∧
    ∃ blocks : List (List Declaration),
      declarations = blocks.flatten ∧
      List.Forall₂ (fun root block => ∃ own nested,
        block = own :: nested ∧ own.name = root ∧ PreOrder own.references nested) roots blocks ∧
      List.Forall₂ (fun definition block =>
        List.Forall₂ Declaration.Describes block definition.2.objects ∧
        block.length = definition.2.objects.length) (calls.flatMap Call.objects) blocks := by
  intro roots declarations references
  have hstep : (({} : Compilation).run calls).2.InStep := inStep_empty.run calls
  have hnodup : (declarations.map (·.name)).Nodup := hstep.names ▸ hstep.nodup
  obtain ⟨blocks, hdeclarations, hroots, hshapes⟩ :=
    exists_blocks {} (calls.flatMap Call.definitions)
  rw [← run_eq_defineAll] at hdeclarations hroots
  have hflatten : declarations = blocks.flatten := hdeclarations
  have hpre : PreOrder roots declarations := hflatten ▸ PreOrder.flatten hroots
  -- Names are distinct, so roots and references together name each declaration once.
  have hcount (name : String) : (declarations.map (·.name)).count name =
      roots.count name + references.count name := hpre.count_name_eq name
  refine ⟨fun d after hd name hname => ⟨?_, hpre.mem_names_after hd hname⟩, fun d hd => ?_, ?_,
    blocks, hflatten, hroots.imp fun _ _ h => h.exists_own, ?_⟩
  · have hmem := hpre.mem_names_after hd hname
    exact List.count_eq_one_of_mem hnodup
      (List.map_subset _ (fun x hx => hd.subset (List.mem_cons_of_mem d hx)) hmem)
  · have hone : (declarations.map (·.name)).count d.name = 1 :=
      List.count_eq_one_of_mem hnodup (List.mem_map_of_mem hd)
    have hsum := hcount d.name
    omega
  · refine List.nodup_iff_count_le_one.mpr fun name => ?_
    have hle := List.nodup_iff_count_le_one.mp hnodup name
    have hsum := hcount name
    omega
  · rw [Call.flatMap_objects]
    exact hshapes.imp fun _ _ h => ⟨h, h.length_eq⟩

end Compilation

end ApiInterfaces
