import ApiInterfaces.Proofs.Interface.Record

/-!
What the interfaces of a run mean. Looking up the name given for a definition,
and in turn every name met in its members, gives the structural type of the
definition's shape. Later definitions do not disturb this, since names are never
given twice.
-/

namespace ApiInterfaces

/-- A member whose type is of another kind. -/
structure MemberOf (τ : Type) where
  name : String
  type : τ
  optional : Bool
  docs : Option DocBlock
deriving Repr, BEq

/-- An index signature whose value is of another kind. -/
structure SignatureOf (τ : Type) where
  key : String
  value : τ
  docs : Option DocBlock
deriving Repr, BEq

/-- A type in which interfaces are written out instead of named. -/
inductive StructuralType where
  | string
  | number
  | boolean
  | any
  | array (item : StructuralType)
  | union (alternatives : List StructuralType)
  | literal (text : String)
  | interface (docs : Option DocBlock) (index : Option (SignatureOf StructuralType))
      (members : List (MemberOf StructuralType))
deriving Repr, BEq

/-! The structural type of a shape. -/

namespace Shape

mutual

def structuralType : Shape → StructuralType
  | .primitive .string _ => .string
  | .primitive .number _ => .number
  | .primitive .boolean _ => .boolean
  | .enumeration values _ => .union (values.map .literal)
  | .untypedArray _ => .array .any
  | .array item _ => .array item.structuralType
  | .tuple alternatives _ => .array (.union (structuralTypes alternatives))
  | .object properties required additional docs =>
      .interface (DocBlock.ofDocs? docs)
        (if additional then some ⟨"prop", .any, some ⟨["schema.additionalProperties: true"]⟩⟩
          else none)
        (structuralMembers required properties)
  | .unspecified _ | .unreadable => .any

def structuralTypes : List Shape → List StructuralType
  | [] => []
  | shape :: rest => shape.structuralType :: structuralTypes rest

def structuralMembers (required : List String) :
    List (String × Shape) → List (MemberOf StructuralType)
  | [] => []
  | (property, shape) :: rest =>
      { name := property, type := shape.structuralType, optional := property ∉ required,
        docs := DocBlock.ofDocs? shape.docs } :: structuralMembers required rest

end

end Shape

/-! Unfolding by look-up. -/

namespace TypeExpr

variable (follow : String → Option StructuralType)

mutual

/-- The type with what `follow` gives for each reference in place of it. -/
def unfoldWith : TypeExpr → Option StructuralType
  | .string => some .string
  | .number => some .number
  | .boolean => some .boolean
  | .any => some .any
  | .array item => item.unfoldWith.map .array
  | .union alternatives => (unfoldAllWith alternatives).map .union
  | .literal text => some (.literal text)
  | .named name => follow name

def unfoldAllWith : List TypeExpr → Option (List StructuralType)
  | [] => some []
  | type :: rest => do
      let first ← type.unfoldWith
      let others ← unfoldAllWith rest
      pure (first :: others)

end

theorem unfoldAllWith_map_literal (values : List String) :
    unfoldAllWith follow (values.map .literal) = some (values.map .literal) := by
  induction values with
  | nil => rfl
  | cons value rest ih => simp [unfoldAllWith, unfoldWith, ih]

end TypeExpr

def Member.unfoldWith (follow : String → Option StructuralType) (m : Member) :
    Option (MemberOf StructuralType) :=
  (m.type.unfoldWith follow).map fun type => ⟨m.name, type, m.optional, m.docs⟩

def IndexSignature.unfoldWith (follow : String → Option StructuralType) (s : IndexSignature) :
    Option (SignatureOf StructuralType) :=
  (s.value.unfoldWith follow).map fun value => ⟨s.key, value, s.docs⟩

def Declaration.unfoldWith (follow : String → Option StructuralType) (d : Declaration) :
    Option StructuralType := do
  let index ← d.index.mapM (·.unfoldWith follow)
  let members ← d.members.mapM (·.unfoldWith follow)
  pure (.interface d.docs index members)

namespace DeclarationFile

/-- The declaration of a name with every reference in it looked up in turn, none
where a name is not declared or the references go more than `depth` deep. -/
def meaning? (f : DeclarationFile) : (depth : Nat) → String → Option StructuralType
  | 0, _ => none
  | depth + 1, name => (f.declaration? name).bind (·.unfoldWith (f.meaning? depth))

/-- Each of the declarations is the one found under its name. -/
def Finds (f : DeclarationFile) (declarations : List Declaration) : Prop :=
  ∀ d ∈ declarations, f.declaration? d.name = some d

theorem finds_append {f : DeclarationFile} {first second : List Declaration} :
    f.Finds (first ++ second) ↔ f.Finds first ∧ f.Finds second := by
  simp only [Finds, List.mem_append, or_imp, forall_and]

theorem finds_cons {f : DeclarationFile} {d : Declaration} {rest : List Declaration} :
    f.Finds (d :: rest) ↔ f.declaration? d.name = some d ∧ f.Finds rest := by
  simp only [Finds, List.mem_cons, or_imp, forall_and, forall_eq]

/-- Under distinct names every declaration is found. -/
theorem finds_declarations {f : DeclarationFile} (h : f.names.Nodup) :
    f.Finds f.declarations := by
  intro d hd
  obtain ⟨before, after, hsplit⟩ := List.mem_iff_append.mp hd
  refine List.find?_eq_some_iff_append.mpr ⟨by simp, before, after, hsplit, fun x hx => ?_⟩
  rw [names, hsplit, List.map_append] at h
  have hne : x.name ≠ d.name :=
    (List.nodup_append.mp h).2.2 x.name (List.mem_map_of_mem hx) d.name (by simp)
  simpa using hne

end DeclarationFile

namespace Shape

variable {f : DeclarationFile}

theorem meaning?_declareWith (base : String) (properties : List (String × Shape))
    (required : List String) (additional : Bool) (docs : ShapeDocs) (log : NameLog)
    (hmembers : ∀ name log depth, f.Finds (membersOf name required properties log).lifted →
      (membersOf name required properties log).lifted.length ≤ depth →
      (membersOf name required properties log).value.mapM (·.unfoldWith (f.meaning? depth)) =
        some (structuralMembers required properties))
    {depth : Nat} :
    let compiled := declareWith base additional docs
      (fun name => membersOf name required properties) log
    f.Finds compiled.lifted → compiled.lifted.length ≤ depth →
      f.meaning? depth compiled.value =
        some (structuralType (.object properties required additional docs)) := by
  intro compiled hfinds hdepth
  let name := (log.claim base).1
  let inner := membersOf name required properties (log.claim base).2
  obtain ⟨hown, hinner⟩ := DeclarationFile.finds_cons.mp hfinds
  cases depth with
  | zero => simp [compiled, declareWith] at hdepth
  | succ depth =>
      -- One look-up is spent on the declaration, which is one of those counted.
      have hlength : inner.lifted.length ≤ depth := Nat.le_of_succ_le_succ hdepth
      have hvalue := hmembers name (log.claim base).2 depth hinner hlength
      have hfound : f.declaration? compiled.value =
          some (declaration name additional docs inner.value) := hown
      rw [DeclarationFile.meaning?, hfound, Option.bind_some]
      cases additional <;>
        simp [Declaration.unfoldWith, declaration, inner, hvalue, structuralType,
          IndexSignature.unfoldWith, IndexSignature.additionalProperties, TypeExpr.unfoldWith]

mutual

theorem unfoldWith_typeOf (outer property : String) (shape : Shape) (log : NameLog) (depth : Nat)
    (hfinds : f.Finds (typeOf outer property shape log).lifted)
    (hdepth : (typeOf outer property shape log).lifted.length ≤ depth) :
    (typeOf outer property shape log).value.unfoldWith (f.meaning? depth) =
      some shape.structuralType := by
  cases shape with
  | primitive kind docs => cases kind <;> rfl
  | enumeration values docs =>
      simp only [typeOf, Compiled.pure, TypeExpr.unfoldWith,
        TypeExpr.unfoldAllWith_map_literal, Option.map_some, structuralType]
  | untypedArray docs => rfl
  | array item docs =>
      have hitem := unfoldWith_typeOf outer property item log depth hfinds hdepth
      simp only [typeOf, Compiled.map, TypeExpr.unfoldWith, hitem, Option.map_some,
        structuralType]
  | tuple alternatives docs =>
      have hall := unfoldAllWith_typesOf outer property alternatives log depth hfinds hdepth
      simp only [typeOf, Compiled.map, TypeExpr.unfoldWith, hall, Option.map_some,
        structuralType]
  | object properties required additional docs =>
      exact meaning?_declareWith _ properties required additional docs log
        (fun name log depth => mapM_unfoldWith_membersOf name required properties log depth)
        hfinds hdepth
  | unspecified docs => rfl
  | unreadable => rfl

theorem unfoldAllWith_typesOf (outer property : String) (shapes : List Shape) (log : NameLog)
    (depth : Nat) (hfinds : f.Finds (typesOf outer property shapes log).lifted)
    (hdepth : (typesOf outer property shapes log).lifted.length ≤ depth) :
    TypeExpr.unfoldAllWith (f.meaning? depth) (typesOf outer property shapes log).value =
      some (structuralTypes shapes) := by
  cases shapes with
  | nil => rfl
  | cons shape rest =>
      simp only [typesOf, Compiled.cons] at hfinds hdepth ⊢
      rw [DeclarationFile.finds_append] at hfinds
      rw [List.length_append] at hdepth
      have hfirst := unfoldWith_typeOf outer property shape log depth hfinds.1 (by omega)
      have hrest := unfoldAllWith_typesOf outer property rest _ depth hfinds.2 (by omega)
      simp [TypeExpr.unfoldAllWith, hfirst, hrest, structuralTypes]

theorem mapM_unfoldWith_membersOf (name : String) (required : List String)
    (properties : List (String × Shape)) (log : NameLog) (depth : Nat)
    (hfinds : f.Finds (membersOf name required properties log).lifted)
    (hdepth : (membersOf name required properties log).lifted.length ≤ depth) :
    (membersOf name required properties log).value.mapM (·.unfoldWith (f.meaning? depth)) =
      some (structuralMembers required properties) := by
  cases properties with
  | nil => rfl
  | cons property rest =>
      obtain ⟨property, shape⟩ := property
      simp only [membersOf, Compiled.cons, Compiled.map] at hfinds hdepth ⊢
      rw [DeclarationFile.finds_append] at hfinds
      rw [List.length_append] at hdepth
      have hfirst := unfoldWith_typeOf name property shape log depth hfinds.1 (by omega)
      have hrest := mapM_unfoldWith_membersOf name required rest _ depth hfinds.2 (by omega)
      rw [List.mapM_cons, hrest, Member.unfoldWith, hfirst]
      rfl

end

theorem meaning?_declaredAt (place : Place) (properties : List (String × Shape))
    (required : List String) (additional : Bool) (docs : ShapeDocs) (log : NameLog) {depth : Nat}
    (hfinds : f.Finds (declaredAt place properties required additional docs log).lifted)
    (hdepth : (declaredAt place properties required additional docs log).lifted.length ≤ depth) :
    f.meaning? depth (declaredAt place properties required additional docs log).value =
      some (structuralType (.object properties required additional docs)) :=
  meaning?_declareWith _ properties required additional docs log
    (fun name log depth => mapM_unfoldWith_membersOf name required properties log depth)
    hfinds hdepth

end Shape

namespace Compilation

/-- In a file that finds the declarations added on the way, the names given for
definitions mean what the definitions say. -/
theorem meaning?_defineAll {f : DeclarationFile} {bound : Nat} (c : Compilation)
    (definitions : List (Place × Shape))
    (hfinds : f.Finds (c.defineAll definitions).2.declarations)
    (hbound : (c.defineAll definitions).2.declarations.length ≤ bound) :
    List.Forall₂ (fun name definition => ∀ depth, bound ≤ depth →
        f.meaning? depth name = some definition.2.structuralType)
      (c.defineAll definitions).1 (definitions.filter fun d => d.2.isObject) := by
  induction definitions generalizing c with
  | nil => exact .nil
  | cons definition rest ih =>
      obtain ⟨place, shape⟩ := definition
      rcases shape.not_isObject_or_eq_object with
        hobject | ⟨properties, required, additional, docs, rfl⟩
      · rw [defineAll_cons_of_not_isObject c place rest hobject] at hfinds hbound ⊢
        rw [List.filter_cons_of_neg (by simp [hobject])]
        exact ih (c.skip place) hfinds hbound
      · rw [defineAll_cons_object] at hfinds hbound ⊢
        let next := c.add (Shape.declaredAt place properties required additional docs
          ⟨c.registry, c.events⟩)
        have hrest := ih next hfinds hbound
        -- Declarations are only added after those of this definition.
        obtain ⟨added, hadded, -, -⟩ := extends_defineAll next rest
        rw [hadded, DeclarationFile.finds_append] at hfinds
        rw [hadded, List.length_append] at hbound
        have hown := (DeclarationFile.finds_append.mp hfinds.1).2
        have hlength : next.declarations.length = c.declarations.length + _ :=
          List.length_append
        rw [List.filter_cons_of_pos (by rfl)]
        refine .cons (fun depth hdepth => ?_) hrest
        exact Shape.meaning?_declaredAt place properties required additional docs _ hown
          (by omega)

/-- Whatever has been compiled before a call and is compiled after it, the names
that it returns stand for the objects handed over: unfolded in the finished
file, which takes no deeper look-ups than there are declarations, each gives the
structural type of its definition. -/
theorem meaning?_perform (before : List Call) (call : Call) (after : List Call)
    (header : List String) :
    let finished := (({} : Compilation).run (before ++ call :: after)).2
    List.Forall₂ (fun name definition => ∀ depth, finished.declarations.length ≤ depth →
        (finished.finish header).meaning? depth name = some definition.2.structuralType)
      ((({} : Compilation).run before).2.perform call).1 call.objects := by
  intro finished
  have hstep : finished.InStep := inStep_empty.run _
  have hnodup : (finished.finish header).names.Nodup := by
    have hnames := hstep.nodup
    rwa [hstep.names] at hnames
  have hfinds : (finished.finish header).Finds finished.declarations :=
    DeclarationFile.finds_declarations hnodup
  let earlier := (({} : Compilation).run before).2
  have hfinished : finished = ((earlier.perform call).2.run after).2 := by
    simp only [finished, earlier, run_append, run]
  obtain ⟨added, hadded, -, -⟩ := extends_run (earlier.perform call).2 after
  have hsplit : finished.declarations = (earlier.perform call).2.declarations ++ added := by
    rw [hfinished, hadded]
  rw [hsplit, DeclarationFile.finds_append, perform_eq_defineAll] at hfinds
  have hlength : (earlier.defineAll call.definitions).2.declarations.length ≤
      finished.declarations.length := by
    rw [hsplit, List.length_append, perform_eq_defineAll]
    omega
  rw [perform_eq_defineAll]
  exact meaning?_defineAll earlier call.definitions hfinds.1 hlength

end Compilation

end ApiInterfaces
