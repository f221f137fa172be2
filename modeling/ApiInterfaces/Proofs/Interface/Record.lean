import ApiInterfaces.Proofs.Interface.Run
import ApiInterfaces.Proofs.Naming.Freshness

/-!
The names of a run, its declarations and its reports are one list. A name is
claimed and reported before the members of its object are compiled, and its
declaration stands in front of what the members lift out: both orders are the
pre-order of the objects.
-/

namespace ApiInterfaces

/-- The declaration that a report of an added interface names. -/
def Event.addedName? (e : Event) : Option String :=
  if e.level = .debug ∧ e.message = "Added interface." then e.fields.lookup "declaration" else none

@[simp] theorem Event.addedName?_interfaceAdded (name : String) :
    (Event.interfaceAdded name).addedName? = some name := by
  simp [addedName?, level, message, fields]

@[simp] theorem Event.addedName?_definitionSkipped (path : String) :
    (Event.definitionSkipped path).addedName? = none := by
  simp [addedName?, level, message]

namespace Compiled

variable {α β : Type} {log : NameLog}

/-- What compiling a part has added to the names and to the reports is what it
has declared, in order, and no name has been given twice. -/
structure Recorded (log : NameLog) (c : Compiled α) : Prop where
  /-- Names are claimed in the order of the declarations. -/
  names : c.log.registry.names = log.registry.names ++ c.lifted.map (·.name)
  /-- Each declaration is reported once, in the same order. -/
  events : c.log.events = log.events ++ c.lifted.map fun d => .interfaceAdded d.name
  /-- Names that were distinct before still are. -/
  nodup : log.registry.names.Nodup → c.log.registry.names.Nodup

theorem recorded_pure (value : α) (log : NameLog) : (Compiled.pure value log).Recorded log where
  names := by simp [Compiled.pure]
  events := by simp [Compiled.pure]
  nodup h := h

theorem Recorded.map {c : Compiled α} (h : c.Recorded log) (f : α → β) :
    (c.map f).Recorded log :=
  ⟨h.names, h.events, h.nodup⟩

theorem Recorded.cons {first : Compiled α} {rest : NameLog → Compiled (List α)}
    (hfirst : first.Recorded log) (hrest : (rest first.log).Recorded first.log) :
    (first.cons rest).Recorded log where
  names := by
    simp only [Compiled.cons]
    rw [hrest.names, hfirst.names, List.map_append, List.append_assoc]
  events := by
    simp only [Compiled.cons]
    rw [hrest.events, hfirst.events, List.map_append, List.append_assoc]
  nodup h := hrest.nodup (hfirst.nodup h)

/-- A claim comes first on both sides: the name in front of the names claimed
by the members, the declaration in front of the ones that they lift out. -/
theorem recorded_declareWith (base : String) (additional : Bool) (docs : ShapeDocs)
    {members : String → NameLog → Compiled (List Member)}
    (hmembers : ∀ name log, (members name log).Recorded log) (log : NameLog) :
    (Shape.declareWith base additional docs members log).Recorded log where
  names := by
    simp only [Shape.declareWith]
    rw [(hmembers _ _).names]
    simp [NameLog.claim, Shape.declaration]
  events := by
    simp only [Shape.declareWith]
    rw [(hmembers _ _).events]
    simp [NameLog.claim, Shape.declaration]
  nodup h := (hmembers _ _).nodup (Naming.Registry.nodup_names_claim h base)

end Compiled

namespace Shape

mutual

theorem recorded_typeOf (outer property : String) (shape : Shape) (log : NameLog) :
    (typeOf outer property shape log).Recorded log := by
  cases shape with
  | primitive kind docs => cases kind <;> exact Compiled.recorded_pure _ log
  | enumeration values docs => exact Compiled.recorded_pure _ log
  | untypedArray docs => exact Compiled.recorded_pure _ log
  | array item docs => exact (recorded_typeOf outer property item log).map _
  | tuple alternatives docs => exact (recorded_typesOf outer property alternatives log).map _
  | object properties required additional docs =>
      exact (Compiled.recorded_declareWith _ additional docs
        (fun name log => recorded_membersOf name required properties log) log).map _
  | unspecified docs => exact Compiled.recorded_pure _ log
  | unreadable => exact Compiled.recorded_pure _ log

theorem recorded_typesOf (outer property : String) (shapes : List Shape) (log : NameLog) :
    (typesOf outer property shapes log).Recorded log := by
  cases shapes with
  | nil => exact Compiled.recorded_pure _ log
  | cons shape rest =>
      exact (recorded_typeOf outer property shape log).cons
        (recorded_typesOf outer property rest _)

theorem recorded_membersOf (name : String) (required : List String)
    (properties : List (String × Shape)) (log : NameLog) :
    (membersOf name required properties log).Recorded log := by
  cases properties with
  | nil => exact Compiled.recorded_pure _ log
  | cons property rest =>
      obtain ⟨property, shape⟩ := property
      exact ((recorded_typeOf name property shape log).map _).cons
        (recorded_membersOf name required rest _)

end

theorem recorded_declaredAt (place : Place) (properties : List (String × Shape))
    (required : List String) (additional : Bool) (docs : ShapeDocs) (log : NameLog) :
    (declaredAt place properties required additional docs log).Recorded log :=
  Compiled.recorded_declareWith _ additional docs
    (fun name log => recorded_membersOf name required properties log) log

end Shape

namespace Compilation

/-- The names in the reports of added interfaces, in the order of the reports. -/
def reportedNames (c : Compilation) : List String := c.events.filterMap Event.addedName?

/-- Names, declarations and reports are in step. -/
structure InStep (c : Compilation) : Prop where
  /-- The names claimed are those of the declarations. -/
  names : c.registry.names = c.declarations.map (·.name)
  /-- They are the names reported as well. -/
  reported : c.reportedNames = c.registry.names
  /-- No name is given twice. -/
  nodup : c.registry.names.Nodup

/-- What one step adds: the same names to the registry, to the declarations and
to the reports. -/
def Extends (now next : Compilation) : Prop :=
  ∃ added : List Declaration,
    next.declarations = now.declarations ++ added ∧
    next.registry.names = now.registry.names ++ added.map (·.name) ∧
    next.reportedNames = now.reportedNames ++ added.map (·.name)

theorem Extends.refl (c : Compilation) : c.Extends c := ⟨[], by simp⟩

theorem Extends.trans {c d e : Compilation} (hcd : c.Extends d) (hde : d.Extends e) :
    c.Extends e := by
  obtain ⟨first, hdeclarations, hnames, hreported⟩ := hcd
  obtain ⟨second, hdeclarations', hnames', hreported'⟩ := hde
  refine ⟨first ++ second, ?_, ?_, ?_⟩
  · rw [hdeclarations', hdeclarations, List.append_assoc]
  · rw [hnames', hnames, List.map_append, List.append_assoc]
  · rw [hreported', hreported, List.map_append, List.append_assoc]

theorem filterMap_addedName?_interfaceAdded (declarations : List Declaration) :
    (declarations.map fun d => Event.interfaceAdded d.name).filterMap Event.addedName? =
      declarations.map (·.name) := by
  rw [List.filterMap_map, ← List.filterMap_eq_map]
  refine List.filterMap_congr fun d _ => ?_
  exact Event.addedName?_interfaceAdded d.name

theorem extends_skip (c : Compilation) (place : Place) : c.Extends (c.skip place) :=
  ⟨[], by simp [skip, reportedNames]⟩

theorem extends_add {c : Compilation} {compiled : Compiled String}
    (h : compiled.Recorded ⟨c.registry, c.events⟩) : c.Extends (c.add compiled) := by
  refine ⟨compiled.lifted, rfl, h.names, ?_⟩
  rw [reportedNames, add, h.events, List.filterMap_append, filterMap_addedName?_interfaceAdded]
  rfl

theorem extends_define (c : Compilation) (place : Place) (shape : Shape) :
    c.Extends (c.define place shape).2 := by
  rcases shape.not_isObject_or_eq_object with
    hobject | ⟨properties, required, additional, docs, rfl⟩
  · rw [define_of_not_isObject c place hobject]
    exact extends_skip c place
  · rw [define_object]
    exact extends_add (Shape.recorded_declaredAt place properties required additional docs _)

theorem nodup_define {c : Compilation} (h : c.registry.names.Nodup) (place : Place)
    (shape : Shape) : (c.define place shape).2.registry.names.Nodup := by
  rcases shape.not_isObject_or_eq_object with
    hobject | ⟨properties, required, additional, docs, rfl⟩
  · rw [define_of_not_isObject c place hobject]
    exact h
  · exact (Shape.recorded_declaredAt place properties required additional docs _).nodup h

theorem InStep.define {c : Compilation} (h : c.InStep) (place : Place) (shape : Shape) :
    (c.define place shape).2.InStep := by
  obtain ⟨added, hdeclarations, hnames, hreported⟩ := extends_define c place shape
  refine ⟨?_, ?_, nodup_define h.nodup place shape⟩
  · rw [hnames, hdeclarations, List.map_append, h.names]
  · rw [hreported, hnames, h.reported]

theorem inStep_empty : ({} : Compilation).InStep := ⟨rfl, rfl, List.nodup_nil⟩

theorem InStep.defineAll {c : Compilation} (h : c.InStep) (definitions : List (Place × Shape)) :
    (c.defineAll definitions).2.InStep := by
  induction definitions generalizing c with
  | nil => exact h
  | cons definition rest ih => exact ih (h.define definition.1 definition.2)

theorem extends_defineAll (c : Compilation) (definitions : List (Place × Shape)) :
    c.Extends (c.defineAll definitions).2 := by
  induction definitions generalizing c with
  | nil => exact Extends.refl c
  | cons definition rest ih =>
      exact (extends_define c definition.1 definition.2).trans (ih _)

theorem InStep.run {c : Compilation} (h : c.InStep) (calls : List Call) :
    (c.run calls).2.InStep := by
  rw [run_eq_defineAll]
  exact h.defineAll _

theorem extends_run (c : Compilation) (calls : List Call) : c.Extends (c.run calls).2 := by
  rw [run_eq_defineAll]
  exact extends_defineAll c _

/-- After any run the names claimed, those of the declarations and those in the
reports are one list without duplicates. A further call adds to the end of it
and of the declarations, and one for anything but an object gives no name and
leaves both as they are. -/
theorem names_declarations_reports_agree (calls : List Call) :
    let c := (({} : Compilation).run calls).2
    c.registry.names = c.declarations.map (·.name) ∧
    c.reportedNames = c.registry.names ∧
    c.registry.names.Nodup ∧
    (∀ call, c.Extends (c.perform call).2) ∧
    ∀ place shape, shape.isObject = false →
      (c.define place shape).1 = none ∧
      (c.define place shape).2.registry = c.registry ∧
      (c.define place shape).2.declarations = c.declarations := by
  intro c
  have hstep : c.InStep := inStep_empty.run calls
  refine ⟨hstep.names, hstep.reported, hstep.nodup, fun call => ?_, fun place shape h => ?_⟩
  · rw [← run_singleton]
    exact extends_run c [call]
  · rw [define_of_not_isObject c place h]
    exact ⟨rfl, rfl, rfl⟩

end Compilation

end ApiInterfaces
