import ApiInterfaces.Interface.Compilation

/-!
Runs of one compilation: any sequence of single definitions and of whole
extractions. A run amounts to compiling all definitions handed over, one after
another.
-/

namespace ApiInterfaces

namespace Shape

/-- An object defined at a place, compiled after the names of a log. -/
def declaredAt (place : Place) (properties : List (String × Shape)) (required : List String)
    (additional : Bool) (docs : ShapeDocs) (log : NameLog) : Compiled String :=
  declareWith (definitionBase docs place) additional docs
    (fun name => membersOf name required properties) log

theorem not_isObject_or_eq_object (shape : Shape) :
    shape.isObject = false ∨
    ∃ properties required additional docs,
      shape = .object properties required additional docs := by
  cases shape with
  | object properties required additional docs =>
      exact .inr ⟨properties, required, additional, docs, rfl⟩
  | _ => exact .inl rfl

end Shape

/-- What a compilation is asked to do. The extraction need not stem from a
document. -/
inductive Call where
  | definition (place : Place) (shape : Shape)
  | extraction (found : Extraction)

namespace Call

/-- The definitions that a call asks to be compiled: the one given, or all that an extraction has
found of objects. -/
def definitions : Call → List (Place × Shape)
  | .definition place shape => [(place, shape)]
  | .extraction found => found.definitions.filter fun definition => definition.2.isObject

/-- The definitions of objects among those of a call. -/
def objects (call : Call) : List (Place × Shape) :=
  call.definitions.filter fun definition => definition.2.isObject

theorem flatMap_objects (calls : List Call) :
    calls.flatMap objects =
      (calls.flatMap definitions).filter fun definition => definition.2.isObject := by
  rw [List.filter_flatMap]
  rfl

end Call

namespace Compilation

/-- Answers a call with the names of the interfaces that it declares. -/
def perform (c : Compilation) : Call → List String × Compilation
  | .definition place shape => ((c.define place shape).1.toList, (c.define place shape).2)
  | .extraction found => c.defineObjects found

/-- Answers calls in order, with the names given by all of them. -/
def run (c : Compilation) : List Call → List String × Compilation
  | [] => ([], c)
  | call :: rest =>
      ((c.perform call).1 ++ ((c.perform call).2.run rest).1, ((c.perform call).2.run rest).2)

/-- The compilation after an object has been declared. -/
def add (c : Compilation) (compiled : Compiled String) : Compilation :=
  ⟨compiled.log.registry, c.declarations ++ compiled.lifted, compiled.log.events⟩

/-- The compilation after a report that a place defines no object. -/
def skip (c : Compilation) (place : Place) : Compilation :=
  { c with events := c.events ++ [.definitionSkipped place.text] }

theorem define_object (c : Compilation) (place : Place) (properties : List (String × Shape))
    (required : List String) (additional : Bool) (docs : ShapeDocs) :
    let compiled := Shape.declaredAt place properties required additional docs
      ⟨c.registry, c.events⟩
    c.define place (.object properties required additional docs) =
      (some compiled.value, c.add compiled) := rfl

theorem define_of_not_isObject (c : Compilation) (place : Place) {shape : Shape}
    (h : shape.isObject = false) : c.define place shape = (none, c.skip place) := by
  cases shape with
  | object => simp [Shape.isObject] at h
  | _ => rfl

@[simp] theorem defineAll_nil (c : Compilation) : c.defineAll [] = ([], c) := rfl

@[simp] theorem defineAll_cons (c : Compilation) (place : Place) (shape : Shape)
    (rest : List (Place × Shape)) :
    c.defineAll ((place, shape) :: rest) =
      ((c.define place shape).1.toList ++ ((c.define place shape).2.defineAll rest).1,
        ((c.define place shape).2.defineAll rest).2) := rfl

/-- Compiling a list of definitions is compiling those of objects; the others
add nothing to names and declarations. -/
theorem defineAll_cons_of_not_isObject (c : Compilation) (place : Place) {shape : Shape}
    (rest : List (Place × Shape)) (h : shape.isObject = false) :
    c.defineAll ((place, shape) :: rest) = (c.skip place).defineAll rest := by
  rw [defineAll_cons, define_of_not_isObject c place h]
  rfl

theorem defineAll_cons_object (c : Compilation) (place : Place)
    (properties : List (String × Shape)) (required : List String) (additional : Bool)
    (docs : ShapeDocs) (rest : List (Place × Shape)) :
    let compiled := Shape.declaredAt place properties required additional docs
      ⟨c.registry, c.events⟩
    c.defineAll ((place, .object properties required additional docs) :: rest) =
      (compiled.value :: ((c.add compiled).defineAll rest).1,
        ((c.add compiled).defineAll rest).2) := rfl

theorem defineAll_append (c : Compilation) (first second : List (Place × Shape)) :
    c.defineAll (first ++ second) =
      ((c.defineAll first).1 ++ ((c.defineAll first).2.defineAll second).1,
        ((c.defineAll first).2.defineAll second).2) := by
  induction first generalizing c with
  | nil => simp
  | cons definition rest ih =>
      obtain ⟨place, shape⟩ := definition
      simp [ih]

/-- Compiling an extraction is compiling what it has found of objects, all of it and in order. -/
theorem defineObjects_eq_defineAll (c : Compilation) (found : Extraction) :
    c.defineObjects found = c.defineAll (Call.extraction found).definitions := rfl

theorem perform_eq_defineAll (c : Compilation) (call : Call) :
    c.perform call = c.defineAll call.definitions := by
  cases call with
  | definition place shape => simp [perform, Call.definitions]
  | extraction found => exact c.defineObjects_eq_defineAll found

theorem run_eq_defineAll (c : Compilation) (calls : List Call) :
    c.run calls = c.defineAll (calls.flatMap Call.definitions) := by
  induction calls generalizing c with
  | nil => rfl
  | cons call rest ih =>
      rw [run, ih, perform_eq_defineAll, List.flatMap_cons, defineAll_append]

theorem run_append (c : Compilation) (earlier later : List Call) :
    c.run (earlier ++ later) =
      ((c.run earlier).1 ++ ((c.run earlier).2.run later).1,
        ((c.run earlier).2.run later).2) := by
  simp only [run_eq_defineAll, List.flatMap_append, defineAll_append]

theorem run_singleton (c : Compilation) (call : Call) : c.run [call] = c.perform call := by
  simp [run]

end Compilation

end ApiInterfaces
