import ApiInterfaces.Interface.Text
import ApiInterfaces.Proofs.Document.Growth
import ApiInterfaces.Proofs.Interface.Record

/-!
Output that grows at its end. What a compilation declares depends on the names claimed
before and not on what has been reported, and further definitions only add to it, so a
document that grows at its end keeps its declarations and their text.
-/

namespace ApiInterfaces

namespace Compiled

variable {α β : Type}

/-- Two results that differ in the events at most. -/
structure Agrees (c c' : Compiled α) : Prop where
  value : c.value = c'.value
  lifted : c.lifted = c'.lifted
  registry : c.log.registry = c'.log.registry

theorem agrees_pure (value : α) {log log' : NameLog} (h : log.registry = log'.registry) :
    (Compiled.pure value log).Agrees (.pure value log') :=
  ⟨rfl, rfl, h⟩

theorem Agrees.map {c c' : Compiled α} (h : c.Agrees c') (f : α → β) :
    (c.map f).Agrees (c'.map f) :=
  ⟨congrArg f h.value, h.lifted, h.registry⟩

theorem Agrees.cons {first first' : Compiled α} {rest : NameLog → Compiled (List α)}
    (hfirst : first.Agrees first')
    (hrest : ∀ {log log' : NameLog}, log.registry = log'.registry → (rest log).Agrees (rest log')) :
    (first.cons rest).Agrees (first'.cons rest) := by
  have hothers := hrest hfirst.registry
  refine ⟨?_, ?_, hothers.registry⟩
  · simp only [Compiled.cons, hfirst.value, hothers.value]
  · simp only [Compiled.cons, hfirst.lifted, hothers.lifted]

/-- The same name is claimed on both sides, so the members agree as well. -/
theorem agrees_declareWith (base : String) (additional : Bool) (docs : ShapeDocs)
    {members : String → NameLog → Compiled (List Member)}
    (hmembers : ∀ name {log log' : NameLog}, log.registry = log'.registry →
      (members name log).Agrees (members name log'))
    {log log' : NameLog} (h : log.registry = log'.registry) :
    (Shape.declareWith base additional docs members log).Agrees
      (Shape.declareWith base additional docs members log') := by
  have hname : (log.claim base).1 = (log'.claim base).1 := by simp only [NameLog.claim, h]
  have hregistry : (log.claim base).2.registry = (log'.claim base).2.registry := by
    simp only [NameLog.claim, h]
  have hcompiled := hmembers (log.claim base).1 hregistry
  rw [hname] at hcompiled
  refine ⟨hname, ?_, ?_⟩
  · simp only [Shape.declareWith, hname, hcompiled.value, hcompiled.lifted]
  · simp only [Shape.declareWith, hname, hcompiled.registry]

end Compiled

namespace Shape

mutual

theorem agrees_typeOf (outer property : String) (shape : Shape) {log log' : NameLog}
    (h : log.registry = log'.registry) :
    (typeOf outer property shape log).Agrees (typeOf outer property shape log') := by
  cases shape with
  | primitive kind docs => cases kind <;> exact Compiled.agrees_pure _ h
  | array item docs => exact (agrees_typeOf outer property item h).map _
  | tuple alternatives docs => exact (agrees_typesOf outer property alternatives h).map _
  | object properties required additional docs =>
      refine (Compiled.agrees_declareWith _ additional docs ?_ h).map _
      intro name log log' h
      exact agrees_membersOf name required properties h
  | _ => exact Compiled.agrees_pure _ h

theorem agrees_typesOf (outer property : String) (shapes : List Shape) {log log' : NameLog}
    (h : log.registry = log'.registry) :
    (typesOf outer property shapes log).Agrees (typesOf outer property shapes log') := by
  cases shapes with
  | nil => exact Compiled.agrees_pure _ h
  | cons shape rest =>
      apply (agrees_typeOf outer property shape h).cons
      intro log log' h
      exact agrees_typesOf outer property rest h

theorem agrees_membersOf (name : String) (required : List String)
    (properties : List (String × Shape)) {log log' : NameLog}
    (h : log.registry = log'.registry) :
    (membersOf name required properties log).Agrees (membersOf name required properties log') := by
  cases properties with
  | nil => exact Compiled.agrees_pure _ h
  | cons property rest =>
      obtain ⟨property, shape⟩ := property
      apply ((agrees_typeOf name property shape h).map _).cons
      intro log log' h
      exact agrees_membersOf name required rest h

end

end Shape

namespace Compilation

/-- The same names and the same declarations, whatever has been reported. -/
def Agrees (c c' : Compilation) : Prop :=
  c.registry = c'.registry ∧ c.declarations = c'.declarations

theorem Agrees.define {c c' : Compilation} (h : c.Agrees c') (place : Place) (shape : Shape) :
    (c.define place shape).2.Agrees (c'.define place shape).2 := by
  rcases shape.not_isObject_or_eq_object with
    hobject | ⟨properties, required, additional, docs, rfl⟩
  · rw [define_of_not_isObject c place hobject, define_of_not_isObject c' place hobject]
    exact h
  · obtain ⟨hregistry, hdeclarations⟩ := h
    have hcompiled : (Shape.declaredAt place properties required additional docs
        ⟨c.registry, c.events⟩).Agrees
        (Shape.declaredAt place properties required additional docs ⟨c'.registry, c'.events⟩) := by
      apply Compiled.agrees_declareWith _ additional docs _ hregistry
      intro name log log' h
      exact Shape.agrees_membersOf name required properties h
    rw [define_object, define_object]
    refine ⟨hcompiled.registry, ?_⟩
    show c.declarations ++ _ = c'.declarations ++ _
    rw [hdeclarations, hcompiled.lifted]

theorem Agrees.defineAll {c c' : Compilation} (h : c.Agrees c')
    (definitions : List (Place × Shape)) :
    (c.defineAll definitions).2.Agrees (c'.defineAll definitions).2 := by
  induction definitions generalizing c c' with
  | nil => exact h
  | cons definition rest ih => exact ih (h.define definition.1 definition.2)

/-- Further definitions leave what is declared as it is and add to it behind. -/
theorem declarations_defineAll_prefix (c : Compilation) {first all : List (Place × Shape)}
    (h : first <+: all) :
    (c.defineAll first).2.declarations <+: (c.defineAll all).2.declarations := by
  obtain ⟨further, rfl⟩ := h
  obtain ⟨added, hdeclarations, -⟩ := extends_defineAll (c.defineAll first).2 further
  rw [defineAll_append, hdeclarations]
  exact List.prefix_append _ added

end Compilation

namespace DeclarationFile

/-- A file is what the objects of its document declare, in whatever events the search
for them has resulted. -/
theorem declarations_ofDocument (document : Json) (header : List String) :
    (ofDocument document header).1.declarations = (({} : Compilation).defineAll
      (Call.extraction (Extraction.ofDocument document).1).definitions).2.declarations := by
  have hstart : ({ events := (Extraction.ofDocument document).2 } : Compilation).Agrees {} :=
    ⟨rfl, rfl⟩
  exact (hstart.defineAll _).2

/-- Sections that are added at the end leave the text before them as it is. -/
theorem intercalate_prefix (separator : String) {first all : List String} (h : first <+: all) :
    (String.intercalate separator first).toList <+:
      (String.intercalate separator all).toList := by
  obtain ⟨further, rfl⟩ := h
  by_cases hfirst : first = []
  · subst hfirst
    simp
  · by_cases hfurther : further = []
    · subst hfurther
      simp
    · rw [String.intercalate_append_of_ne_nil hfirst hfurther, String.toList_append,
        String.toList_append, List.append_assoc]
      exact List.prefix_append _ _

/-- Two files under one header, the second with further declarations, begin with the
same text. -/
theorem text_prefix {f g : DeclarationFile} (hheader : f.header = g.header)
    (h : f.declarations <+: g.declarations) : f.text.toList <+: g.text.toList := by
  refine intercalate_prefix "\n" ?_
  rw [sections, sections, hheader, List.prefix_append_right_inj]
  exact h.map _

/-- A document that grows at its end disturbs nothing of its output. The declarations
and names from before come first among the new ones, and the text begins with the
text from before. -/
theorem ofDocument_extends (document later : Json) (header : List String)
    (hkeys : document.DistinctKeys) (h : document.Grows later) :
    let file := (ofDocument document header).1
    let grown := (ofDocument later header).1
    file.declarations <+: grown.declarations ∧ file.names <+: grown.names ∧
      file.text.toList <+: grown.text.toList := by
  intro file grown
  have hobjects : (Call.extraction (Extraction.ofDocument document).1).definitions <+:
      (Call.extraction (Extraction.ofDocument later).1).definitions :=
    (Extraction.definitions_prefix h hkeys).filter _
  have hdeclarations : file.declarations <+: grown.declarations := by
    rw [declarations_ofDocument, declarations_ofDocument]
    exact Compilation.declarations_defineAll_prefix {} hobjects
  exact ⟨hdeclarations, hdeclarations.map _, text_prefix rfl hdeclarations⟩

/-- A second operation whose schema asks for the name of the first one's does not take
it away. -/
theorem ofDocument_extends_collision :
    let schema := Json.obj [("type", .str "object"), ("title", .str "Pet")]
    let operation := Json.obj [("schema", schema)]
    let document := Json.obj [("paths", .obj [("/a", operation)])]
    let later := Json.obj [("paths", .obj [("/a", operation), ("/b", operation)])]
    document.DistinctKeys ∧ document.Grows later ∧
    (ofDocument document []).1.names = ["Pet"] ∧ (ofDocument later []).1.names = ["Pet", "Pet0"] ∧
    (ofDocument document []).1.text.toList <+: (ofDocument later []).1.text.toList := by
  intro schema operation document later
  have hscalar : ∀ text, (Json.str text).DistinctKeys := fun text => .scalar rfl
  have hschema : schema.DistinctKeys := .record (by decide) (by simp [hscalar])
  have hoperation : operation.DistinctKeys := .record (by decide) (by simp [hschema])
  have hpaths : (Json.obj [("/a", operation)]).DistinctKeys :=
    .record (by decide) (by simp [hoperation])
  have hkeys : document.DistinctKeys := .record (by decide) (by simp [hpaths])
  have hgrows : document.Grows later :=
    @Json.Grows.underKey [] "paths" _ _ (by decide)
      (@Json.Grows.member [("/a", operation)] "/b" operation (by decide) hoperation)
  exact ⟨hkeys, hgrows, by decide +kernel, by decide +kernel,
    (ofDocument_extends document later [] hkeys hgrows).2.2⟩

end DeclarationFile

end ApiInterfaces
