import ApiInterfaces.Proofs.Interface.Run
import ApiInterfaces.Proofs.Naming.Initials

/-!
The names of a run and the texts that they are made from. A name is made from a title, from the
name around it and a property, or from a place; a property of names that all of these preserve
holds of every declaration.
-/

namespace ApiInterfaces

open Naming

namespace Shape

mutual

/-- The titles of the objects in a shape, and the properties under which others stand. -/
def texts : Shape → List String
  | .object properties _ _ docs => docs.title.toList ++ textsInProperties properties
  | .array item _ => item.texts
  | .tuple alternatives _ => textsInAll alternatives
  | .primitive .. | .enumeration .. | .untypedArray _ | .unspecified _ | .unreadable => []

def textsInAll : List Shape → List String
  | [] => []
  | shape :: rest => shape.texts ++ textsInAll rest

def textsInProperties : List (String × Shape) → List String
  | [] => []
  | (property, shape) :: rest => property :: (shape.texts ++ textsInProperties rest)

end

end Shape

/-- The texts that names are made from, those of the definitions handed over. -/
def Call.texts (call : Call) : List String :=
  call.definitions.flatMap fun (place, shape) => place ++ shape.texts

/-- The declarations lifted out of a part have names with the property. -/
def Compiled.Named {α : Type} (N : String → Prop) (c : Compiled α) : Prop :=
  ∀ d ∈ c.lifted, N d.name

namespace Compiled

variable {α β : Type} {N : String → Prop}

theorem named_pure (value : α) (log : NameLog) : (Compiled.pure value log).Named N :=
  fun _ hd => absurd hd List.not_mem_nil

theorem Named.map {c : Compiled α} (h : c.Named N) (f : α → β) : (c.map f).Named N := h

theorem Named.cons {first : Compiled α} {rest : NameLog → Compiled (List α)}
    (hfirst : first.Named N) (hrest : (rest first.log).Named N) : (first.cons rest).Named N := by
  intro d hd
  rcases List.mem_append.mp hd with hd | hd
  · exact hfirst d hd
  · exact hrest d hd

end Compiled

namespace Naming.Preserves

open Shape

variable {T N : String → Prop}

theorem nestedBase (h : Preserves T N) {docs : ShapeDocs} (hdocs : ∀ title ∈ docs.title, T title)
    {outer property : String} (houter : N outer) (hproperty : T property) :
    N (Shape.nestedBase docs outer property) := by
  unfold Shape.nestedBase
  split
  next title htitle => exact h.title title (hdocs title htitle)
  next => exact h.property outer property houter hproperty

theorem definitionBase (h : Preserves T N) {docs : ShapeDocs}
    (hdocs : ∀ title ∈ docs.title, T title) {place : Place}
    (hplace : ∀ segment ∈ place, T segment) : N (Shape.definitionBase docs place) := by
  unfold Shape.definitionBase
  split
  next title htitle => exact h.title title (hdocs title htitle)
  next => exact h.path place hplace

/-- The members are compiled under a name that has the property too. -/
theorem named_declareWith (h : Preserves T N) {base : String} (hbase : N base) (additional : Bool)
    (docs : ShapeDocs) {members : String → NameLog → Compiled (List Member)}
    (hmembers : ∀ name log, N name → (members name log).Named N) (log : NameLog) :
    (declareWith base additional docs members log).Named N := by
  have hname : N (log.claim base).1 := h.fresh hbase log.registry
  intro d hd
  rcases List.mem_cons.mp hd with rfl | hd
  · exact hname
  · exact hmembers _ _ hname d hd

mutual

theorem named_typeOf (h : Preserves T N) {outer property : String} (houter : N outer)
    (hproperty : T property) (shape : Shape) (htexts : ∀ text ∈ shape.texts, T text)
    (log : NameLog) : (typeOf outer property shape log).Named N := by
  cases shape with
  | primitive kind docs => cases kind <;> exact Compiled.named_pure _ log
  | array item docs => exact h.named_typeOf houter hproperty item htexts log
  | tuple alternatives docs => exact h.named_typesOf houter hproperty alternatives htexts log
  | object properties required additional docs =>
      have hdocs : ∀ title ∈ docs.title, T title := fun title htitle =>
        htexts title (List.mem_append_left _ (Option.mem_toList.mpr htitle))
      exact h.named_declareWith (h.nestedBase hdocs houter hproperty) additional docs
        (fun name log hname => h.named_membersOf hname required properties
          (fun text htext => htexts text (List.mem_append_right _ htext)) log) log
  | _ => exact Compiled.named_pure _ log

theorem named_typesOf (h : Preserves T N) {outer property : String} (houter : N outer)
    (hproperty : T property) (shapes : List Shape) (htexts : ∀ text ∈ textsInAll shapes, T text)
    (log : NameLog) : (typesOf outer property shapes log).Named N := by
  cases shapes with
  | nil => exact Compiled.named_pure _ log
  | cons shape rest =>
      have hfirst := h.named_typeOf houter hproperty shape
        (fun text htext => htexts text (List.mem_append_left _ htext)) log
      exact hfirst.cons (h.named_typesOf houter hproperty rest
        (fun text htext => htexts text (List.mem_append_right _ htext)) _)

theorem named_membersOf (h : Preserves T N) {name : String} (hname : N name)
    (required : List String) (properties : List (String × Shape))
    (htexts : ∀ text ∈ textsInProperties properties, T text) (log : NameLog) :
    (membersOf name required properties log).Named N := by
  cases properties with
  | nil => exact Compiled.named_pure _ log
  | cons property rest =>
      obtain ⟨property, shape⟩ := property
      have hproperty : T property := htexts property List.mem_cons_self
      have hinside : ∀ text ∈ shape.texts ++ textsInProperties rest, T text := fun text htext =>
        htexts text (List.mem_cons_of_mem property htext)
      have hfirst := h.named_typeOf hname hproperty shape
        (fun text htext => hinside text (List.mem_append_left _ htext)) log
      exact (hfirst.map _).cons (h.named_membersOf hname required rest
        (fun text htext => hinside text (List.mem_append_right _ htext)) _)

end

theorem named_define (h : Preserves T N) {c : Compilation} (hc : ∀ d ∈ c.declarations, N d.name)
    {place : Place} {shape : Shape} (htexts : ∀ text ∈ place ++ shape.texts, T text) :
    ∀ d ∈ (c.define place shape).2.declarations, N d.name := by
  rcases shape.not_isObject_or_eq_object with
    hobject | ⟨properties, required, additional, docs, rfl⟩
  · rw [Compilation.define_of_not_isObject c place hobject]
    exact hc
  · have hplace : ∀ segment ∈ place, T segment := fun segment hsegment =>
      htexts segment (List.mem_append_left _ hsegment)
    have hdocs : ∀ title ∈ docs.title, T title := fun title htitle =>
      htexts title (List.mem_append_right _
        (List.mem_append_left _ (Option.mem_toList.mpr htitle)))
    have hproperties : ∀ text ∈ textsInProperties properties, T text := fun text htext =>
      htexts text (List.mem_append_right _ (List.mem_append_right _ htext))
    have hdeclared := h.named_declareWith (h.definitionBase hdocs hplace) additional docs
      (fun name log hname => h.named_membersOf hname required properties hproperties log)
      ⟨c.registry, c.events⟩
    intro d hd
    rcases List.mem_append.mp hd with hd | hd
    · exact hc d hd
    · exact hdeclared d hd

theorem named_defineAll (h : Preserves T N) {c : Compilation}
    (hc : ∀ d ∈ c.declarations, N d.name) {definitions : List (Place × Shape)}
    (htexts : ∀ definition ∈ definitions, ∀ text ∈ definition.1 ++ definition.2.texts, T text) :
    ∀ d ∈ (c.defineAll definitions).2.declarations, N d.name := by
  induction definitions generalizing c with
  | nil => exact hc
  | cons definition rest ih =>
      have hfirst := h.named_define hc (htexts definition List.mem_cons_self)
      exact ih hfirst fun other hother => htexts other (List.mem_cons_of_mem definition hother)

/-- A property that is preserved holds of every name of a run. -/
theorem named_run (h : Preserves T N) {calls : List Call}
    (htexts : ∀ call ∈ calls, ∀ text ∈ call.texts, T text) :
    ∀ d ∈ (({} : Compilation).run calls).2.declarations, N d.name := by
  rw [Compilation.run_eq_defineAll]
  apply h.named_defineAll (by simp)
  intro definition hdefinition text htext
  obtain ⟨call, hcall, hmem⟩ := List.mem_flatMap.mp hdefinition
  exact htexts call hcall text (List.mem_flatMap.mpr ⟨definition, hmem, htext⟩)

end Naming.Preserves

namespace Compilation

theorem beginsHigh_declarations (calls : List Call) :
    ∀ d ∈ (({} : Compilation).run calls).2.declarations, BeginsHigh d.name :=
  preserves_beginsHigh.named_run fun _ _ _ _ => trivial

end Compilation

end ApiInterfaces
