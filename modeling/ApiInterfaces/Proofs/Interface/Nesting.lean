import ApiInterfaces.Proofs.Interface.Forest
import ApiInterfaces.Proofs.Interface.Names
import ApiInterfaces.Proofs.Naming.Claims
import ApiInterfaces.Proofs.Naming.Extension

/-!
The names that objects ask for. A run claims one name for each object, in the order of its
declarations. An untitled object nested in an interface asks for a name that begins with the name
of this interface, collision number included, if all characters of that name are kept when a name
is cleaned; if one is dropped, it does not.
-/

namespace ApiInterfaces

open Naming

/-- Where an object stands. -/
inductive Site where
  | definition (place : Place)
  /-- Under a property of the interface `outer`, maybe inside arrays. -/
  | nested (outer property : String)

/-- The claim of a name for an object. -/
structure ObjectClaim where
  site : Site
  docs : ShapeDocs
  /-- The name granted. -/
  name : String

namespace ObjectClaim

/-- The name asked for. -/
def base (claim : ObjectClaim) : String :=
  match claim.site with
  | .definition place => Shape.definitionBase claim.docs place
  | .nested outer property => Shape.nestedBase claim.docs outer property

/-- The text that the name asked for is made from: a title, a place, or the interface around the
object and a property. -/
def source (claim : ObjectClaim) : List Char :=
  match claim.docs.title, claim.site with
  | some title, _ => capitalizedWords title
  | none, .definition place =>
    (place.filter fun s => !isMarker s).flatMap fun s => capitalize s.toList
  | none, .nested outer property => outer.toList ++ capitalizedWords property

theorem base_eq (claim : ObjectClaim) :
    claim.base = String.ofList (identifierChars claim.source) := by
  obtain ⟨site, ⟨description, title, externalDocs⟩, name⟩ := claim
  cases title <;> cases site <;> rfl

/-- The interface that an untitled object is nested in. -/
def outer? (claim : ObjectClaim) : Option String :=
  match claim.site, claim.docs.title with
  | .nested outer _, none => some outer
  | _, _ => none

/-- The object stands under a member of one of the declarations, which refers to it. -/
def Inside (claim : ObjectClaim) (declarations : List Declaration) : Prop :=
  ∃ d ∈ declarations, ∃ m ∈ d.members,
    claim.site = .nested d.name m.name ∧ claim.name ∈ m.type.references

theorem Inside.mono {claim : ObjectClaim} {declarations more : List Declaration}
    (h : claim.Inside declarations) (hsubset : declarations ⊆ more) : claim.Inside more := by
  obtain ⟨d, hd, hmember⟩ := h
  exact ⟨d, hsubset hd, hmember⟩

end ObjectClaim

/-! The claims of a run. -/

namespace Shape

mutual

/-- The claims for the objects in a shape under `property` of the interface `outer`. -/
def claims (outer property : String) : Shape → NameLog → List ObjectClaim
  | .array item _, log => claims outer property item log
  | .tuple alternatives _, log => claimsInAll outer property alternatives log
  | .object properties _ _ docs, log =>
    let claimed := log.claim (nestedBase docs outer property)
    ⟨.nested outer property, docs, claimed.1⟩ ::
      claimsInProperties claimed.1 properties claimed.2
  | .primitive .., _ | .enumeration .., _ | .untypedArray _, _ | .unspecified _, _
  | .unreadable, _ => []

def claimsInAll (outer property : String) : List Shape → NameLog → List ObjectClaim
  | [], _ => []
  | shape :: rest, log =>
    claims outer property shape log ++
      claimsInAll outer property rest (typeOf outer property shape log).log

def claimsInProperties (name : String) : List (String × Shape) → NameLog → List ObjectClaim
  | [], _ => []
  | (property, shape) :: rest, log =>
    claims name property shape log ++
      claimsInProperties name rest (typeOf name property shape log).log

end

/-- The claims for an object that is defined at a place, and for those in it. -/
def claimsAt (place : Place) (properties : List (String × Shape)) (docs : ShapeDocs)
    (log : NameLog) : List ObjectClaim :=
  let claimed := log.claim (definitionBase docs place)
  ⟨.definition place, docs, claimed.1⟩ :: claimsInProperties claimed.1 properties claimed.2

end Shape

namespace Compilation

/-- The claims for a definition; only objects claim names. -/
def claimsFor (c : Compilation) (place : Place) : Shape → List ObjectClaim
  | .object properties _ _ docs => Shape.claimsAt place properties docs ⟨c.registry, c.events⟩
  | _ => []

/-- The claims for definitions that are compiled one after another. -/
def claimsForAll (c : Compilation) : List (Place × Shape) → List ObjectClaim
  | [] => []
  | (place, shape) :: rest =>
    c.claimsFor place shape ++ (c.define place shape).2.claimsForAll rest

/-- The claims of a run. -/
def claimsOf (calls : List Call) : List ObjectClaim :=
  ({} : Compilation).claimsForAll (calls.flatMap Call.definitions)

end Compilation

/-! The claims make the names of the declarations. -/

namespace Compiled

variable {α β : Type} {log : NameLog}

/-- Compiling a part amounts to making these claims one after another. Each object that is not
inside one of the declarations lifted out of the part is where `direct` says. -/
structure Traced (log : NameLog) (c : Compiled α) (claims : List ObjectClaim)
    (direct : ObjectClaim → Prop) : Prop where
  granted : log.registry.claimAll (claims.map (·.base)) =
    (c.lifted.map (·.name), c.log.registry)
  names : claims.map (·.name) = c.lifted.map (·.name)
  sites : ∀ claim ∈ claims, direct claim ∨ claim.Inside c.lifted

variable {claims others : List ObjectClaim} {direct direct' : ObjectClaim → Prop}

theorem traced_pure (value : α) (log : NameLog) (direct : ObjectClaim → Prop) :
    (Compiled.pure value log).Traced log [] direct :=
  ⟨rfl, rfl, by simp⟩

theorem Traced.imp {c : Compiled α} (h : c.Traced log claims direct)
    (himp : ∀ claim, direct claim → direct' claim) : c.Traced log claims direct' :=
  ⟨h.granted, h.names, fun claim hclaim => (h.sites claim hclaim).imp_left (himp claim)⟩

theorem Traced.map {c : Compiled α} (h : c.Traced log claims direct) (f : α → β) :
    (c.map f).Traced log claims direct :=
  ⟨h.granted, h.names, h.sites⟩

theorem Traced.cons {first : Compiled α} {rest : NameLog → Compiled (List α)}
    (hfirst : first.Traced log claims direct)
    (hrest : (rest first.log).Traced first.log others direct) :
    (first.cons rest).Traced log (claims ++ others) direct where
  granted := by
    rw [List.map_append, Registry.claimAll_append, hfirst.granted, hrest.granted]
    simp [Compiled.cons]
  names := by
    rw [List.map_append, hfirst.names, hrest.names]
    simp [Compiled.cons]
  sites claim hclaim := by
    rcases List.mem_append.mp hclaim with hclaim | hclaim
    · exact (hfirst.sites claim hclaim).imp_right
        fun hinside => hinside.mono (List.subset_append_left _ _)
    · exact (hrest.sites claim hclaim).imp_right
        fun hinside => hinside.mono (List.subset_append_right _ _)

/-- The first claim is that of the object itself, and those for its members are inside it. -/
theorem traced_declareWith (site : Site) (base : String) (additional : Bool) (docs : ShapeDocs)
    (hbase : ∀ name, (ObjectClaim.mk site docs name).base = base)
    {members : String → NameLog → Compiled (List Member)}
    {inner : String → NameLog → List ObjectClaim}
    (hmembers : ∀ name log, (members name log).Traced log (inner name log) fun claim =>
      ∃ m ∈ (members name log).value,
        claim.site = .nested name m.name ∧ claim.name ∈ m.type.references) (log : NameLog) :
    let claimed := log.claim base
    (Shape.declareWith base additional docs members log).Traced log
      (⟨site, docs, claimed.1⟩ :: inner claimed.1 claimed.2) (· = ⟨site, docs, claimed.1⟩) := by
  intro claimed
  have hinner := hmembers claimed.1 claimed.2
  refine ⟨?_, ?_, ?_⟩
  · rw [List.map_cons, Registry.claimAll_cons, hbase]
    have hgranted : (log.registry.claim base).2.claimAll _ = _ := hinner.granted
    rw [hgranted]
    rfl
  · rw [List.map_cons, hinner.names]
    rfl
  · intro claim hclaim
    rcases List.mem_cons.mp hclaim with rfl | hclaim
    · exact .inl rfl
    · right
      rcases hinner.sites claim hclaim with ⟨m, hm, hsite, hreference⟩ | hinside
      · exact ⟨_, List.mem_cons_self, m, hm, hsite, hreference⟩
      · exact hinside.mono (List.subset_cons_self _ _)

end Compiled

namespace Shape

open Compiled

mutual

theorem traced_typeOf (outer property : String) (shape : Shape) (log : NameLog) :
    (typeOf outer property shape log).Traced log (claims outer property shape log) fun claim =>
      claim.site = .nested outer property ∧
        claim.name ∈ (typeOf outer property shape log).value.references := by
  cases shape with
  | primitive kind docs => cases kind <;> exact traced_pure _ log _
  | array item docs => exact (traced_typeOf outer property item log).map _
  | tuple alternatives docs => exact (traced_typesOf outer property alternatives log).map _
  | object properties required additional docs =>
      have hdeclared := traced_declareWith (.nested outer property)
        (nestedBase docs outer property) additional docs (fun name => rfl)
        (fun name log => traced_membersOf name required properties log) log
      refine (hdeclared.map _).imp ?_
      rintro claim rfl
      exact ⟨rfl, List.mem_singleton_self _⟩
  | _ => exact traced_pure _ log _

theorem traced_typesOf (outer property : String) (shapes : List Shape) (log : NameLog) :
    (typesOf outer property shapes log).Traced log (claimsInAll outer property shapes log)
      fun claim => claim.site = .nested outer property ∧
        claim.name ∈ TypeExpr.referencesIn (typesOf outer property shapes log).value := by
  cases shapes with
  | nil => exact traced_pure _ log _
  | cons shape rest =>
      have hfirst := traced_typeOf outer property shape log
      have hrest := traced_typesOf outer property rest (typeOf outer property shape log).log
      refine Traced.cons (hfirst.imp ?_) (hrest.imp ?_)
      · rintro claim ⟨hsite, hname⟩
        exact ⟨hsite, List.mem_append_left _ hname⟩
      · rintro claim ⟨hsite, hname⟩
        exact ⟨hsite, List.mem_append_right _ hname⟩

theorem traced_membersOf (name : String) (required : List String)
    (properties : List (String × Shape)) (log : NameLog) :
    (membersOf name required properties log).Traced log (claimsInProperties name properties log)
      fun claim => ∃ m ∈ (membersOf name required properties log).value,
        claim.site = .nested name m.name ∧ claim.name ∈ m.type.references := by
  cases properties with
  | nil => exact traced_pure _ log _
  | cons property rest =>
      obtain ⟨property, shape⟩ := property
      have hfirst := traced_typeOf name property shape log
      have hrest := traced_membersOf name required rest (typeOf name property shape log).log
      refine Traced.cons ((hfirst.map _).imp ?_) (hrest.imp ?_)
      · rintro claim ⟨hsite, hname⟩
        exact ⟨_, List.mem_cons_self, hsite, hname⟩
      · rintro claim ⟨m, hm, hsite, hname⟩
        exact ⟨m, List.mem_cons_of_mem _ hm, hsite, hname⟩

end

theorem traced_declaredAt (place : Place) (properties : List (String × Shape))
    (required : List String) (additional : Bool) (docs : ShapeDocs) (log : NameLog) :
    (declaredAt place properties required additional docs log).Traced log
      (claimsAt place properties docs log) fun claim => claim.site = .definition place := by
  have hdeclared := traced_declareWith (.definition place) (definitionBase docs place) additional
    docs (fun name => rfl) (fun name log => traced_membersOf name required properties log) log
  refine hdeclared.imp ?_
  rintro claim rfl
  rfl

end Shape

namespace Compilation

/-- A compilation leads to another by making these claims, and declares an interface for each. -/
structure Traced (c next : Compilation) (claims : List ObjectClaim) : Prop where
  granted : c.registry.claimAll (claims.map (·.base)) = (claims.map (·.name), next.registry)
  declared : next.declarations.map (·.name) = c.declarations.map (·.name) ++ claims.map (·.name)
  kept : c.declarations ⊆ next.declarations
  sites : ∀ claim ∈ claims,
    (∃ place, claim.site = .definition place) ∨ claim.Inside next.declarations

theorem traced_define (c : Compilation) (place : Place) (shape : Shape) :
    c.Traced (c.define place shape).2 (c.claimsFor place shape) := by
  rcases shape.not_isObject_or_eq_object with
    hobject | ⟨properties, required, additional, docs, rfl⟩
  · have hnone : c.claimsFor place shape = [] := by
      cases shape with
      | object => simp [Shape.isObject] at hobject
      | _ => rfl
    rw [define_of_not_isObject c place hobject, hnone]
    exact ⟨rfl, by simp [skip], fun d hd => hd, by simp⟩
  · have hdeclared := Shape.traced_declaredAt place properties required additional docs
      ⟨c.registry, c.events⟩
    rw [define_object]
    refine ⟨?_, ?_, List.subset_append_left _ _, fun claim hclaim => ?_⟩
    · rw [claimsFor, hdeclared.names]
      exact hdeclared.granted
    · rw [claimsFor, hdeclared.names, add, List.map_append]
    · rcases hdeclared.sites claim hclaim with hsite | hinside
      · exact .inl ⟨place, hsite⟩
      · exact .inr (hinside.mono (List.subset_append_right _ _))

theorem Traced.trans {c next last : Compilation} {claims others : List ObjectClaim}
    (h : c.Traced next claims) (hnext : next.Traced last others) :
    c.Traced last (claims ++ others) where
  granted := by
    rw [List.map_append, Registry.claimAll_append, h.granted, hnext.granted, List.map_append]
  declared := by rw [hnext.declared, h.declared, List.map_append, List.append_assoc]
  kept := List.Subset.trans h.kept hnext.kept
  sites claim hclaim := by
    rcases List.mem_append.mp hclaim with hclaim | hclaim
    · exact (h.sites claim hclaim).imp_right fun hinside => hinside.mono hnext.kept
    · exact hnext.sites claim hclaim

theorem traced_defineAll (c : Compilation) (definitions : List (Place × Shape)) :
    c.Traced (c.defineAll definitions).2 (c.claimsForAll definitions) := by
  induction definitions generalizing c with
  | nil => exact ⟨rfl, by simp [claimsForAll], fun d hd => hd, by simp [claimsForAll]⟩
  | cons definition rest ih =>
      obtain ⟨place, shape⟩ := definition
      exact (traced_define c place shape).trans (ih _)

theorem traced_run (calls : List Call) :
    ({} : Compilation).Traced (({} : Compilation).run calls).2 (claimsOf calls) := by
  rw [run_eq_defineAll]
  exact traced_defineAll {} _

/-- An untitled nested object stands in a declaration and asks for a name made from that of the
declaration and from a property. -/
theorem exists_host {claim : ObjectClaim} {declarations : List Declaration} {outer : String}
    (hsite : (∃ place, claim.site = .definition place) ∨ claim.Inside declarations)
    (houter : outer ∈ claim.outer?) :
    ∃ d ∈ declarations, d.name = outer ∧ ∃ property, claim.base = ofProperty outer property := by
  obtain ⟨site, docs, name⟩ := claim
  cases site with
  | definition place => simp [ObjectClaim.outer?] at houter
  | nested host property =>
      rcases hsite with ⟨place, hplace⟩ | ⟨d, hd, m, -, hhost, -⟩
      · cases hplace
      · obtain ⟨rfl, rfl⟩ := Site.nested.inj hhost
        cases htitle : docs.title with
        | some title => simp [ObjectClaim.outer?, htitle] at houter
        | none =>
            have hname : d.name = outer := by simpa [ObjectClaim.outer?, htitle] using houter
            refine ⟨d, hd, hname, m.name, ?_⟩
            simp [ObjectClaim.base, Shape.nestedBase, htitle, hname]

theorem prefix_ofProperty_iff {outer property : String} (h : BeginsHigh outer) :
    outer.toList <+: (ofProperty outer property).toList ↔
      ∀ c ∈ outer.toList, isIdentifierChar c = true := by
  obtain ⟨first, rest, hname, -, hdigit⟩ := h
  have hfirst : ∀ c ∈ outer.toList.head?, c.isDigit = false := by simp [hname, hdigit]
  rw [ofProperty, String.toList_ofList]
  exact prefix_identifierChars_iff hfirst

/-- A run claims one name for each of its declarations, in their order, and an object that is not
defined at a place stands under a member that refers to it. The name that an untitled nested
object asks for begins with that of the interface around it if and only if all characters of this
name are kept when names are cleaned. They are if the texts are made of characters that stay among
those kept in upper case, as all characters of ASCII do. -/
theorem nested_base_extends_iff (calls : List Call) :
    let c := (({} : Compilation).run calls).2
    let claims := claimsOf calls
    ({} : Registry).claimAll (claims.map (·.base)) = (c.declarations.map (·.name), c.registry) ∧
    claims.map (·.name) = c.declarations.map (·.name) ∧
    (∀ claim ∈ claims, (∃ place, claim.site = .definition place) ∨ claim.Inside c.declarations) ∧
    (∀ claim ∈ claims, ∀ outer ∈ claim.outer?,
      (outer.toList <+: claim.base.toList ↔ ∀ c ∈ outer.toList, isIdentifierChar c = true)) ∧
    ∀ A, IdentifierSyntax.kept.Tames A →
      (∀ call ∈ calls, ∀ text ∈ call.texts, ∀ c ∈ text.toList, A c) →
      ∀ claim ∈ claims, ∀ outer ∈ claim.outer?, outer.toList <+: claim.base.toList := by
  intro c claims
  have htraced : ({} : Compilation).Traced c claims := traced_run calls
  have hnames : claims.map (·.name) = c.declarations.map (·.name) := by
    simpa using htraced.declared.symm
  have hhigh : ∀ d ∈ c.declarations, BeginsHigh d.name := beginsHigh_declarations calls
  have hextends : ∀ claim ∈ claims, ∀ outer ∈ claim.outer?,
      (outer.toList <+: claim.base.toList ↔ ∀ c ∈ outer.toList, isIdentifierChar c = true) := by
    intro claim hclaim outer houter
    obtain ⟨d, hd, rfl, property, hbase⟩ := exists_host (htraced.sites claim hclaim) houter
    rw [hbase]
    exact prefix_ofProperty_iff (hhigh d hd)
  refine ⟨hnames ▸ htraced.granted, hnames, htraced.sites, hextends, ?_⟩
  intro A hA htexts claim hclaim outer houter
  refine (hextends claim hclaim outer houter).mpr ?_
  obtain ⟨d, hd, rfl, -⟩ := exists_host (htraced.sites claim hclaim) houter
  exact IdentifierSyntax.isIdentifierChar_of_legal_kept (hA.preserves.named_run htexts d hd).legal

/-- The upper-case form of `ǰ` is `J` with a caron behind it. The caron gets into a name when a
gap stands in front of `ǰ`, and is dropped when another name is made from that name, so that the
letter behind it is changed too. -/
theorem nested_base_extends_not_caron :
    let inner := Shape.object [] [] false {}
    let shape := Shape.object [("x", inner)] [] false { title := some "a-\u01F0b" }
    let claims := claimsOf [.definition ["p"] shape]
    claims.map (·.outer?) = [none, some "AJ\u030Cb"] ∧
      claims.map (·.base) = ["AJ\u030Cb", "AJBX"] ∧
      ¬ "AJ\u030Cb".toList <+: "AJBX".toList := by
  decide +kernel

end Compilation

end ApiInterfaces
