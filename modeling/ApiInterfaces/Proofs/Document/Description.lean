import ApiInterfaces.Document.Loading
import ApiInterfaces.Json.Printer
import ApiInterfaces.Proofs.Document.Inlining
import ApiInterfaces.Proofs.Files.Delivery

/-!
Descriptions of APIs after their references are inlined. What a document lacks is looked for
before references are followed, and following them may put another node in the place of the root
or of its paths. The loaded document describes an API exactly if the unfolded one does.
-/

namespace ApiInterfaces.Json

/-- The node is a record with the text of a version and a record of paths, by what counts as its
members. -/
structure Describes (node : Json) (member : String → Json → Prop) : Prop where
  record : node.isObject = true
  version : ∃ key ∈ ["swagger", "openapi"], ∃ child, member key child ∧ child.str?.isSome = true
  paths : ∃ child, member "paths" child ∧ child.isObject = true

/-- A document without defect is a record with the text of a version and a record of paths. -/
theorem defect?_eq_none_iff {document : Json} :
    document.defect? = none ↔
      document.Describes fun key child => document.get? key = some child := by
  have hchecks : document.defect? = none ↔ document.isObject = true ∧
      ((((document.get? "swagger").bind str?).isSome = true ∨
        ((document.get? "openapi").bind str?).isSome = true) ∧
      (document.get? "paths").any isObject = true) := by
    unfold defect?
    grind
  have htext (key : String) : ((document.get? key).bind str?).isSome = true ↔
      ∃ child, document.get? key = some child ∧ child.str?.isSome = true := by
    cases document.get? key <;> simp
  have hrecord : (document.get? "paths").any isObject = true ↔
      ∃ child, document.get? "paths" = some child ∧ child.isObject = true := by
    cases document.get? "paths" <;> simp
  rw [hchecks, htext, htext, hrecord]
  constructor
  · rintro ⟨hobject, hversion, hpaths⟩
    refine ⟨hobject, ?_, hpaths⟩
    rcases hversion with hversion | hversion
    · exact ⟨"swagger", by decide, hversion⟩
    · exact ⟨"openapi", by decide, hversion⟩
  · rintro ⟨hobject, ⟨key, hkey, hversion⟩, hpaths⟩
    refine ⟨hobject, ?_, hpaths⟩
    simp only [List.mem_cons, List.not_mem_nil, or_false] at hkey
    rcases hkey with rfl | rfl
    · exact .inl hversion
    · exact .inr hversion

/-! The unfolded document. -/

/-- What the unfolded document has under a key of a node that is met after the references
`followed`. Inside a reference that is not followed everything is as it stands. -/
inductive HasMember (document : Json) (followed : List String) (node : Json) (key : String) :
    Json → Prop
  | kept {reference : String} {child : Json} :
      node.IsReference reference → node.get? key = some child →
      HasMember document followed node key child
  | settled {further : List String} {child settled : Json} :
      (∀ reference, ¬ node.IsReference reference) → node.get? key = some child →
      Settles document followed child further settled →
      HasMember document followed node key settled

/-- Unfolded, the document describes an API. -/
def UnfoldsToDescription (document : Json) : Prop :=
  ∃ followed root, Reaches document [] followed root ∧
    root.Describes (HasMember document followed root)

section

variable {document node settled : Json} {left : Nat} {followed further : List String}

/-- Where following references ends, inlining keeps what shows in the outline. -/
theorem inlineFrom_settled {p : Json → Bool}
    (hp : ∀ node result, SameOutline node result → p result = p node)
    (h : ∀ reference, settled.IsReference reference →
      document.target? reference = none ∨ reference ∈ followed) :
    p (inlineFrom document left followed settled).1 = p settled := by
  by_cases hplain : ∀ reference, ¬ settled.IsReference reference
  · exact hp _ _ (sameOutline_inlineFrom left followed hplain)
  · push Not at hplain
    obtain ⟨reference, hreference⟩ := hplain
    rw [inlineFrom_of_stays hreference (h reference hreference)]

theorem exists_member_inlineFrom_iff {p : Json → Bool}
    (hp : ∀ node result, SameOutline node result → p result = p node)
    (hbudget : Budgeted document left followed node)
    (h : ∀ reference, node.IsReference reference →
      document.target? reference = none ∨ reference ∈ followed) (key : String) :
    (∃ child, (inlineFrom document left followed node).1.get? key = some child ∧ p child = true) ↔
      ∃ child, HasMember document followed node key child ∧ p child = true := by
  by_cases hplain : ∀ reference, ¬ node.IsReference reference
  · have hget : (inlineFrom document left followed node).1.get? key =
        (node.get? key).map fun child => (inlineFrom document left followed child).1 :=
      along?_inlineFrom left followed hplain (.key key)
    rw [hget]
    constructor
    · rintro ⟨result, hresult, hpresult⟩
      obtain ⟨child, hchild, rfl⟩ := Option.map_eq_some_iff.mp hresult
      have hinside := hbudget.descend (localReferences_subset_of_get? hchild)
      obtain ⟨further, settled, hsettles⟩ := hinside.exists_settles
      obtain ⟨rest, -, heq⟩ := hsettles.inlineFrom_eq hinside
      rw [heq, inlineFrom_settled hp fun _ => hsettles.settled] at hpresult
      exact ⟨settled, .settled hplain hchild hsettles, hpresult⟩
    · rintro ⟨member, hmember, hpmember⟩
      cases hmember with
      | kept hreference _ => exact absurd hreference (hplain _)
      | settled _ hchild hsettles =>
          have hinside := hbudget.descend (localReferences_subset_of_get? hchild)
          obtain ⟨rest, -, heq⟩ := hsettles.inlineFrom_eq hinside
          refine ⟨_, by rw [hchild, Option.map_some], ?_⟩
          rw [heq, inlineFrom_settled hp fun _ => hsettles.settled, hpmember]
  · push Not at hplain
    obtain ⟨reference, hreference⟩ := hplain
    rw [inlineFrom_of_stays hreference (h reference hreference)]
    constructor
    · rintro ⟨child, hchild, hpchild⟩
      exact ⟨child, .kept hreference hchild, hpchild⟩
    · rintro ⟨child, hmember, hpchild⟩
      cases hmember with
      | kept _ hchild => exact ⟨child, hchild, hpchild⟩
      | settled hplain _ _ => exact absurd hreference (hplain reference)

end

theorem SameOutline.isObject_eq (node result : Json) (h : SameOutline node result) :
    result.isObject = node.isObject := by
  cases h <;> rfl

theorem SameOutline.isSome_str?_eq (node result : Json) (h : SameOutline node result) :
    result.str?.isSome = node.str?.isSome := by
  cases h <;> rfl

/-- The inlined document has no defect exactly if the unfolded one describes an API. -/
theorem defect?_inlineReferences_eq_none_iff {document : Json} :
    document.inlineReferences.1.defect? = none ↔ document.UnfoldsToDescription := by
  have hat {followed : List String} {root : Json} (h : Reaches document [] followed root) :
      document.inlineReferences.1.defect? = none ↔
        root.Describes (HasMember document followed root) := by
    obtain ⟨left, hbudget, hroot⟩ := h.at?_eq
    have hresult : document.inlineReferences.1 = (inlineFrom document left followed root).1 :=
      Option.some.inj hroot
    have hsettled : ∀ reference, root.IsReference reference →
        document.target? reference = none ∨ reference ∈ followed := fun _ => h.settled
    have hversion := exists_member_inlineFrom_iff SameOutline.isSome_str?_eq hbudget hsettled
    have hpaths := exists_member_inlineFrom_iff SameOutline.isObject_eq hbudget hsettled "paths"
    have hobject : (inlineFrom document left followed root).1.isObject = root.isObject :=
      inlineFrom_settled SameOutline.isObject_eq hsettled
    rw [hresult, defect?_eq_none_iff]
    constructor
    · rintro ⟨hrecord, ⟨key, hkey, hchild⟩, hchildren⟩
      exact ⟨hobject ▸ hrecord, ⟨key, hkey, (hversion key).mp hchild⟩, hpaths.mp hchildren⟩
    · rintro ⟨hrecord, ⟨key, hkey, hchild⟩, hchildren⟩
      exact ⟨hobject.trans hrecord, ⟨key, hkey, (hversion key).mpr hchild⟩, hpaths.mpr hchildren⟩
  obtain ⟨followed, root, hsettles⟩ := (Budgeted.start document).exists_settles
  constructor
  · intro h
    exact ⟨followed, root, .root hsettles, (hat (.root hsettles)).mp h⟩
  · rintro ⟨followed, root, hreaches, hdescribes⟩
    exact (hat hreaches).mpr hdescribes

/-- Where neither the root nor its paths are a reference, nothing that has been looked for is
replaced. -/
theorem unfoldsToDescription_of_plain {document : Json} (h : document.defect? = none)
    (hroot : ∀ reference, ¬ document.IsReference reference)
    (hpaths : ∀ child reference, document.get? "paths" = some child →
      ¬ child.IsReference reference) : document.UnfoldsToDescription := by
  have hstays {node : Json} (hnode : ∀ reference, ¬ node.IsReference reference) :
      Settles document [] node [] node :=
    .stays fun reference _ hreference _ => absurd hreference (hnode reference)
  obtain ⟨hrecord, ⟨key, hkey, version, hversion, htext⟩, child, hchild, hchildRecord⟩ :=
    defect?_eq_none_iff.mp h
  have hscalar : ∀ reference, ¬ version.IsReference reference := by
    cases version with
    | str text => simp [IsReference, get?]
    | _ => simp [str?] at htext
  have hplain : ∀ reference, ¬ child.IsReference reference := fun reference =>
    hpaths child reference hchild
  exact ⟨[], document, .root (hstays hroot), hrecord,
    ⟨key, hkey, version, .settled hroot hversion (hstays hscalar), htext⟩,
    child, .settled hroot hchild (hstays hplain), hchildRecord⟩

/-! Loading. -/

section

open FileTree

variable {host : Host (StateM FileTree)} {t : FileTree} {path : String} {document : Json}

/-- What is loaded has been read, found without defect, and inlined, in this order. -/
theorem exists_parsed_of_load (h : (load host path t).1.1 = .ok document) :
    ∃ contents parsed, (host.readText path t).1 = .ok contents ∧
      parse path contents = .ok parsed ∧ parsed.defect? = none ∧
      document = parsed.inlineReferences.1 := by
  rw [load, bind_apply] at h
  cases houtcome : (host.readText path t).1 with
  | error e =>
      rw [houtcome] at h
      cases h
  | ok contents =>
      rw [houtcome] at h
      dsimp only at h
      cases hparse : parse path contents with
      | error fault =>
          rw [hparse] at h
          cases h
      | ok parsed =>
          rw [hparse] at h
          dsimp only at h
          cases hdefect : parsed.defect? with
          | some defect =>
              rw [hdefect] at h
              cases h
          | none =>
              rw [hdefect] at h
              exact ⟨contents, parsed, rfl, hparse, hdefect, (Except.ok.inj h).symm⟩

/-- A loaded document describes an API exactly if the document that was read does so when its
references are followed, and in any case if these are neither its root nor its paths. -/
theorem load_describes_iff (h : (load host path t).1.1 = .ok document) :
    ∃ contents parsed, (host.readText path t).1 = .ok contents ∧
      parse path contents = .ok parsed ∧ parsed.defect? = none ∧
      document = parsed.inlineReferences.1 ∧
      (document.defect? = none ↔ parsed.UnfoldsToDescription) ∧
      ((∀ reference, ¬ parsed.IsReference reference) →
        (∀ child reference, parsed.get? "paths" = some child → ¬ child.IsReference reference) →
        document.defect? = none) := by
  obtain ⟨contents, parsed, hread, hparse, hdefect, rfl⟩ := exists_parsed_of_load h
  have hiff : parsed.inlineReferences.1.defect? = none ↔ parsed.UnfoldsToDescription :=
    defect?_inlineReferences_eq_none_iff
  refine ⟨contents, parsed, hread, hparse, hdefect, rfl, hiff, fun hroot hpaths => ?_⟩
  exact hiff.mpr (unfoldsToDescription_of_plain hdefect hroot hpaths)

end

/-- The outcome of loading a document that is the only file there is. -/
def loadAlone (document : Json) : Except Fault Json :=
  (load (FileTree.host 0 0) "/api.json" ⟨[(["api.json"], .file document.compact.toUTF8)], []⟩).1.1

theorem exists_of_map_defect? {outcome : Except Fault Json} {defect : Option Defect}
    (h : outcome.toOption.map defect? = some defect) :
    ∃ document, outcome = .ok document ∧ document.defect? = defect := by
  cases outcome with
  | error fault => simp [Except.toOption] at h
  | ok document => exact ⟨document, rfl, Option.some.inj h⟩

/-- References that lead from the paths to a record leave a description of an API. -/
theorem load_describes_iff_chained :
    let toParts := Json.obj [("$ref", .str "#/parts")]
    let toEmpty := Json.obj [("$ref", .str "#/empty")]
    let written := Json.obj
      [("openapi", .str "3.0.0"), ("paths", toParts), ("parts", toEmpty), ("empty", .obj [])]
    ∃ document parsed : Json, loadAlone written = .ok document ∧ document.defect? = none ∧
      document = parsed.inlineReferences.1 ∧ parsed.UnfoldsToDescription := by
  intro toParts toEmpty written
  have hloaded : (loadAlone written).toOption.map defect? = some none := by decide +kernel
  obtain ⟨document, hdocument, hdefect⟩ := exists_of_map_defect? hloaded
  obtain ⟨-, parsed, -, -, -, heq, hiff, -⟩ := load_describes_iff hdocument
  exact ⟨document, parsed, hdocument, hdefect, heq, hiff.mp hdefect⟩

/-- A reference puts a sequence in the place of the paths, or of the whole document. -/
theorem load_describes_not_replaced :
    let toList := ("$ref", Json.str "#/list")
    (∃ document, loadAlone (.obj [("swagger", .str "2.0"), ("paths", .obj [toList]),
      ("list", .arr [])]) = .ok document ∧ document.defect? = some .noPaths) ∧
    ∃ document, loadAlone (.obj [("swagger", .str "2.0"), ("paths", .obj []), toList,
      ("list", .arr [])]) = .ok document ∧ document.defect? = some .rootNotRecord := by
  intro toList
  exact ⟨exists_of_map_defect? (by decide +kernel), exists_of_map_defect? (by decide +kernel)⟩

end ApiInterfaces.Json
