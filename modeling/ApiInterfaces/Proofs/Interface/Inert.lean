import ApiInterfaces.Proofs.Interface.Documentation
import ApiInterfaces.Proofs.Interface.Names

/-!
Documentation and headers are inert. In the text of a file every comment is read as
the comment that it was written as, and all the rest as it is read without the
comments, whatever texts the definitions and the header hold.
-/

namespace ApiInterfaces

open Scan Naming

/-! What a run puts into its declarations. -/

/-- Whatever texts a name is made from, no character of it begins a comment or a quoted text. -/
theorem preserves_isInertName : Preserves (fun _ => True) IsInertName where
  title _ _ := isInertName_ofList
  property _ _ _ _ := isInertName_ofList
  path _ _ := isInertName_ofList
  numbered _ n hbase := isInertName_numbered hbase n

/-- The lines of a block are what line feeds leave of texts. -/
theorem DocBlock.isFeedFree_ofDocs? {docs : ShapeDocs} {block : DocBlock}
    (h : DocBlock.ofDocs? docs = some block) : block.IsFeedFree := by
  simp only [DocBlock.ofDocs?, DocBlock.ofTexts?] at h
  split at h
  next => simp at h
  next =>
    obtain rfl := Option.some.inj h
    intro line hline
    obtain ⟨text, -, htext⟩ := List.mem_flatMap.mp hline
    obtain ⟨chars, hchars, rfl⟩ := List.mem_map.mp htext
    rw [String.toList_ofList]
    exact Text.not_mem_of_mem_feedLines hchars

/-- A declaration that describes an object is inert as far as it does not name anything. -/
theorem Declaration.Describes.inert {d : Declaration} {shape : Shape} (h : d.Describes shape)
    (hname : IsInertName d.name) (hreferences : ∀ name ∈ d.references, IsInertName name) :
    d.Inert := by
  cases shape with
  | object properties required additional docs =>
      obtain ⟨hdocs, hindex, hmembers⟩ := h
      have hsignature : ∀ signature ∈ d.index, signature = .additionalProperties := by
        intro signature hmem
        rw [hindex] at hmem
        cases additional <;> simp_all
      refine ⟨hname, hreferences, hsignature, fun block hblock => ?_⟩
      simp only [Declaration.docBlocks, List.mem_append] at hblock
      rcases hblock with (hown | hsign) | hmember
      · exact DocBlock.isFeedFree_ofDocs? (hdocs ▸ Option.mem_toList.mp hown)
      · obtain ⟨signature, hmem, hblock⟩ := Option.bind_eq_some_iff.mp (Option.mem_toList.mp hsign)
        obtain rfl := hsignature signature hmem
        exact IndexSignature.isFeedFree_additionalProperties block hblock
      · obtain ⟨m, hm, hblock⟩ := List.mem_flatMap.mp hmember
        have hmem := List.mem_map_of_mem (f := fun m => (m.name, m.optional, m.docs)) hm
        rw [hmembers] at hmem
        obtain ⟨⟨property, shape⟩, -, heq⟩ := List.mem_map.mp hmem
        obtain ⟨-, heq⟩ := Prod.mk.inj heq
        obtain ⟨-, hown⟩ := Prod.mk.inj heq
        exact DocBlock.isFeedFree_ofDocs? (hown.trans (Option.mem_toList.mp hblock))
  | _ => exact h.elim

theorem exists_of_forall₂ {α β : Type} {R : α → β → Prop} {xs : List α} {ys : List β}
    (h : List.Forall₂ R xs ys) {x : α} (hx : x ∈ xs) : ∃ y, R x y := by
  induction h with
  | nil => simp at hx
  | cons hxy _ ih =>
      rcases List.mem_cons.mp hx with rfl | hx
      · exact ⟨_, hxy⟩
      · exact ih hx

namespace Compilation

/-- All declarations of a run are inert. -/
theorem inert_of_mem_declarations {calls : List Call} {d : Declaration}
    (h : d ∈ (({} : Compilation).run calls).2.declarations) : d.Inert := by
  have hnames := preserves_isInertName.named_run fun call (_ : call ∈ calls) _ _ => trivial
  have hreferences : ∀ name ∈ d.references, IsInertName name := by
    intro name hname
    obtain ⟨target, htarget, rfl⟩ := exists_of_mem_references h hname
    exact hnames target htarget
  obtain ⟨blocks, hdeclarations, -, hshapes⟩ :=
    exists_blocks {} (calls.flatMap Call.definitions)
  rw [← run_eq_defineAll] at hdeclarations
  have hflatten : (({} : Compilation).run calls).2.declarations = blocks.flatten := hdeclarations
  -- The declaration describes an object of the definition to whose block it belongs.
  obtain ⟨block, hblock, hd⟩ := List.mem_flatten.mp (hflatten ▸ h)
  obtain ⟨definition, hshape⟩ := exists_of_forall₂ hshapes.flip hblock
  obtain ⟨shape, hdescribes⟩ := exists_of_forall₂ hshape hd
  exact hdescribes.inert (hnames d h) hreferences

end Compilation

/-! The text of a file. -/

/-- The comment that shows the header, if there is a header. -/
def DeclarationFile.headerComments (f : DeclarationFile) : List (List Char) :=
  if f.header = [] then []
  else [Comment.core "/*" [] (f.header.flatMap DeclarationFile.headerEntryLines)]

def DeclarationFile.docBlocks (f : DeclarationFile) : List DocBlock :=
  f.declarations.flatMap Declaration.docBlocks

theorem Documents.intercalate {declarations : List Declaration}
    (h : ∀ d ∈ declarations, d.Inert) :
    Documents (String.intercalate "\n" (declarations.map Declaration.text))
      (String.intercalate "\n" ((declarations.map Declaration.undocumented).map Declaration.text))
      (declarations.flatMap Declaration.docBlocks) := by
  induction declarations with
  | nil => exact .nil
  | cons d rest ih =>
      have hown := (h d List.mem_cons_self).documents_text
      have hrest := ih fun other hother => h other (List.mem_cons_of_mem d hother)
      cases rest with
      | nil => simpa using hown
      | cons next rest =>
          have hbreak : Documents "\n" "\n" [] := @Documents.line "" (.of_inert (by simp))
          simp only [List.map_cons, String.intercalate_cons_cons, List.flatMap_cons] at hrest ⊢
          have hall := (hown.append hbreak).append hrest
          simpa only [List.append_nil] using hall

namespace DeclarationFile

theorem sheds_headerText (header : List String) :
    Sheds (headerText header).toList []
      [Comment.core "/*" [] (header.flatMap headerEntryLines)] := by
  rw [headerText, String.toList_ofList]
  exact Comment.sheds_block (.inl rfl) 0 _

/-- Without its comments the text of a file is that of the file without header and
documentation, but for the line break that set the header apart. -/
theorem exists_sheds_text {f : DeclarationFile} (h : ∀ d ∈ f.declarations, d.Inert) :
    ∃ shown, List.Forall₂ DocBlock.ShownAs f.docBlocks shown ∧
      Sheds f.text.toList
        ((if f.header ≠ [] ∧ f.declarations ≠ [] then ['\n'] else []) ++ f.undocumented.text.toList)
        (f.headerComments ++ shown) := by
  obtain ⟨shown, hsheds, hshown⟩ := Documents.intercalate h
  refine ⟨shown, hshown, ?_⟩
  have hbare : f.undocumented.text = String.intercalate "\n"
      ((f.declarations.map Declaration.undocumented).map Declaration.text) := rfl
  rw [← hbare] at hsheds
  rcases f with ⟨header, declarations⟩
  cases header with
  | nil => simpa [text, sections, headerComments] using hsheds
  | cons entry entries =>
      have hheader := sheds_headerText (entry :: entries)
      cases declarations with
      | nil => simpa [text, sections, headerComments] using hheader.append hsheds
      | cons d rest =>
          have hbreak : Sheds ['\n'] ['\n'] [] := @Sheds.line [] (.of_inert (by simp))
          have hall := (hheader.append hbreak).append hsheds
          have htext : (DeclarationFile.mk (entry :: entries) (d :: rest)).text =
              headerText (entry :: entries) ++ "\n" ++
                String.intercalate "\n" ((d :: rest).map Declaration.text) := by
            simp only [text, sections, List.isEmpty_cons, List.map_cons, List.singleton_append,
              String.intercalate_cons_cons, Bool.false_eq_true, if_false]
          rw [htext, String.toList_append, String.toList_append]
          simpa [headerComments] using hall

end DeclarationFile

/-- Documentation and header are inert in the file of any run. Deleting the comments
from its text leaves the text of the file without them, behind a line break where a
header has stood in front of declarations; the comments are that of the header and,
one by one, those that show the documentation. -/
theorem Compilation.documentation_inert (calls : List Call) (header : List String) :
    let f := (({} : Compilation).run calls).2.finish header
    let pieces := scan f.text.toList
    uncomment (some []) pieces =
      (if f.header ≠ [] ∧ f.declarations ≠ [] then ['\n'] else []) ++ f.undocumented.text.toList ∧
    ∃ shown, Scan.comments pieces = f.headerComments ++ shown ∧
      List.Forall₂ DocBlock.ShownAs f.docBlocks shown := by
  intro f pieces
  have hinert : ∀ d ∈ f.declarations, d.Inert := fun d hd => inert_of_mem_declarations hd
  obtain ⟨shown, hshown, hsheds⟩ := DeclarationFile.exists_sheds_text hinert
  obtain ⟨hbare, hcomments⟩ := hsheds.of_scan
  exact ⟨hbare, shown, hcomments, hshown⟩

/-- A carriage return inside a description is not broken up into lines of the block, so the comment
has a physical line more than the block accounts for. -/
theorem Compilation.documentation_not_line_by_line :
    ¬ ∀ (calls : List Call) (header : List String),
      let f := (({} : Compilation).run calls).2.finish header
      ∃ shown, Scan.comments (scan f.text.toList) = f.headerComments ++ shown ∧
        List.Forall₂ (fun docs comment =>
          (Text.physicalLines comment).length = docs.lines.length + 2) f.docBlocks shown := by
  intro hall
  let calls := [Call.definition ["pet"] (.object [] [] false { description := some "a\rb" })]
  obtain ⟨shown, hcomments, hlines⟩ := hall calls []
  have hdocs : ((({} : Compilation).run calls).2.finish []).docBlocks = [⟨["a\rb"]⟩] := by
    decide +kernel
  have hscan : Scan.comments (scan ((({} : Compilation).run calls).2.finish []).text.toList) =
      ["/**\n * a\rb\n */".toList] := by
    decide +kernel
  obtain rfl : shown = ["/**\n * a\rb\n */".toList] := by
    rw [hscan] at hcomments
    exact hcomments.symm
  rw [hdocs] at hlines
  cases hlines with
  | cons hcount _ => exact absurd hcount (by decide)

end ApiInterfaces
