import ApiInterfaces.Proofs.Interface.Code
import ApiInterfaces.Proofs.Interface.Comment
import ApiInterfaces.Proofs.Naming.Characters

/-!
The documentation in the text of a declaration. Block by block, the text is comments
that show the documentation and lines that stay when the comments are deleted; what is
between quotes, and a name without quotes and slashes, reads like any other code.
-/

namespace ApiInterfaces

open Scan Naming

/-! Files without documentation. -/

def Member.undocumented (m : Member) : Member := { m with docs := none }

def IndexSignature.undocumented (s : IndexSignature) : IndexSignature := { s with docs := none }

def Declaration.undocumented (d : Declaration) : Declaration where
  name := d.name
  docs := none
  index := d.index.map IndexSignature.undocumented
  members := d.members.map Member.undocumented

/-- The file without its header and without any documentation. -/
def DeclarationFile.undocumented (f : DeclarationFile) : DeclarationFile where
  declarations := f.declarations.map Declaration.undocumented

/-- The documentation of a declaration and of its parts, in the order of the text. -/
def Declaration.docBlocks (d : Declaration) : List DocBlock :=
  d.docs.toList ++ (d.index.bind (·.docs)).toList ++ d.members.flatMap (·.docs.toList)

/-- No line of the block holds a line feed. -/
def DocBlock.IsFeedFree (docs : DocBlock) : Prop := ∀ line ∈ docs.lines, '\n' ∉ line.toList

/-- The carriage returns in the lines of the block but for those among the blanks at their ends.
A block has a line for each line feed of its texts, so it may hold carriage returns. -/
def DocBlock.innerReturns (docs : DocBlock) : Nat :=
  Comment.innerReturns (docs.lines.map String.toList)

/-- The comment shows the block: it is its text, it has one end mark, at its end, and it has a
physical line for each line of the block, one more at either end, and one more for each carriage
return inside a line. -/
structure DocBlock.ShownAs (docs : DocBlock) (comment : List Char) : Prop where
  text : ∃ indent, (docs.text indent).toList = indent.toList ++ comment ++ ['\n']
  endsOnce : EndsOnce comment
  physicalLines :
    (Text.physicalLines comment).length = docs.lines.length + 2 + docs.innerReturns

/-- A member is code whatever its key and its literals are. -/
theorem Member.isCode_text (m : Member) (h : ∀ name ∈ m.type.references, IsInertName name) :
    IsCode m.text.toList :=
  m.readsAll_text (fun _ _ => rfl) (fun name hname => IsCode.of_inert (h name hname)) rfl
    fun _ _ => rfl

/-! Lines of a file and the documentation in them. -/

/-- The text is `bare` without its comments, which show the blocks. -/
def Documents (text bare : String) (blocks : List DocBlock) : Prop :=
  ∃ comments, Sheds text.toList bare.toList comments ∧
    List.Forall₂ DocBlock.ShownAs blocks comments

namespace Documents

variable {text more bare others : String} {blocks further : List DocBlock}

theorem nil : Documents "" "" [] := ⟨[], .nil, .nil⟩

theorem append (h : Documents text bare blocks) (h' : Documents more others further) :
    Documents (text ++ more) (bare ++ others) (blocks ++ further) := by
  obtain ⟨comments, hsheds, hshown⟩ := h
  obtain ⟨comments', hsheds', hshown'⟩ := h'
  refine ⟨comments ++ comments', ?_, List.rel_append hshown hshown'⟩
  rw [String.toList_append, String.toList_append]
  exact hsheds.append hsheds'

theorem line (h : IsCode text.toList) : Documents (text ++ "\n") (text ++ "\n") [] := by
  refine ⟨[], ?_, .nil⟩
  rw [String.toList_append]
  exact .line h

theorem join {α : Type} {items : List α} {f g : α → String} {blocksOf : α → List DocBlock}
    (h : ∀ item ∈ items, Documents (f item) (g item) (blocksOf item)) :
    Documents (String.join (items.map f)) (String.join (items.map g)) (items.flatMap blocksOf) := by
  induction items with
  | nil => exact nil
  | cons item rest ih =>
      have hrest := ih fun other hother => h other (List.mem_cons_of_mem item hother)
      rw [List.map_cons, List.map_cons, List.flatMap_cons, String.join_cons, String.join_cons]
      exact (h item List.mem_cons_self).append hrest

end Documents

@[simp] theorem DocBlock.textOf_none (indent : String) : DocBlock.textOf none indent = "" := rfl

theorem DocBlock.shownAs_core {docs : DocBlock} (h : docs.IsFeedFree) {indent : String} {n : Nat}
    (hindent : indent.toList = List.replicate n ' ') :
    docs.ShownAs
      (Comment.core "/**" (List.replicate n ' ') (docs.lines.map String.toList)) where
  text := by
    refine ⟨indent, ?_⟩
    rw [text, String.toList_ofList, hindent]
    exact Comment.block_eq _ _ _
  endsOnce := Comment.endsOnce_core (.inr rfl) n _
  physicalLines := by
    have hlines : ∀ text ∈ docs.lines.map String.toList, '\n' ∉ text := by
      intro text htext
      obtain ⟨line, hline, rfl⟩ := List.mem_map.mp htext
      exact h line hline
    rw [Comment.length_physicalLines_core (.inr rfl) n _ hlines, List.length_map, innerReturns]

/-- A block is shown by its comment, and the comment is all there is of it. -/
theorem DocBlock.documents_textOf {docs : Option DocBlock} (h : ∀ block ∈ docs, block.IsFeedFree)
    {indent : String} {n : Nat} (hindent : indent.toList = List.replicate n ' ') :
    Documents (DocBlock.textOf docs indent) "" docs.toList := by
  cases docs with
  | none => exact .nil
  | some block =>
      refine ⟨_, ?_, .cons (shownAs_core (h block rfl) hindent) .nil⟩
      rw [textOf, text, String.toList_ofList, hindent]
      exact Comment.sheds_block (.inr rfl) n _

/-! The parts of a declaration. -/

theorem toList_memberIndent : memberIndent.toList = List.replicate 4 ' ' := by decide

/-- A line inside a declaration, with the documentation in front of it. -/
theorem documents_memberLine {docs : Option DocBlock} (hdocs : ∀ block ∈ docs, block.IsFeedFree)
    {code : String} (hcode : IsCode code.toList) :
    Documents (DocBlock.textOf docs memberIndent ++ memberIndent ++ code ++ "\n")
      (DocBlock.textOf none memberIndent ++ memberIndent ++ code ++ "\n") docs.toList := by
  have hline : IsCode (memberIndent ++ code).toList := by
    rw [String.toList_append]
    exact (IsCode.of_inert (by decide)).append hcode
  have hblock := (DocBlock.documents_textOf hdocs toList_memberIndent).append (.line hline)
  simpa only [List.append_nil, String.append_assoc, DocBlock.textOf_none] using hblock

theorem Member.documents_block (m : Member) (h : ∀ name ∈ m.type.references, IsInertName name)
    (hdocs : ∀ block ∈ m.docs, block.IsFeedFree) :
    Documents m.block m.undocumented.block m.docs.toList :=
  documents_memberLine hdocs (m.isCode_text h)

namespace IndexSignature

theorem isFeedFree_additionalProperties :
    ∀ block ∈ additionalProperties.docs, block.IsFeedFree := by
  intro block hblock
  obtain rfl := Option.some.inj hblock
  unfold DocBlock.IsFeedFree
  decide

theorem documents_block_additionalProperties :
    Documents additionalProperties.block additionalProperties.undocumented.block
      additionalProperties.docs.toList :=
  documents_memberLine isFeedFree_additionalProperties (.of_inert (by decide))

end IndexSignature

/-- What a run puts into its declarations: names without quotes and slashes, lines
without line feeds, and no index signature but one. -/
structure Declaration.Inert (d : Declaration) : Prop where
  name : IsInertName d.name
  references : ∀ name ∈ d.references, IsInertName name
  index : ∀ signature ∈ d.index, signature = .additionalProperties
  docs : ∀ block ∈ d.docBlocks, block.IsFeedFree

/-- The text of the index signature of a declaration. -/
def Declaration.indexBlock (d : Declaration) : String :=
  match d.index with
  | some signature => signature.block
  | none => ""

theorem Declaration.text_eq (d : Declaration) :
    d.text = DocBlock.textOf d.docs "" ++ ("export interface " ++ d.name ++ " \x7b" ++ "\n") ++
      d.indexBlock ++ String.join (d.members.map Member.block) ++ ("\x7d" ++ "\n") := by
  have hopen : " \x7b\n" = " \x7b" ++ "\n" := rfl
  have hclose : "\x7d\n" = "\x7d" ++ "\n" := rfl
  rw [text, hopen, hclose]
  simp only [String.append_assoc]
  rfl

namespace Declaration.Inert

variable {d : Declaration}

theorem documents_indexBlock (h : d.Inert) :
    Documents d.indexBlock d.undocumented.indexBlock (d.index.bind (·.docs)).toList := by
  unfold indexBlock undocumented
  cases hindex : d.index with
  | none => exact .nil
  | some signature =>
      obtain rfl := h.index signature hindex
      exact IndexSignature.documents_block_additionalProperties

theorem documents_members (h : d.Inert) :
    Documents (String.join (d.members.map Member.block))
      (String.join (d.undocumented.members.map Member.block))
      (d.members.flatMap (·.docs.toList)) := by
  rw [undocumented, List.map_map]
  refine .join fun m hm => m.documents_block (fun name hname => ?_) fun block hblock => ?_
  · exact h.references name (List.mem_append_right _ (List.mem_flatMap.mpr ⟨m, hm, hname⟩))
  · have hmem : block ∈ d.members.flatMap (·.docs.toList) :=
      List.mem_flatMap.mpr ⟨m, hm, Option.mem_toList.mpr hblock⟩
    exact h.docs block (List.mem_append_right _ hmem)

/-- Without its comments, which show its documentation, the text of a declaration is
that of the declaration without documentation. -/
theorem documents_text (h : d.Inert) : Documents d.text d.undocumented.text d.docBlocks := by
  have hdocs : ∀ block ∈ d.docs, block.IsFeedFree := fun block hblock =>
    h.docs block (by simp [docBlocks, Option.mem_toList.mpr hblock])
  have hname : IsCode ("export interface " ++ d.name ++ " \x7b").toList := by
    simp only [String.toList_append]
    exact ((IsCode.of_inert (by decide)).append (.of_inert h.name)).append (.of_inert (by decide))
  have hclose : IsCode "\x7d".toList := .of_inert (by decide)
  have hcomment : Documents (DocBlock.textOf d.docs "") "" d.docs.toList :=
    DocBlock.documents_textOf hdocs (n := 0) rfl
  have hbare : d.undocumented.text = "" ++ ("export interface " ++ d.name ++ " \x7b" ++ "\n") ++
      d.undocumented.indexBlock ++ String.join (d.undocumented.members.map Member.block) ++
      ("\x7d" ++ "\n") :=
    d.undocumented.text_eq
  rw [d.text_eq, hbare, docBlocks]
  simpa only [List.append_nil] using
    (((hcomment.append (.line hname)).append h.documents_indexBlock).append
      h.documents_members).append (.line hclose)

end Declaration.Inert

end ApiInterfaces
