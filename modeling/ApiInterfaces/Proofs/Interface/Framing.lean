import ApiInterfaces.Proofs.Interface.Growth
import ApiInterfaces.Proofs.Interface.Inert

/-!
The lines of a file outside its comments. Each part of a declaration is one line, and what stands
between quotes ends on its line, as long as no property name and no enumeration value holds a
line break: in quotes a line break is written as it is.
-/

namespace ApiInterfaces

open Scan Naming Text

/-! String literals. -/

namespace Scan

/-- What may follow the opening quote of a string literal: no line break, the quote only at the
end, and behind a backslash only characters that stand for themselves. -/
inductive LiteralBody (quote : Char) : List Char → Prop
  | close : LiteralBody quote [quote]
  | char {c : Char} {rest : List Char} :
      c ≠ quote → c ≠ '\\' → isLineBreak c = false → LiteralBody quote rest →
        LiteralBody quote (c :: rest)
  | escape {c : Char} {rest : List Char} :
      c ∈ ['\\', '\'', '"'] → LiteralBody quote rest → LiteralBody quote ('\\' :: c :: rest)

/-- A string literal, complete and on one line. -/
def IsLiteral (text : List Char) : Prop :=
  ∃ quote body, (quote = '\'' ∨ quote = '"') ∧ text = quote :: body ∧ LiteralBody quote body

theorem LiteralBody.unbroken {quote : Char} {body : List Char} (h : LiteralBody quote body)
    (hquote : isLineBreak quote = false) : Unbroken body := by
  induction h with
  | close => exact List.forall_mem_singleton.mpr hquote
  | char _ _ hc _ ih => exact List.forall_mem_cons.mpr ⟨hc, ih⟩
  | escape hc _ ih =>
      have hmarks : ∀ c ∈ ['\\', '\'', '"'], isLineBreak c = false := by
        simp [isLineBreak]
      exact List.forall_mem_cons.mpr ⟨rfl, List.forall_mem_cons.mpr ⟨hmarks _ hc, ih⟩⟩

theorem IsLiteral.unbroken {text : List Char} (h : IsLiteral text) : Unbroken text := by
  obtain ⟨quote, body, hquote, rfl, hbody⟩ := h
  have hmark : isLineBreak quote = false := by rcases hquote with rfl | rfl <;> rfl
  exact List.forall_mem_cons.mpr ⟨hmark, hbody.unbroken hmark⟩

/-- A text on one line is quoted as a literal. -/
theorem isLiteral_quoted {quote : Char} (hquote : quote = '\'' ∨ quote = '"') {text : List Char}
    (h : Unbroken text) : IsLiteral (Quoted.quoted quote text) := by
  refine ⟨quote, Quoted.escape quote text ++ [quote], hquote, by simp [Quoted.quoted], ?_⟩
  induction text with
  | nil => exact .close
  | cons c text ih =>
      obtain ⟨hc, htext⟩ := List.forall_mem_cons.mp h
      have hrest := ih htext
      have hback : quote ≠ '\\' := by rcases hquote with rfl | rfl <;> decide
      rw [Quoted.escape_cons hback]
      split
      next hescaped =>
        refine .escape ?_ hrest
        rcases hescaped with rfl | rfl
        · exact List.mem_cons_self
        · rcases hquote with rfl | rfl <;> decide
      next hplain =>
        obtain ⟨hback, hother⟩ := not_or.mp hplain
        exact .char hother hback hc hrest

/-- The piece is complete on its line. -/
def Piece.OnLine : Piece → Prop
  | .plain c => isLineBreak c = false
  | .quoted text => IsLiteral text
  | .comment _ => False

theorem Piece.OnLine.unbroken {piece : Piece} (h : piece.OnLine) : Unbroken piece.text := by
  cases piece with
  | plain c => exact List.forall_mem_singleton.mpr h
  | quoted text => exact IsLiteral.unbroken h
  | comment text => exact h.elim

theorem onLine_plain (c : Char) (h : isCodeChar c = true) : (Piece.plain c).OnLine := by
  have hc := (Bool.and_eq_true_iff.mp h).2
  exact (Bool.not_eq_true' _).mp hc

theorem ReadsAll.unbroken {text : List Char} (h : ReadsAll Piece.OnLine text) :
    Unbroken text := by
  rw [← flatMap_text_scan text]
  intro c hc
  obtain ⟨piece, hpiece, hc⟩ := List.mem_flatMap.mp hc
  exact (h.of_mem_scan piece hpiece).unbroken c hc

end Scan

/-! Texts between quotes. -/

def Declaration.quotedTexts (d : Declaration) : List String := d.members.flatMap Member.quotedTexts

namespace Shape

mutual

/-- The names of the properties and the values of the enumerations in a shape. -/
def quotedTexts : Shape → List String
  | .enumeration values _ => values
  | .array item _ => item.quotedTexts
  | .tuple alternatives _ => quotedTextsInAll alternatives
  | .object properties _ _ _ => quotedTextsInProperties properties
  | .primitive .. | .untypedArray _ | .unspecified _ | .unreadable => []

def quotedTextsInAll : List Shape → List String
  | [] => []
  | shape :: rest => shape.quotedTexts ++ quotedTextsInAll rest

def quotedTextsInProperties : List (String × Shape) → List String
  | [] => []
  | (property, shape) :: rest => property :: (shape.quotedTexts ++ quotedTextsInProperties rest)

end

end Shape

/-- The texts are those of the compiled part together with those of the declarations lifted out
of it. -/
def Compiled.Quotes {α : Type} (c : Compiled α) (own : α → List String) (texts : List String) :
    Prop :=
  ∀ text, text ∈ own c.value ∨ text ∈ c.lifted.flatMap Declaration.quotedTexts ↔ text ∈ texts

namespace Compiled

variable {α : Type} {own : α → List String}

theorem quotes_pure (value : α) (log : NameLog) :
    (Compiled.pure value log).Quotes own (own value) := by
  intro text
  simp [Compiled.pure]

theorem Quotes.cons {first : Compiled α} {rest : NameLog → Compiled (List α)}
    {texts more : List String} (hfirst : first.Quotes own texts)
    (hrest : (rest first.log).Quotes (·.flatMap own) more) :
    (first.cons rest).Quotes (·.flatMap own) (texts ++ more) := by
  intro text
  rw [List.mem_append, ← hfirst, ← hrest]
  simp only [Compiled.cons, List.flatMap_cons, List.flatMap_append, List.mem_append]
  tauto

end Compiled

namespace Shape

theorem quotes_declareWith (base : String) (additional : Bool) (docs : ShapeDocs)
    {members : String → NameLog → Compiled (List Member)} {texts : List String}
    (h : ∀ name log, (members name log).Quotes (·.flatMap Member.quotedTexts) texts)
    (log : NameLog) :
    (declareWith base additional docs members log).Quotes (fun _ => []) texts := by
  intro text
  rw [← h (log.claim base).1 (log.claim base).2]
  simp [declareWith, declaration, Declaration.quotedTexts]

mutual

theorem quotes_typeOf (outer property : String) (shape : Shape) (log : NameLog) :
    (typeOf outer property shape log).Quotes TypeExpr.literals shape.quotedTexts := by
  cases shape with
  | primitive kind docs => cases kind <;> exact Compiled.quotes_pure _ log
  | enumeration values docs =>
      have hvalues := TypeExpr.literalsIn_map_literal values
      have hpure := @Compiled.quotes_pure _ TypeExpr.literals (.union (values.map .literal)) log
      rwa [TypeExpr.literals, hvalues] at hpure
  | array item docs => exact quotes_typeOf outer property item log
  | tuple alternatives docs =>
      have htypes := quotes_typesOf outer property alternatives log
      simp only [← TypeExpr.literalsIn_eq_flatMap] at htypes
      exact htypes
  | object properties required additional docs =>
      exact quotes_declareWith _ additional docs
        (fun name log => quotes_membersOf name required properties log) log
  | _ => exact Compiled.quotes_pure _ log

theorem quotes_typesOf (outer property : String) (shapes : List Shape) (log : NameLog) :
    (typesOf outer property shapes log).Quotes (·.flatMap TypeExpr.literals)
      (quotedTextsInAll shapes) := by
  cases shapes with
  | nil => exact Compiled.quotes_pure _ log
  | cons shape rest =>
      exact (quotes_typeOf outer property shape log).cons (quotes_typesOf outer property rest _)

theorem quotes_membersOf (name : String) (required : List String)
    (properties : List (String × Shape)) (log : NameLog) :
    (membersOf name required properties log).Quotes (·.flatMap Member.quotedTexts)
      (quotedTextsInProperties properties) := by
  cases properties with
  | nil => exact Compiled.quotes_pure _ log
  | cons property rest =>
      obtain ⟨property, shape⟩ := property
      have htype := quotes_typeOf name property shape log
      have hmember : ((typeOf name property shape log).map fun type =>
          { name := property, type, optional := property ∉ required,
            docs := DocBlock.ofDocs? shape.docs : Member }).Quotes Member.quotedTexts
            (property :: shape.quotedTexts) := by
        intro text
        rw [List.mem_cons, ← htype]
        simp only [Compiled.map, Member.quotedTexts, List.mem_cons]
        tauto
      exact hmember.cons (quotes_membersOf name required rest _)

end

end Shape

namespace Compilation

/-- The texts between quotes are those of the shapes that are compiled. -/
theorem mem_quotedTexts_defineAll (c : Compilation) {definitions : List (Place × Shape)}
    (h : ∀ definition ∈ definitions, definition.2.isObject = true) (text : String) :
    text ∈ (c.defineAll definitions).2.declarations.flatMap Declaration.quotedTexts ↔
      text ∈ c.declarations.flatMap Declaration.quotedTexts ∨
        text ∈ definitions.flatMap fun definition => definition.2.quotedTexts := by
  induction definitions generalizing c with
  | nil => simp
  | cons definition rest ih =>
      obtain ⟨place, shape⟩ := definition
      obtain ⟨hobject, hrest⟩ := List.forall_mem_cons.mp h
      rcases shape.not_isObject_or_eq_object with
        hother | ⟨properties, required, additional, docs, rfl⟩
      · exact absurd (hother.symm.trans hobject) Bool.false_ne_true
      · have hdeclared := Shape.quotes_declareWith (Shape.definitionBase docs place) additional docs
          (fun name log => Shape.quotes_membersOf name required properties log)
          ⟨c.registry, c.events⟩ text
        rw [defineAll_cons_object, ih _ hrest, List.flatMap_cons, List.mem_append, ← or_assoc]
        refine or_congr_left ?_
        simp only [add, List.flatMap_append, List.mem_append]
        refine or_congr_right ?_
        simpa [Shape.declaredAt, Shape.quotedTexts] using hdeclared

end Compilation

/-! The lines of a file. -/

theorem Member.block_undocumented (m : Member) :
    m.undocumented.block = memberIndent ++ m.text ++ "\n" := by
  have htext : m.undocumented.text = m.text := rfl
  rw [block, htext]
  simp [undocumented]

theorem IndexSignature.block_undocumented (s : IndexSignature) :
    s.undocumented.block = memberIndent ++ s.text ++ "\n" := by
  simp [block, undocumented, text]

namespace Declaration

/-- The lines of a declaration outside its comments. -/
def codeLines (d : Declaration) : List String :=
  ["export interface " ++ d.name ++ " \x7b"] ++
    d.index.toList.map (fun signature => memberIndent ++ signature.text) ++
    d.members.map (fun m => memberIndent ++ m.text) ++ ["\x7d"]

theorem toList_text_undocumented (d : Declaration) :
    d.undocumented.text.toList = joinLines d.codeLines := by
  have hindex : d.undocumented.indexBlock.toList =
      joinLines (d.index.toList.map fun signature => memberIndent ++ signature.text) := by
    unfold undocumented indexBlock
    cases d.index with
    | none => rfl
    | some signature => simp [IndexSignature.block_undocumented, joinLines]
  have hmembers : (String.join (d.undocumented.members.map Member.block)).toList =
      joinLines (d.members.map fun m => memberIndent ++ m.text) := by
    simp [undocumented, joinLines, String.toList_join, List.flatMap_map, Member.block_undocumented]
  rw [text_eq]
  simp only [String.toList_append, hindex, hmembers, codeLines, joinLines_append]
  simp [undocumented, joinLines]

end Declaration

namespace DeclarationFile

/-- The text of a file outside its comments. -/
def code (f : DeclarationFile) : List Char := uncomment (some []) (scan f.text.toList)

/-- The lines of the sections, with an empty line between any two of them. The header has no
line outside its comment. -/
def codeLines (f : DeclarationFile) : List String :=
  List.intercalate [""]
    ((if f.header.isEmpty then [] else [[]]) ++ f.declarations.map Declaration.codeLines)

theorem code_eq {f : DeclarationFile} (h : ∀ d ∈ f.declarations, d.Inert) :
    f.code = joinLines f.codeLines := by
  obtain ⟨shown, -, hsheds⟩ := exists_sheds_text h
  have hcode := hsheds.of_scan.1
  rcases f with ⟨header, declarations⟩
  have hblocks : declarations.map (fun d => joinLines d.codeLines) =
      declarations.map fun d => d.undocumented.text.toList :=
    List.map_congr_left fun d _ => d.toList_text_undocumented.symm
  have htext : (mk header declarations).undocumented.text.toList =
      List.intercalate ['\n'] (declarations.map fun d => joinLines d.codeLines) := by
    rw [hblocks, undocumented, text, sections, String.toList_intercalate]
    simp [Function.comp_def]
  rw [code, hcode, htext, codeLines, joinLines_intercalate, List.map_append, List.map_map]
  cases header with
  | nil => simp [Function.comp_def]
  | cons entry entries =>
      cases declarations with
      | nil => simp [joinLines]
      | cons d rest => simp [joinLines, Function.comp_def, List.intercalate_cons_cons]

end DeclarationFile

/-! The names in a file. -/

namespace Naming

/-- Outside quotes the name is code on one line. -/
def IsCodeName (name : String) : Prop := name.toList.all isCodeChar = true

theorem isCodeChar_of_mem_upper {c d : Char} (hc : isCodeChar c = true)
    (hd : d ∈ Unicode.upper c) : isCodeChar d = true := by
  rcases Unicode.mapsOutside_upper.eq_or_avoids hd with rfl | havoids
  · exact hc
  · have hinert : isInert d = true := Unicode.isInert_of_avoids havoids
    have hrange := havoids (0x1, 0x2F) List.mem_cons_self
    have hbreak : isLineBreak d = false := by
      rw [Bool.eq_false_iff]
      intro hbreak
      have hcase : d = '\n' ∨ d = '\r' := by simpa [isLineBreak] using hbreak
      rcases hcase with rfl | rfl <;> revert hrange <;> decide
    simp [isCodeChar, hinert, hbreak]

/-- The identifiers that can be made of all characters of code. -/
def IdentifierSyntax.code : IdentifierSyntax where
  start c := isCodeChar c = true
  part c := isCodeChar c = true
  part_of_start _ hc := hc
  letter _ hc := isCodeChar_of_class (by decide) hc
  digit _ hc := isCodeChar_of_class (by decide) hc
  underscore := by decide
  dollar := by decide

theorem IdentifierSyntax.tames_code : IdentifierSyntax.code.Tames fun _ => True where
  ascii _ _ := trivial
  upper _ _ _ _ := trivial
  kept c _ halphanumeric := by
    have hc : isCodeChar c = true := isCodeChar_of_class (by decide) halphanumeric
    have hupper : ∀ d ∈ Unicode.upper c, isCodeChar d = true := fun _ hd =>
      isCodeChar_of_mem_upper hc hd
    refine ⟨.inr hc, ?_⟩
    cases hmapped : Unicode.upper c with
    | nil => trivial
    | cons first rest =>
        rw [hmapped] at hupper
        obtain ⟨hfirst, hrest⟩ := List.forall_mem_cons.mp hupper
        exact ⟨.inr hfirst, hrest⟩

theorem isCodeName_of_mem_declarations {calls : List Call} {d : Declaration}
    (h : d ∈ (({} : Compilation).run calls).2.declarations) : IsCodeName d.name := by
  have hnames := IdentifierSyntax.tames_code.preserves.named_run
    fun call (_ : call ∈ calls) _ _ _ _ => trivial
  obtain ⟨first, rest, hname, hfirst, hrest⟩ := (hnames d h).legal
  rw [IsCodeName, hname]
  exact List.all_eq_true.mpr (List.forall_mem_cons.mpr ⟨hfirst, hrest⟩)

theorem isCodeName_of_mem_references {calls : List Call} {d : Declaration} {name : String}
    (h : d ∈ (({} : Compilation).run calls).2.declarations) (hname : name ∈ d.references) :
    IsCodeName name := by
  obtain ⟨target, htarget, rfl⟩ := Compilation.exists_of_mem_references h hname
  exact isCodeName_of_mem_declarations htarget

end Naming

namespace Declaration

variable {d : Declaration}

/-- If all texts between quotes stay on one line, so does each line as a whole. -/
theorem onLine_codeLines (hinert : d.Inert) (hname : IsCodeName d.name)
    (hreferences : ∀ name ∈ d.references, IsCodeName name)
    (h : ∀ text ∈ d.quotedTexts, Unbroken text.toList) :
    ∀ line ∈ d.codeLines, ReadsAll Piece.OnLine line.toList := by
  have hsigns {text : List Char} (htext : text.all isCodeChar = true) :
      ReadsAll Piece.OnLine text := .of_chars onLine_plain htext
  have hmember : ∀ m ∈ d.members, ReadsAll Piece.OnLine (memberIndent ++ m.text).toList := by
    intro m hm
    have hquoted : ∀ text ∈ m.quotedTexts, Unbroken text.toList := fun text htext =>
      h text (List.mem_flatMap.mpr ⟨m, hm, htext⟩)
    obtain ⟨hkey, hliterals⟩ := List.forall_mem_cons.mp hquoted
    rw [String.toList_append]
    refine (hsigns (by decide)).append (m.readsAll_text onLine_plain (fun name hmem => ?_)
      (isLiteral_quoted (.inr rfl) hkey)
      fun value hvalue => isLiteral_quoted (.inl rfl) (hliterals value hvalue))
    exact hsigns (hreferences name (List.mem_append_right _ (List.mem_flatMap.mpr ⟨m, hm, hmem⟩)))
  intro line hline
  simp only [codeLines, List.mem_append, List.mem_singleton, List.mem_map, Option.mem_toList]
    at hline
  rcases hline with ((rfl | ⟨signature, hsignature, rfl⟩) | ⟨m, hm, rfl⟩) | rfl
  · rw [String.toList_append, String.toList_append]
    exact ((hsigns (by decide)).append (hsigns hname)).append (hsigns (by decide))
  · obtain rfl := hinert.index signature hsignature
    exact hsigns (by decide)
  · exact hmember m hm
  · exact hsigns (by decide)

/-- No text between quotes gets lost in the lines. -/
theorem unbroken_of_codeLines (h : ∀ line ∈ d.codeLines, Unbroken line.toList) :
    ∀ text ∈ d.quotedTexts, Unbroken text.toList := by
  intro text htext
  obtain ⟨m, hm, hmem⟩ := List.mem_flatMap.mp htext
  have hline : memberIndent ++ m.text ∈ d.codeLines :=
    List.mem_append_left _ (List.mem_append_right _ (List.mem_map_of_mem hm))
  have hsubset : text.toList ⊆ (memberIndent ++ m.text).toList := by
    rw [String.toList_append]
    exact List.subset_append_of_subset_right _ (m.subset_text text hmem)
  exact fun c hc => h _ hline c (hsubset hc)

end Declaration

namespace DeclarationFile

/-- Outside its comments the text has the lines of the sections and no others, and every text
that begins with a quote on one of them is a literal that ends there. -/
structure Framed (f : DeclarationFile) : Prop where
  lines : physicalLines f.code = f.codeLines.map String.toList
  literals : ∀ line ∈ physicalLines f.code, ∀ text, .quoted text ∈ scan line → IsLiteral text

variable {f : DeclarationFile}

theorem framed_iff (hinert : ∀ d ∈ f.declarations, d.Inert)
    (hnames : ∀ d ∈ f.declarations, IsCodeName d.name)
    (hreferences : ∀ d ∈ f.declarations, ∀ name ∈ d.references, IsCodeName name) :
    f.Framed ↔ ∀ d ∈ f.declarations, ∀ text ∈ d.quotedTexts, Unbroken text.toList := by
  constructor
  · -- Every text between quotes is a part of a line that is read back.
    intro h d hd
    have hlines : ∀ line ∈ f.codeLines, Unbroken line.toList := by
      intro line hline
      exact unbroken_of_mem_physicalLines (h.lines ▸ List.mem_map_of_mem hline)
    refine Declaration.unbroken_of_codeLines fun line hline => hlines line ?_
    exact subset_intercalate (List.mem_append_right _ (List.mem_map_of_mem hd)) hline
  · intro h
    have honline : ∀ line ∈ f.codeLines, ReadsAll Piece.OnLine line.toList := by
      intro line hline
      rcases mem_or_exists_of_mem_intercalate hline with hempty | ⟨block, hblock, hline⟩
      · obtain rfl := List.mem_singleton.mp hempty
        exact .nil
      · rcases List.mem_append.mp hblock with hheader | hblock
        · -- The header adds a block without lines.
          split at hheader
          next => simp at hheader
          next =>
            obtain rfl := List.mem_singleton.mp hheader
            simp at hline
        · obtain ⟨d, hd, rfl⟩ := List.mem_map.mp hblock
          exact Declaration.onLine_codeLines (hinert d hd) (hnames d hd) (hreferences d hd) (h d hd)
            line hline
    have hlines : physicalLines f.code = f.codeLines.map String.toList := by
      rw [code_eq hinert]
      exact physicalLines_joinLines fun line hline => (honline line hline).unbroken
    refine ⟨hlines, fun line hline text htext => ?_⟩
    rw [hlines] at hline
    obtain ⟨line, hmem, rfl⟩ := List.mem_map.mp hline
    exact (honline line hmem).of_mem_scan (.quoted text) htext

/-- The file of a document is framed exactly if no property name and no enumeration value among
its definitions of objects holds a line break. -/
theorem framed_ofDocument_iff (document : Json) (header : List String) :
    (ofDocument document header).1.Framed ↔
      ∀ definition ∈ (Extraction.ofDocument document).1.definitions,
        definition.2.isObject = true → ∀ text ∈ definition.2.quotedTexts, Unbroken text.toList := by
  let found := (Extraction.ofDocument document).1
  have hrun : (ofDocument document header).1.declarations =
      (({} : Compilation).defineAll (Call.extraction found).definitions).2.declarations :=
    declarations_ofDocument document header
  have hdeclarations : (ofDocument document header).1.declarations =
      (({} : Compilation).run [.extraction found]).2.declarations := by
    rw [hrun, Compilation.run_eq_defineAll, List.flatMap_singleton]
  have hframed := @framed_iff (ofDocument document header).1
    (fun d hd => Compilation.inert_of_mem_declarations (hdeclarations ▸ hd))
    (fun d hd => isCodeName_of_mem_declarations (hdeclarations ▸ hd))
    (fun d hd name hname => isCodeName_of_mem_references (hdeclarations ▸ hd) hname)
  have hobjects : ∀ definition ∈ (Call.extraction found).definitions,
      definition.2.isObject = true :=
    fun definition hdefinition => (List.mem_filter.mp hdefinition).2
  have hall : (∀ definition ∈ found.definitions, definition.2.isObject = true →
      ∀ text ∈ definition.2.quotedTexts, Unbroken text.toList) ↔
      ∀ definition ∈ (Call.extraction found).definitions,
        ∀ text ∈ definition.2.quotedTexts, Unbroken text.toList := by
    simp only [Call.definitions, List.mem_filter, and_imp]
  have hquoted (text : String) := Compilation.mem_quotedTexts_defineAll {} hobjects text
  rw [hframed, hall, ← List.forall_mem_flatMap, ← List.forall_mem_flatMap, hrun]
  refine forall_congr' fun text => imp_congr_left ?_
  simpa using hquoted text

/-- A line of a property name passes for the first line of an interface, and a carriage return in
an enumeration value breaks the line of its member. -/
theorem framed_ofDocument_forged :
    let document (properties : List (String × Json)) := Json.obj [("schema", .obj
      [("type", .str "object"), ("title", .str "A"), ("properties", .obj properties)])]
    let forged := (ofDocument (document [("a\n\x7d\nexport interface B \x7b\nb", .obj [])]) []).1
    let values := Json.arr [.str "x\ry"]
    let broken := (ofDocument (document
      [("a", .obj [("type", .str "string"), ("enum", values)])]) []).1
    (forged.names = ["A"] ∧ "export interface B \x7b".toList ∈ physicalLines forged.code ∧
      ¬ forged.Framed) ∧
    "    a?: 'x".toList ∈ physicalLines broken.code ∧ ¬ broken.Framed := by
  intro document forged values broken
  have hforged : physicalLines forged.code ≠ forged.codeLines.map String.toList := by
    decide +kernel
  have hbroken : physicalLines broken.code ≠ broken.codeLines.map String.toList := by
    decide +kernel
  exact ⟨⟨by decide +kernel, by decide +kernel, fun h => hforged h.lines⟩,
    by decide +kernel, fun h => hbroken h.lines⟩

end DeclarationFile

end ApiInterfaces
