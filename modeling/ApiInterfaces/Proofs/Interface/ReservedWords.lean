import ApiInterfaces.Proofs.Interface.Forest
import ApiInterfaces.Proofs.Interface.Names

/-!
Names and the words of TypeScript. Keywords and the names of predefined types begin with a small
letter, and no interface of a run does. Hence no declaration and no reference can be read as a
keyword or as a type of the language.
-/

namespace ApiInterfaces

open Naming

/-- The keywords of TypeScript, those with a meaning in some places only included, and its
predefined types. -/
def reservedWords : List String := [
  "abstract", "accessor", "any", "as", "assert", "asserts", "async", "await", "bigint", "boolean",
  "break", "case", "catch", "class", "const", "constructor", "continue", "debugger", "declare",
  "default", "defer", "delete", "do", "else", "enum", "export", "extends", "false", "finally",
  "for", "from", "function", "get", "global", "if", "implements", "import", "in", "infer",
  "instanceof", "interface", "intrinsic", "is", "keyof", "let", "module", "namespace", "never",
  "new", "null", "number", "object", "of", "out", "override", "package", "private", "protected",
  "public", "readonly", "require", "return", "satisfies", "set", "static", "string", "super",
  "switch", "symbol", "this", "throw", "true", "try", "type", "typeof", "undefined", "unique",
  "unknown", "using", "var", "void", "while", "with", "yield"]

/-- The text begins with a small letter of ASCII. -/
def beginsLow (text : String) : Bool := text.toList.head?.any Char.isLower

theorem beginsLow_of_mem_reservedWords {word : String} (h : word ∈ reservedWords) :
    beginsLow word = true := by
  have hall : reservedWords.all beginsLow = true := by decide +kernel
  exact List.all_eq_true.mp hall word h

theorem Naming.BeginsHigh.not_beginsLow {name : String} (h : BeginsHigh name) :
    beginsLow name = false := by
  obtain ⟨first, rest, hname, hlower, -⟩ := h
  simp [beginsLow, hname, hlower]

namespace Compilation

/-- In every run no interface is declared or referred to by a name that begins with a small
letter of ASCII, and hence none by a reserved word. -/
theorem names_not_reserved (calls : List Call) :
    let declarations := (({} : Compilation).run calls).2.declarations
    let names := declarations.map (·.name) ++ declarations.flatMap Declaration.references
    (∀ name ∈ names, beginsLow name = false) ∧ ∀ word ∈ reservedWords, word ∉ names := by
  intro declarations names
  have hdeclared : ∀ d ∈ declarations, beginsLow d.name = false := fun d hd =>
    (beginsHigh_declarations calls d hd).not_beginsLow
  have hnames : ∀ name ∈ names, beginsLow name = false := by
    intro name hname
    rcases List.mem_append.mp hname with hname | hname
    · obtain ⟨d, hd, rfl⟩ := List.mem_map.mp hname
      exact hdeclared d hd
    · -- What is referred to is declared.
      obtain ⟨d, hd, hname⟩ := List.mem_flatMap.mp hname
      obtain ⟨target, htarget, rfl⟩ := exists_of_mem_references hd hname
      exact hdeclared target htarget
  refine ⟨hnames, fun word hword hmem => ?_⟩
  have hlow := beginsLow_of_mem_reservedWords hword
  rw [hnames word hmem] at hlow
  exact Bool.false_ne_true hlow

end Compilation

end ApiInterfaces
