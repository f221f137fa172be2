import ApiInterfaces.Interface.Basic
import ApiInterfaces.Interface.Comment
import ApiInterfaces.Interface.Quoted

/-!
The text of a declaration file: the header comment and the declarations, with an empty line
between any two of them.
-/

namespace ApiInterfaces

namespace TypeExpr

def isUnion : TypeExpr → Bool
  | .union _ => true
  | _ => false

mutual

/-- Unions stand in parentheses before `[]`; an empty one is anything. -/
def text : TypeExpr → String
  | .string => "string"
  | .number => "number"
  | .boolean => "boolean"
  | .any => "any"
  | .array item => if item.isUnion then "(" ++ item.text ++ ")[]" else item.text ++ "[]"
  | .union [] => "any"
  | .union (first :: rest) => String.intercalate " | " (first.text :: texts rest)
  | .literal value => Quoted.literal value
  | .named name => name

def texts : List TypeExpr → List String
  | [] => []
  | type :: rest => type.text :: texts rest

end

end TypeExpr

/-- What the parts of a declaration are indented by. -/
def memberIndent : String := "    "

namespace DocBlock

def text (docs : DocBlock) (indent : String) : String :=
  String.ofList (Comment.block "/**" indent.toList (docs.lines.map String.toList))

/-- The comment in front of something that may have none. -/
def textOf (docs : Option DocBlock) (indent : String) : String :=
  match docs with
  | some docs => docs.text indent
  | none => ""

end DocBlock

namespace Member

def text (m : Member) : String :=
  Quoted.key m.name ++ (if m.optional then "?" else "") ++ ": " ++ m.type.text ++ ";"

/-- The lines of a member inside a declaration. -/
def block (m : Member) : String :=
  DocBlock.textOf m.docs memberIndent ++ memberIndent ++ m.text ++ "\n"

end Member

namespace IndexSignature

def text (s : IndexSignature) : String := "[" ++ s.key ++ ": string]: " ++ s.value.text ++ ";"

def block (s : IndexSignature) : String :=
  DocBlock.textOf s.docs memberIndent ++ memberIndent ++ s.text ++ "\n"

end IndexSignature

namespace Declaration

def text (d : Declaration) : String :=
  DocBlock.textOf d.docs "" ++ "export interface " ++ d.name ++ " \x7b\n" ++
    (match d.index with
      | some signature => signature.block
      | none => "") ++
    String.join (d.members.map Member.block) ++ "\x7d\n"

end Declaration

namespace DeclarationFile

/-- A header entry cut at its line feeds; an empty one is an empty line. -/
def headerEntryLines (entry : String) : List (List Char) :=
  if entry = "" then [[]] else Text.feedLines entry.toList

def headerText (header : List String) : String :=
  String.ofList (Comment.block "/*" [] (header.flatMap headerEntryLines))

def sections (f : DeclarationFile) : List String :=
  (if f.header.isEmpty then [] else [headerText f.header]) ++ f.declarations.map Declaration.text

def text (f : DeclarationFile) : String := String.intercalate "\n" f.sections

end DeclarationFile

end ApiInterfaces
