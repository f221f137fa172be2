import ApiInterfaces.Unicode.Alphanumeric
import ApiInterfaces.Unicode.Blank
import ApiInterfaces.Unicode.Casing

/-!
Interface names. A name is made from a title, from an enclosing name and a property, or from a
place in the document: words start with a capital letter, and characters that no identifier may
hold are dropped, the next kept one being capitalised.
-/

namespace ApiInterfaces.Naming

def isIdentifierChar (c : Char) : Bool :=
  Unicode.isAlphanumeric c || c = '_' || c = '$'

/-- The text with its first character in upper case. -/
def capitalize : List Char → List Char
  | [] => []
  | c :: rest => Unicode.upper c ++ rest

/-- The identifier characters of a text; one that follows dropped characters, or the start when
`afterGap` holds, is written in upper case. -/
def keepIdentifierChars : (afterGap : Bool) → List Char → List Char
  | _, [] => []
  | afterGap, c :: rest =>
    if isIdentifierChar c then
      (if afterGap then Unicode.upper c else [c]) ++ keepIdentifierChars false rest
    else keepIdentifierChars true rest

/-- The name of something without a usable character. -/
def fallback : List Char := "Schema".toList

/-- The identifier made of `raw`. A decimal digit at its start gets a `_` in front. -/
def identifierChars (raw : List Char) : List Char :=
  match keepIdentifierChars false raw with
  | [] => fallback
  | c :: rest => if c.isDigit then '_' :: c :: rest else c :: rest

def identifier (raw : String) : String := String.ofList (identifierChars raw.toList)

/-- The words of a text, each capitalised, run together. -/
def capitalizedWords (text : String) : List Char := (Unicode.words text.toList).flatMap capitalize

/-- `pet store` becomes `PetStore`. -/
def ofTitle (title : String) : String := String.ofList (identifierChars (capitalizedWords title))

/-- The name of an untitled object under `property` of the interface `outer`. -/
def ofProperty (outer property : String) : String :=
  String.ofList (identifierChars (outer.toList ++ capitalizedWords property))

/-- Segments that tell nothing about a definition. -/
def isMarker (segment : String) : Bool :=
  segment = "" || segment = "paths" || segment = "responses" || segment = "schema"

/-- The name of an untitled definition at a place of the document. The place
`paths`, `/pets`, `get`, `responses`, `200`, `schema` becomes `PetsGet200`. -/
def ofPath (segments : List String) : String :=
  String.ofList <| identifierChars <|
    (segments.filter fun s => !isMarker s).flatMap fun s => capitalize s.toList

end ApiInterfaces.Naming
