import ApiInterfaces.Json.Printer
import ApiInterfaces.Schema.Field
import ApiInterfaces.Unicode.Blank
import ApiInterfaces.Unicode.Casing

/-!
The metadata of an API, what of it is written into the header of a declaration file, and the
directory that title and version name.
-/

namespace ApiInterfaces

structure License where
  name : Option String
  url : Option String
deriving DecidableEq, Repr, Inhabited

structure Contact where
  name : Option String
  email : Option String
  url : Option String
deriving DecidableEq, Repr, Inhabited

structure ApiInfo where
  title : Option String := none
  version : Option String := none
  description : Option String := none
  termsOfService : Option String := none
  license : Option License := none
  contact : Option Contact := none
deriving DecidableEq, Repr, Inhabited

namespace License

def ofTexts : List (Option String) → License
  | [name, url] => ⟨name, url⟩
  | _ => ⟨none, none⟩

def summary? : License → Option String
  | ⟨some name, some url⟩ => some (name ++ " (" ++ url ++ ")")
  | ⟨some name, none⟩ => some name
  | ⟨none, some url⟩ => some ("(" ++ url ++ ")")
  | ⟨none, none⟩ => none

end License

namespace Contact

def ofTexts : List (Option String) → Contact
  | [name, email, url] => ⟨name, email, url⟩
  | _ => ⟨none, none, none⟩

def summary? (c : Contact) : Option String :=
  let parts := [c.name, c.email.map ("<" ++ · ++ ">"), c.url.map ("(" ++ · ++ ")")].filterMap id
  if parts.isEmpty then none else some (String.intercalate " " parts)

end Contact

namespace ApiInfo

/-- The text of a scalar; numbers and truth values are often written unquoted. -/
def scalarText? : Json → Option String
  | .str s => some s
  | .num n => some n.text
  | .bool b => some (if b then "true" else "false")
  | _ => none

/-- Reads an info record, none when a field is malformed. -/
def ofMembers? (members : Field.Members) : Option ApiInfo := do
  let description ← Field.text? "description" members
  let termsOfService ← Field.text? "termsOfService" members
  let license ← Field.textRecord? ["name", "url"] "license" members
  let contact ← Field.textRecord? ["name", "email", "url"] "contact" members
  pure {
    title := (Keyed.get? "title" members).bind scalarText?
    version := (Keyed.get? "version" members).bind scalarText?
    description
    termsOfService
    license := license.map License.ofTexts
    contact := contact.map Contact.ofTexts }

/-- The metadata in a node; only records have any. -/
def ofJson? : Json → Option ApiInfo
  | .obj members => ofMembers? members
  | _ => none

/-- A record that holds no metadata because a field of it is malformed. -/
def isUnreadable : Json → Bool
  | .obj members => (ofMembers? members).isNone
  | _ => false

def headerLines (info : ApiInfo) : List String :=
  [ info.title.map ("Title: " ++ ·),
    info.version.map ("Version: " ++ ·),
    info.description.map ("Description: " ++ ·),
    (info.license.bind License.summary?).map ("License: " ++ ·),
    info.termsOfService.map ("Terms of service: " ++ ·),
    (info.contact.bind Contact.summary?).map ("Contact: " ++ ·) ].filterMap id

/-- Whether a character may not stand in a path component. -/
def isSeparator (c : Char) : Bool := Unicode.isBlank c || c = '/' || c = '\\'

/-- The text without blanks and path separators, none when only dots are left. -/
def pathComponent? (text : String) : Option (List Char) :=
  let cleaned := text.toList.filter fun c => !isSeparator c
  if cleaned.all (· = '.') then none else some cleaned

/-- The components of the directory for the API: its title in lower case and its version. -/
def directory? (info : ApiInfo) : Option (String × String) := do
  let title ← pathComponent? (← info.title)
  let version ← pathComponent? (← info.version)
  pure (String.ofList (Unicode.lowerText title), String.ofList version)

end ApiInfo

end ApiInterfaces
