import ApiInterfaces.Json.Basic

/-!
Typed fields of a record. A field that is missing or null is absent; one of another kind than
expected makes the whole record unreadable, which the outer `none` of every reader says.
-/

namespace ApiInterfaces.Field

abbrev Members := List (String × Json)

/-- A text or nothing. -/
def ofText? : Json → Option (Option String)
  | .null => some none
  | .str s => some (some s)
  | _ => none

def text? (key : String) (members : Members) : Option (Option String) :=
  match Keyed.get? key members with
  | none => some none
  | some value => ofText? value

/-- The texts at the start of a sequence, and nothing for each one missing. A sequence longer than
the list of names is unreadable. -/
def textsInOrder? : List String → List Json → Option (List (Option String))
  | names, [] => some (names.map fun _ => none)
  | [], _ :: _ => none
  | _ :: names, value :: rest => do
    let text ← ofText? value
    (text :: ·) <$> textsInOrder? names rest

/-- The texts under `names` of a nested record, which may also be written as the sequence of its
fields. -/
def textRecord? (names : List String) (key : String) (members : Members) :
    Option (Option (List (Option String))) :=
  match Keyed.get? key members with
  | none | some .null => some none
  | some (.obj fields) => some <$> names.mapM fun name => text? name fields
  | some (.arr elements) => some <$> textsInOrder? names elements
  | some _ => none

end ApiInterfaces.Field
