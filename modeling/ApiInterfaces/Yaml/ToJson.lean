import ApiInterfaces.Json.Basic
import ApiInterfaces.Unicode.Blank
import ApiInterfaces.Yaml.Text

/-!
Values as document trees. Keys become texts, tags are dropped, and numbers that no document tree
can hold become null.
-/

namespace ApiInterfaces.Yaml

def Double.toJson : Double → Json
  | .finite x => .num (.double x)
  | .infinite _ | .undefined => .null

namespace Value

/-- The text of a key. One that is a collection is written in block notation. -/
def keyText : Value → String
  | .null => "null"
  | .bool b => if b then "true" else "false"
  | .integer n => toString n
  | .double x => x.text
  | .text s => s
  | .tagged _ value => value.keyText
  | value => String.ofList (Unicode.trimEnd value.blockText.toList)

mutual

def toJson : Value → Json
  | .null => .null
  | .bool b => .bool b
  | .integer n => .num (.integer n)
  | .double x => x.toJson
  | .text s => .str s
  | .sequence items => .arr (toJsonItems items)
  | .mapping entries => .obj (toJsonEntries [] entries)
  | .tagged _ value => value.toJson

def toJsonItems : List Value → List Json
  | [] => []
  | item :: rest => item.toJson :: toJsonItems rest

/-- The members of a record after those put so far. Of two keys with one text the first gives the
place and the last the value. -/
def toJsonEntries (members : List (String × Json)) : List (Value × Value) → List (String × Json)
  | [] => members
  | (key, value) :: rest => toJsonEntries (Keyed.put key.keyText value.toJson members) rest

end

end Value

end ApiInterfaces.Yaml
