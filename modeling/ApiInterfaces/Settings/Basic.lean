import ApiInterfaces.Settings.Assignment

/-!
The settings of a run.
-/

namespace ApiInterfaces

structure Settings where
  outputDirectory : String := "output"
  fileName : String := "schemas.d.ts"
  banner : Bool := true
deriving DecidableEq, Repr, Inhabited

namespace Settings

/-- The file that is looked up where none is named. -/
def defaultFile : String := "oasdecl.toml"

/-- Sets what an assignment names; other keys and values of another kind are malformed. -/
def assign? (s : Settings) : String × SettingValue → Option Settings
  | ("output-dir", .text path) => some { s with outputDirectory := path }
  | ("file-name", .text name) => some { s with fileName := name }
  | ("banner", .flag shown) => some { s with banner := shown }
  | _ => none

/-- The settings that a text gives; no key may be assigned twice. -/
def ofText? (text : String) : Option Settings := do
  let entries ← Assignment.ofText? text
  if (entries.map Prod.fst).Nodup then entries.foldlM assign? {} else none

end Settings

end ApiInterfaces
