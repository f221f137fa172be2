import ApiInterfaces.Files.Error

/-!
What can stop a run.
-/

namespace ApiInterfaces

/-- Why a document describes no API. -/
inductive Defect where
  | rootNotRecord
  | noVersion
  | noPaths
deriving DecidableEq, Repr, Inhabited

def Defect.message : Defect → String
  | .rootNotRecord => "the root is not a record"
  | .noVersion => "missing a `swagger` or `openapi` version field"
  | .noPaths => "missing a `paths` record"

inductive Fault where
  | settingsUnreadable (path : String) (error : FileError)
  | settingsMalformed (path : String)
  | inputUnreadable (path : String) (error : FileError)
  | notJson (path : String)
  | notYaml (path : String)
  | notApiDescription (path : String) (defect : Defect)
  | directoryNotMade (path : String) (error : FileError)
  | fileNotWritten (path : String) (error : FileError)
deriving DecidableEq, Repr, Inhabited

def Fault.message : Fault → String
  | .settingsUnreadable path error => "Failed to read config file " ++ path ++ ": " ++ error.message
  | .settingsMalformed path => "Failed to parse config file " ++ path ++ ": malformed settings"
  | .inputUnreadable path error => "Failed to read " ++ path ++ ": " ++ error.message
  | .notJson path => "Failed to parse " ++ path ++ " as JSON: malformed text"
  | .notYaml path => "Failed to parse " ++ path ++ " as YAML: malformed text"
  | .notApiDescription path defect =>
    path ++ " is not a Swagger/OpenAPI document: " ++ defect.message
  | .directoryNotMade path error => "Failed to create directory " ++ path ++ ": " ++ error.message
  | .fileNotWritten path error => "Failed to write " ++ path ++ ": " ++ error.message

end ApiInterfaces
