import ApiInterfaces.Calendar
import ApiInterfaces.Files.Path
import ApiInterfaces.Schema.Info

/-!
The header of a declaration file and the place where the file goes.
-/

namespace ApiInterfaces

namespace Tool

def name : String := "oasdecl"

def version : String := "0.3.0"

end Tool

/-- The lines of the header for the file made from `input`: what made it, when and from what, and
after an empty line what is known of the API. -/
def headerLines (input : String) (info : Option ApiInfo) (time : Calendar.Moment) : List String :=
  let origin := [
    "Auto generated by " ++ Tool.name ++ " (Version " ++ Tool.version ++ ")",
    "Date: " ++ Calendar.text time,
    "Input: " ++ input]
  match (info.map ApiInfo.headerLines).getD [] with
  | [] => origin
  | details => origin ++ "" :: details

/-- The path of the file below an output directory, in a directory of the API's own if the
metadata names one. -/
def outputPath (outputDirectory : String) (info : Option ApiInfo) (fileName : String) : String :=
  match info.bind ApiInfo.directory? with
  | some (title, version) =>
    Path.join (Path.join outputDirectory (Path.join title version)) fileName
  | none => Path.join outputDirectory fileName

end ApiInterfaces
