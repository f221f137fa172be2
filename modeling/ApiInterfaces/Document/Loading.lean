import ApiInterfaces.Document.Reference
import ApiInterfaces.Fault
import ApiInterfaces.Files.Host
import ApiInterfaces.Json.Reader
import ApiInterfaces.Yaml.ToJson

/-!
Loading a document: its text is read in the notation that the extension of the path tells, the
document must look like the description of an API, and its local references are inlined.
-/

namespace ApiInterfaces

def Format.ofPath (path : String) : Format :=
  match (Path.extension? path).map fun cs => cs.map Char.toLower with
  | some ['j', 's', 'o', 'n'] => .json
  | some ['y', 'a', 'm', 'l'] => .yaml
  | some ['y', 'm', 'l'] => .yaml
  | _ => .guess

namespace Json

/-- JSON documents nest containers at most this deep. -/
def maxDepth : Nat := 127

def ofYaml? (text : String) : Option Json := (Yaml.Value.ofText? text).map Yaml.Value.toJson

/-- The document in a text. Where the notation has to be guessed, JSON is tried first. -/
def parse (path contents : String) : Except Fault Json :=
  let json := ofText? maxDepth contents
  match Format.ofPath path, json with
  | .json, none => .error (.notJson path)
  | .json, some document => .ok document
  | .guess, some document => .ok document
  | _, _ =>
    match ofYaml? contents with
    | some document => .ok document
    | none => .error (.notYaml path)

/-- What a document lacks of the description of an API: a record with the text of a version and a
record of paths. -/
def defect? (document : Json) : Option Defect :=
  let isText (value : Option Json) : Bool := (value.bind Json.str?).isSome
  if !document.isObject then some .rootNotRecord
  else if !isText (document.get? "swagger") && !isText (document.get? "openapi") then some .noVersion
  else if !(document.get? "paths").any Json.isObject then some .noPaths
  else none

/-- Reads the document at a path and inlines its references. -/
def load {m : Type → Type} [Monad m] (host : Host m) (path : String) :
    m (Except Fault Json × List Event) := do
  match ← host.readText path with
  | .error e => pure (.error (.inputUnreadable path e), [])
  | .ok contents =>
    let parsing := Event.parsingInput path (Format.ofPath path)
    match parse path contents with
    | .error fault => pure (.error fault, [parsing])
    | .ok document =>
      match document.defect? with
      | some defect => pure (.error (.notApiDescription path defect), [parsing])
      | none =>
        let (document, events) := document.inlineReferences
        pure (.ok document, parsing :: events)

end Json

end ApiInterfaces
