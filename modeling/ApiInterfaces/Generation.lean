import ApiInterfaces.Document.Loading
import ApiInterfaces.Files.Delivery
import ApiInterfaces.Header
import ApiInterfaces.Interface.Compilation
import ApiInterfaces.Settings.Loading

/-!
A whole run: settings, document, declarations, file. What is shown on the way and what is logged
are values besides the result.
-/

namespace ApiInterfaces

/-- What a run is asked to do. -/
structure Request where
  input : String
  outputDirectory : Option String := none
  settings : Option String := none
  quiet : Bool := false
deriving DecidableEq, Repr, Inhabited

/-- What a run has made. -/
structure Generated where
  path : String
  interfaces : List String
deriving DecidableEq, Repr, Inhabited

/-- A line shown while a run goes on. -/
inductive Progress where
  | banner
  | loading (input : String)
  | addingFile (path : String)
  | addingInterface (name : String)
  | counted (interfaces : Nat)
  | saved (path : String)
  | finished (milliseconds : Nat)
deriving DecidableEq, Repr, Inhabited

namespace Progress

inductive Emphasis where
  | plain
  | bold
  | green
deriving DecidableEq, Repr, Inhabited

def emphasis : Progress → Emphasis
  | .banner => .bold
  | .addingInterface _ => .green
  | _ => .plain

def text : Progress → String
  | .banner =>
    Tool.name ++ " " ++ Tool.version ++ ": Swagger/OpenAPI schemas to TypeScript declarations"
  | .loading input => "Loading: \"" ++ input ++ "\""
  | .addingFile path => "+ add declaration file: " ++ path
  | .addingInterface name => "+ add interface \"" ++ name ++ "\""
  | .counted n => "* detected " ++ Nat.repr n ++ " interfaces"
  | .saved path => "save declaration file: " ++ path
  | .finished n => "done. (" ++ Nat.repr n ++ "ms)"

end Progress

/-- What a run comes to: its result, the lines to show and the events to log. -/
structure Report where
  result : Except Fault Generated
  progress : List Progress := []
  events : List Event := []

namespace Report

/-- What is shown of a run; a quiet one shows nothing. -/
def shown (r : Report) (quiet : Bool) : List Progress := if quiet then [] else r.progress

end Report

variable {m : Type → Type} [Monad m]

/-- Compiles a loaded document and saves its declarations. -/
def generateFrom (host : Host m) (settings : Settings) (outputDirectory input : String)
    (document : Json) : m Report := do
  let (extraction, events) := Extraction.ofDocument document
  let path := outputPath outputDirectory extraction.info settings.fileName
  let (_, compilation) := ({ events : Compilation }).defineObjects extraction
  let file := compilation.finish (headerLines input extraction.info (← host.now))
  let progress :=
    .addingFile path :: file.names.map .addingInterface ++ [.counted file.names.length]
  match ← file.save host path with
  | .error fault => pure { result := .error fault, progress, events := compilation.events }
  | .ok saved =>
    let elapsed ← host.elapsed
    pure {
      result := .ok ⟨path, file.names⟩
      progress := progress ++ [.saved path, .finished elapsed]
      events := compilation.events ++ saved ++ [.generationFinished elapsed] }

/-- Carries out a request, with the usual settings file looked up in `directory`. -/
def generate (host : Host m) (directory : String) (request : Request) : m Report := do
  match ← Settings.load host request.settings directory with
  | .error fault => pure { result := .error fault }
  | .ok settings =>
    let outputDirectory := request.outputDirectory.getD settings.outputDirectory
    let begun := (if settings.banner then [.banner] else []) ++ [.loading request.input]
    let (loaded, events) ← Json.load host request.input
    match loaded with
    | .error fault => pure { result := .error fault, progress := begun, events }
    | .ok document =>
      let report ← generateFrom host settings outputDirectory request.input document
      pure { report with
        progress := begun ++ report.progress
        events := events ++ report.events }

end ApiInterfaces
