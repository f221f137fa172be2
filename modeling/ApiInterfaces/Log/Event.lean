/-!
What a run reports besides its results: one event per thing noticed or done, with a level, a
place of origin, a message and fields.
-/

namespace ApiInterfaces

inductive Level where
  | trace
  | debug
  | info
  | warn
  | error
deriving DecidableEq, Repr, Inhabited

namespace Level

/-- Severity; more verbose levels are less severe. -/
def severity : Level → Nat
  | .trace => 1
  | .debug => 2
  | .info => 3
  | .warn => 4
  | .error => 5

def name : Level → String
  | .trace => "trace"
  | .debug => "debug"
  | .info => "info"
  | .warn => "warn"
  | .error => "error"

def label : Level → String
  | .trace => "TRACE"
  | .debug => "DEBUG"
  | .info => "INFO"
  | .warn => "WARN"
  | .error => "ERROR"

def all : List Level := [.trace, .debug, .info, .warn, .error]

end Level

/-- The notation in which a document is read: one of two, or whichever of them fits. -/
inductive Format where
  | json
  | yaml
  | guess
deriving DecidableEq, Repr, Inhabited

def Format.name : Format → String
  | .json => "Json"
  | .yaml => "Yaml"
  | .guess => "Guess"

inductive Event where
  | parsingInput (path : String) (format : Format)
  | recursiveReference (reference : String)
  | unresolvableReference (reference : String)
  | definitionFound (path : String)
  | unreadableSchema
  | unreadableInfo
  | extractionFinished (definitions operations : Nat) (hasInfo : Bool)
  | definitionSkipped (path : String)
  | interfaceAdded (name : String)
  | fileWritten (path : String)
  | generationFinished (elapsedMilliseconds : Nat)
deriving DecidableEq, Repr, Inhabited

namespace Event

def level : Event → Level
  | .unresolvableReference _ | .unreadableSchema | .unreadableInfo => .warn
  | _ => .debug

/-- The part of the program that reports the event. -/
def target : Event → String
  | .parsingInput .. | .recursiveReference _ | .unresolvableReference _ => "oasdecl_cli::loader"
  | .definitionFound _ | .extractionFinished .. => "oasdecl_core::extract"
  | .unreadableSchema => "oasdecl_core::shape"
  | .unreadableInfo => "oasdecl_core::info"
  | .definitionSkipped _ | .interfaceAdded _ => "oasdecl_core::ir::compile"
  | .fileWritten _ => "oasdecl_core::sink"
  | .generationFinished _ => "oasdecl_cli::generate"

def message : Event → String
  | .parsingInput .. => "Parsing input document."
  | .recursiveReference _ => "Leaving recursive reference in place."
  | .unresolvableReference _ => "Unresolvable local reference."
  | .definitionFound _ => "Found schema definition."
  | .unreadableSchema => "Unreadable schema node, falling back to an untyped shape."
  | .unreadableInfo => "Ignoring unreadable info record."
  | .extractionFinished .. => "Extraction finished."
  | .definitionSkipped _ => "Skipping non-object definition."
  | .interfaceAdded _ => "Added interface."
  | .fileWritten _ => "Wrote declaration file."
  | .generationFinished _ => "Generation finished."

/-- The fields that describe the event. How long a run took is not among them. -/
def fields : Event → List (String × String)
  | .parsingInput path format => [("path", path), ("format", format.name)]
  | .recursiveReference reference | .unresolvableReference reference => [("reference", reference)]
  | .definitionFound path | .definitionSkipped path | .fileWritten path => [("path", path)]
  | .unreadableSchema | .unreadableInfo => []
  | .extractionFinished definitions operations hasInfo =>
    [("definitions", Nat.repr definitions), ("operations", Nat.repr operations),
      ("has_info", if hasInfo then "true" else "false")]
  | .interfaceAdded name => [("declaration", name)]
  | .generationFinished _ => []

/-- The message and the fields in one line. -/
def description (e : Event) : String :=
  e.message ++ String.join (e.fields.map fun (key, value) => " " ++ key ++ "=" ++ value)

/-- The line of the log for the event. -/
def logLine (e : Event) : String :=
  e.level.label ++ " " ++ e.target ++ ": " ++ e.description

end Event

end ApiInterfaces
