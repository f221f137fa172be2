import ApiInterfaces.Generation

/-!
The command line. Options may stand before and after the input, `--` ends them, a value follows
its option after a `=` or as the next argument, and short options may share a hyphen. Arguments
are taken one by one, and the first one that cannot be accepted, or asks for the version or for
help, settles the matter.
-/

namespace ApiInterfaces.CommandLine

inductive Command where
  | run (request : Request)
  | version
  | help
  | misuse
deriving DecidableEq, Repr, Inhabited

/-- An option with a value. -/
inductive Setting where
  | outputDirectory
  | settings
deriving DecidableEq, Repr, Inhabited

inductive Flag where
  | quiet
  | version
  | help
deriving DecidableEq, Repr, Inhabited

def Setting.ofName? (name : String) : Option Setting :=
  if name = "out-dir" then some .outputDirectory
  else if name = "config" then some .settings
  else none

def Flag.ofName? (name : String) : Option Flag :=
  if name = "quiet" then some .quiet
  else if name = "version" then some .version
  else if name = "help" then some .help
  else none

def Flag.ofLetter? : Char → Option Flag
  | 'q' => some .quiet
  | 'V' => some .version
  | 'h' => some .help
  | _ => none

/-- The arguments accepted so far. -/
structure Accepted where
  input : Option String := none
  outputDirectory : Option String := none
  settings : Option String := none
  quiet : Bool := false
deriving Repr, Inhabited

namespace Accepted

/-- Every option may be given once, and no value is empty. -/
def set? (a : Accepted) (setting : Setting) (value : String) : Option Accepted :=
  if value = "" then none
  else match setting with
  | .outputDirectory =>
    if a.outputDirectory.isSome then none else some { a with outputDirectory := some value }
  | .settings => if a.settings.isSome then none else some { a with settings := some value }

def setInput? (a : Accepted) (value : String) : Option Accepted :=
  if value = "" ∨ a.input.isSome then none else some { a with input := some value }

/-- The effect of a flag: a change of what is accepted, or a command at once. -/
def flag (a : Accepted) : Flag → Except Command Accepted
  | .quiet => if a.quiet then .error .misuse else .ok { a with quiet := true }
  | .version => .error .version
  | .help => .error .help

def flags (a : Accepted) : List Char → Except Command Accepted
  | [] => .ok a
  | letter :: rest =>
    match Flag.ofLetter? letter with
    | some flag => do flags (← a.flag flag) rest
    | none => .error .misuse

def command (a : Accepted) : Command :=
  match a.input with
  | some input =>
    .run { input, outputDirectory := a.outputDirectory, settings := a.settings, quiet := a.quiet }
  | none => .misuse

end Accepted

/-- The kinds of arguments. -/
inductive Argument where
  | endOfOptions
  | long (name : String) (value : Option String)
  | short (letters : List Char)
  | plain (value : String)
deriving DecidableEq, Repr, Inhabited

/-- A lone hyphen is a value. -/
def Argument.ofText (text : String) : Argument :=
  match text.toList with
  | ['-', '-'] => .endOfOptions
  | '-' :: '-' :: option =>
    let name := option.takeWhile (· ≠ '=')
    match option.drop name.length with
    | _ :: value => .long (String.ofList name) (some (String.ofList value))
    | [] => .long (String.ofList name) none
  | '-' :: letter :: letters => .short (letter :: letters)
  | _ => .plain text

/-- Where the reading of arguments stands: what is accepted, the option whose value comes next,
and whether options have ended. -/
structure Parsing where
  accepted : Accepted := {}
  awaiting : Option Setting := none
  optionsEnded : Bool := false
deriving Repr, Inhabited

namespace Parsing

def accept (p : Parsing) (accepted : Option Accepted) : Except Command Parsing :=
  match accepted with
  | some accepted => .ok { p with accepted, awaiting := none }
  | none => .error .misuse

def long (p : Parsing) (name : String) (value : Option String) : Except Command Parsing :=
  match Setting.ofName? name, Flag.ofName? name, value with
  | some setting, _, some value => p.accept (p.accepted.set? setting value)
  | some setting, _, none => .ok { p with awaiting := some setting }
  | none, some flag, none => do return { p with accepted := ← p.accepted.flag flag }
  | none, _, _ => .error .misuse

/-- Takes one argument. -/
def step (p : Parsing) (text : String) : Except Command Parsing :=
  if p.optionsEnded then p.accept (p.accepted.setInput? text)
  else match p.awaiting, Argument.ofText text with
  | some setting, .plain value => p.accept (p.accepted.set? setting value)
  | some _, _ => .error .misuse
  | none, .plain value => p.accept (p.accepted.setInput? value)
  | none, .endOfOptions => .ok { p with optionsEnded := true }
  | none, .short letters => do return { p with accepted := ← p.accepted.flags letters }
  | none, .long name value => p.long name value

def command (p : Parsing) : Command := if p.awaiting.isSome then .misuse else p.accepted.command

end Parsing

/-- The command that the arguments after the program's name give. -/
def parse (arguments : List String) : Command :=
  match arguments.foldlM Parsing.step {} with
  | .ok p => p.command
  | .error command => command

def versionText : String := Tool.name ++ " " ++ Tool.version

def usage : List String := [
  "Generate TypeScript declarations from Swagger/OpenAPI schemas",
  "",
  "Usage: " ++ Tool.name ++ " [OPTIONS] <INPUT>",
  "",
  "Arguments:",
  "  <INPUT>          Swagger/OpenAPI document (JSON or YAML)",
  "",
  "Options:",
  "      --out-dir <DIR>  Root directory for declaration files. Overrides the config file",
  "      --config <FILE>  Config file. Defaults to oasdecl.toml in the working directory",
  "  -q, --quiet          Only print errors",
  "  -h, --help           Print help",
  "  -V, --version        Print version"]

/-! ### What is shown -/

/-- How emphasis is shown: not at all, or by the codes of a terminal. -/
inductive Styling where
  | none
  | terminal
deriving DecidableEq, Repr, Inhabited

def styled (styling : Styling) (code text : String) : String :=
  match styling with
  | .none => text
  | .terminal => "\x1b[" ++ code ++ "m" ++ text ++ "\x1b[0m"

def progressLine (styling : Styling) (p : Progress) : String :=
  match p.emphasis with
  | .plain => p.text
  | .bold => styled styling "1" p.text
  | .green => styled styling "32" p.text

/-- What a command comes to for its user: the exit code, the lines on the two outputs, and the
events. -/
structure Outcome where
  code : Nat
  output : List String := []
  errors : List String := []
  events : List Event := []
deriving Repr, Inhabited

def outcomeOf (styling : Styling) (quiet : Bool) (r : Report) : Outcome :=
  let output := (r.shown quiet).map (progressLine styling)
  match r.result with
  | .ok _ => { code := 0, output, events := r.events }
  | .error fault =>
    { code := 1, output, errors := [styled styling "31" fault.message], events := r.events }

/-- Carries out a command in a directory. -/
def execute {m : Type → Type} [Monad m] (host : Host m) (styling : Styling) (directory : String) :
    Command → m Outcome
  | .version => pure { code := 0, output := [versionText] }
  | .help => pure { code := 0, output := usage }
  | .misuse =>
    pure { code := 2, errors := ["Usage: " ++ Tool.name ++ " [OPTIONS] <INPUT>"] }
  | .run request => do
    pure (outcomeOf styling request.quiet (← generate host directory request))

end ApiInterfaces.CommandLine
