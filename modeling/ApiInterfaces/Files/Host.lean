import ApiInterfaces.Calendar
import ApiInterfaces.Files.Error
import ApiInterfaces.Files.Path

/-!
What a run asks of the system it runs on: reading and writing files, making directories, and the
time. Everything else is built on these.
-/

namespace ApiInterfaces

structure Host (m : Type → Type) where
  read : String → m (Except FileError ByteArray)
  write : String → String → m (Except FileError Unit)
  makeDirectory : String → m (Except FileError Unit)
  isFile : String → m Bool
  isDirectory : String → m Bool
  /-- The time, as the local clock shows it. -/
  now : m Calendar.Moment
  /-- Milliseconds since the run began. -/
  elapsed : m Nat

namespace Host

variable {m : Type → Type} [Monad m] (host : Host m)

/-- The text of a file. -/
def readText (path : String) : m (Except FileError String) := do
  match ← host.read path with
  | .error e => pure (.error e)
  | .ok bytes =>
    match String.fromUTF8? bytes with
    | some text => pure (.ok text)
    | none => pure (.error .notText)

/-- The path and the directories that contain it, innermost first. Each is shorter than the one
before. -/
def ancestors : Nat → String → List String
  | 0, path => [path]
  | n + 1, path =>
    match Path.parent? path with
    | none => [path]
    | some parent => path :: ancestors n parent

/-- Goes outward until a directory can be made or is there, and gives those still missing,
outermost first. -/
def makeOutermost : List String → List String → m (Except FileError (List String))
  | missing, [] => pure (.ok missing)
  | missing, directory :: outer => do
    if directory = "" ∨ Path.parent? directory = none then pure (.ok missing)
    else match ← host.makeDirectory directory with
    | .ok () => pure (.ok missing)
    | .error .notFound => makeOutermost (directory :: missing) outer
    | .error .alreadyExists =>
      if ← host.isDirectory directory then pure (.ok missing) else pure (.error .alreadyExists)
    | .error e => pure (.error e)

/-- Makes directories one inside the other; one that is there already will do. -/
def makeEach : List String → m (Except FileError Unit)
  | [] => pure (.ok ())
  | directory :: rest => do
    match ← host.makeDirectory directory with
    | .ok () => makeEach rest
    | .error .alreadyExists =>
      if ← host.isDirectory directory then makeEach rest else pure (.error .alreadyExists)
    | .error e => pure (.error e)

/-- Makes a directory together with those around it. -/
def makeDirectories (path : String) : m (Except FileError Unit) := do
  match ← host.makeOutermost [] (ancestors path.length path) with
  | .error e => pure (.error e)
  | .ok missing => host.makeEach missing

end Host

end ApiInterfaces
