import ApiInterfaces.Fault
import ApiInterfaces.Files.Host
import ApiInterfaces.Interface.Text
import ApiInterfaces.Log.Event

/-!
Writing declaration files.
-/

namespace ApiInterfaces.DeclarationFile

variable {m : Type → Type} [Monad m]

/-- Makes the directory in which `path` lies, unless that is where the run takes place. -/
def makeParent (host : Host m) (path : String) : m (Except Fault Unit) := do
  match Path.parent? path with
  | none | some "" => pure (.ok ())
  | some parent =>
    match ← host.makeDirectories parent with
    | .ok () => pure (.ok ())
    | .error e => pure (.error (.directoryNotMade parent e))

/-- Writes the text of a file to `path`. -/
def save (host : Host m) (path : String) (f : DeclarationFile) : m (Except Fault (List Event)) := do
  match ← makeParent host path with
  | .error fault => pure (.error fault)
  | .ok () =>
    match ← host.write path f.text with
    | .ok () => pure (.ok [.fileWritten path])
    | .error e => pure (.error (.fileNotWritten path e))

end ApiInterfaces.DeclarationFile
