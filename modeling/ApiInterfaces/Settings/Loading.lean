import ApiInterfaces.Fault
import ApiInterfaces.Files.Host
import ApiInterfaces.Settings.Basic

/-!
Finding the settings of a run.
-/

namespace ApiInterfaces.Settings

variable {m : Type → Type} [Monad m]

def parse (path contents : String) : Except Fault Settings :=
  match ofText? contents with
  | some settings => .ok settings
  | none => .error (.settingsMalformed path)

def read (host : Host m) (path : String) : m (Except Fault Settings) := do
  match ← host.readText path with
  | .error e => pure (.error (.settingsUnreadable path e))
  | .ok contents => pure (parse path contents)

/-- The settings in the file named, which must be there, or else in the usual file of a
directory, or else the usual ones. -/
def load (host : Host m) (named : Option String) (directory : String) :
    m (Except Fault Settings) := do
  match named with
  | some path => read host path
  | none =>
    let path := Path.join directory defaultFile
    if ← host.isFile path then read host path else pure (.ok {})

end ApiInterfaces.Settings
