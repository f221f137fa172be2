import ApiInterfaces.CommandLine
import ApiInterfaces.Log.Filter
import Std.Time.Zoned.Database

/-!
The program: it hands its arguments, files and clock to the library and shows what comes out.
-/

namespace ApiInterfaces

def FileError.ofSystem : IO.Error → FileError
  | .noFileOrDirectory .. => .notFound
  | .alreadyExists .. => .alreadyExists
  | .inappropriateType _ code _ => if code = 20 then .notDirectory else .isDirectory
  | e => .other (toString e)

/-- Carries out a file operation. -/
def attempt {α : Type} (action : IO α) : IO (Except FileError α) :=
  tryCatch (Except.ok <$> action) fun e => pure (.error (FileError.ofSystem e))

/-- The time on the local clock, which shows UTC where the system has no zone. -/
def localTime : IO Calendar.Moment := do
  let time ← Std.Time.Timestamp.now
  let offset := match ← attempt Std.Time.Database.defaultGetLocalZoneRules with
    | .ok rules => (rules.timezoneAt time).toSeconds.val
    | .error _ => 0
  return { seconds := time.toSecondsSinceUnixEpoch.val, offset }

/-- The system that the program runs on. -/
def systemHost (begun : Nat) : Host IO where
  read path := attempt (IO.FS.readBinFile path)
  write path text := attempt (IO.FS.writeFile path text)
  makeDirectory path := attempt (IO.FS.createDir path)
  isFile path := return (← attempt (IO.FS.readBinFile path)).isOk
  isDirectory path := return match ← attempt (IO.FS.readBinFile path) with
    | .error .isDirectory => true
    | _ => false
  now := localTime
  elapsed := return (← IO.monoMsNow) - begun

end ApiInterfaces

open ApiInterfaces

def main (arguments : List String) : IO UInt32 := do
  let filter := Log.Filter.ofText (Log.filterText (← IO.getEnv "OASDECL_LOG"))
  for line in filter.warnings do
    IO.eprintln line
  let styling := if ← (← IO.getStdout).isTty then
      CommandLine.Styling.terminal
    else
      CommandLine.Styling.none
  let host := systemHost (← IO.monoMsNow)
  let outcome ← CommandLine.execute host styling (← IO.currentDir).toString
    (CommandLine.parse arguments)
  for line in outcome.output do
    IO.println line
  for event in outcome.events.filter filter.admits do
    IO.eprintln event.logLine
  for line in outcome.errors do
    IO.eprintln line
  return outcome.code.toUInt32
