import ApiInterfaces.Log.Event
import ApiInterfaces.Text.Pieces
import ApiInterfaces.Unicode.Alphanumeric
import ApiInterfaces.Unicode.Blank

/-!
Which events are logged. A filter is a list of directives, each a level for the places whose names
begin with its target, or for all of them; the longest target that fits decides.
-/

namespace ApiInterfaces.Log

/-- The places that a plain level is meant for. -/
def ownTargets : List String := ["oasdecl", "oasdecl_cli", "oasdecl_core", "oasdecl_common"]

/-- The directives that give all own places one level. -/
def forOwnTargets (level : String) : String :=
  String.intercalate "," (ownTargets.map fun target => target ++ "=" ++ level)

/-- The filter that a setting asks for: a plain level holds for the own places, a blank setting
means `info`, and any other is a filter already. -/
def filterText : Option String → String
  | none => forOwnTargets "info"
  | some setting =>
    let lowered := String.ofList (setting.toList.map Char.toLower)
    if Level.all.any fun level => level.name = lowered then forOwnTargets lowered
    else if (Unicode.trim setting.toList).isEmpty then forOwnTargets "info"
    else setting

/-- The events that are kept: those at least as severe as a level, or none. -/
inductive Threshold where
  | off
  | atLeast (level : Level)
deriving DecidableEq, Repr, Inhabited

def Threshold.admits : Threshold → Level → Bool
  | .off, _ => false
  | .atLeast least, level => least.severity ≤ level.severity

/-- A number from nothing to everything. -/
def Threshold.ofNumber? : Nat → Option Threshold
  | 0 => some .off
  | 1 => some (.atLeast .error)
  | 2 => some (.atLeast .warn)
  | 3 => some (.atLeast .info)
  | 4 => some (.atLeast .debug)
  | 5 => some (.atLeast .trace)
  | _ => none

/-- The number that a text of digits spells, after a `+` or not. -/
def number? (text : List Char) : Option Nat :=
  let digits := match text with
    | '+' :: rest => rest
    | _ => text
  if digits ≠ [] ∧ digits.all Char.isDigit then
    some (digits.foldl (fun n d => 10 * n + (d.toNat - 48)) 0)
  else none

/-- A threshold by name, in any case, or by number. -/
def Threshold.ofText? (text : List Char) : Option Threshold :=
  match number? text with
  | some n => ofNumber? n
  | none =>
    let lowered := String.ofList (text.map Char.toLower)
    if lowered = "off" then some .off
    else (Level.all.find? fun level => level.name = lowered).map .atLeast

/-- A threshold for the places whose names begin with a target; without one, for all. -/
structure Directive where
  target : Option (List Char)
  threshold : Threshold
deriving DecidableEq, Repr, Inhabited

/-- What is wrong with a directive. -/
inductive DirectiveFault where
  | malformed
  | unknownLevel
deriving DecidableEq, Repr, Inhabited

def DirectiveFault.message : DirectiveFault → String
  | .malformed => "invalid filter directive"
  | .unknownLevel =>
    "error parsing level filter: expected one of \"off\", \"error\", \"warn\", \"info\", " ++
      "\"debug\", \"trace\", or a number 0-5"

namespace Directive

def canBegin (c : Char) : Bool := c = '-' || c = ':' || c = '_' || Unicode.isAlphanumeric c

/-- Reads a directive. Where its parts lie is found without the blanks around it, but they are cut
out of the text with its blanks, so that one before the directive leaves it without a known level.
A directive for a part of a place, in brackets, says nothing about events here. -/
def ofText (text : List Char) : Except DirectiveFault (Option Directive) :=
  let trimmed := Unicode.trim text
  let width := (trimmed.takeWhile fun c => c ≠ '=' && c ≠ '[').length
  match trimmed, trimmed.drop width with
  | '[' :: _, _ => .ok none
  | c :: _, rest =>
    if !canBegin c then .error .malformed
    else match rest with
    | '=' :: _ =>
      let target := some (text.take width)
      match text.drop (width + 1) with
      | [] => .ok (some ⟨target, .atLeast .trace⟩)
      | level =>
        match Threshold.ofText? level with
        | some threshold => .ok (some ⟨target, threshold⟩)
        | none => .error .unknownLevel
    | '[' :: _ => .ok none
    | _ =>
      match Threshold.ofText? text with
      | some threshold => .ok (some ⟨none, threshold⟩)
      | none => .ok (some ⟨some text, .atLeast .trace⟩)
  | [], _ => .error .malformed

/-- How much of a name a directive fixes. -/
def weight (d : Directive) : Nat := (d.target.map fun target => target.length + 1).getD 0

def fits (d : Directive) (place : String) : Bool :=
  d.target.all fun target => target.isPrefixOf place.toList

end Directive

/-- A filter with the parts of it that could not be read. -/
structure Filter where
  directives : List Directive := []
  ignored : List (String × DirectiveFault) := []
deriving Repr, Inhabited

namespace Filter

def ofText (text : String) : Filter :=
  ((Text.split ',' text.toList).filter (· ≠ [])).foldl (fun filter part =>
    match Directive.ofText part with
    | .ok (some d) => { filter with directives := filter.directives ++ [d] }
    | .ok none => filter
    | .error fault =>
      { filter with ignored := filter.ignored ++ [(String.ofList part, fault)] }) {}

/-- The directive that decides for a place: the weightiest that fits, the last of equals. -/
def directive? (filter : Filter) (place : String) : Option Directive :=
  (filter.directives.filter (·.fits place)).foldl (fun best d =>
    match best with
    | some b => if b.weight ≤ d.weight then some d else best
    | none => some d) none

def admits (filter : Filter) (event : Event) : Bool :=
  (filter.directive? event.target).any fun d => d.threshold.admits event.level

/-- The lines about parts of the filter that were ignored. -/
def warnings (filter : Filter) : List String :=
  filter.ignored.map fun (text, fault) => "ignoring `" ++ text ++ "`: " ++ fault.message

end Filter

end ApiInterfaces.Log
