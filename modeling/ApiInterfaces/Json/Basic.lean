import ApiInterfaces.Decimal.Binary64
import ApiInterfaces.Keyed

/-!
Document trees. A record keeps its members in document order; integers and doubles are told
apart, so that `1` and `1.0` are different numbers.
-/

namespace ApiInterfaces

inductive Number where
  | integer (value : Int)
  | double (value : Binary64)
deriving DecidableEq, Repr, Inhabited

inductive Json where
  | null
  | bool (value : Bool)
  | num (value : Number)
  | str (value : String)
  | arr (elements : List Json)
  | obj (members : List (String × Json))
deriving Repr, BEq, Inhabited

namespace Json

def isObject : Json → Bool
  | .obj _ => true
  | _ => false

/-- Records and sequences; all other values are scalars. -/
def isContainer : Json → Bool
  | .obj _ | .arr _ => true
  | _ => false

def str? : Json → Option String
  | .str s => some s
  | _ => none

/-- The member of a record under `key`. -/
def get? (key : String) : Json → Option Json
  | .obj members => Keyed.get? key members
  | _ => none

def element? (index : Nat) : Json → Option Json
  | .arr elements => elements[index]?
  | _ => none

end Json

end ApiInterfaces
