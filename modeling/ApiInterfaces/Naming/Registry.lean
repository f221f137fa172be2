/-!
The names claimed during a run. A name that is taken is told apart by the least number that
makes it new.
-/

namespace ApiInterfaces.Naming

/-- The names claimed so far, in the order of their claims. -/
structure Registry where
  names : List String := []
deriving DecidableEq, Repr, Inhabited

namespace Registry

def contains (r : Registry) (name : String) : Bool := name ∈ r.names

/-- `base` followed by the decimal form of `n`. -/
def numbered (base : String) (n : Nat) : String := base ++ Nat.repr n

/-- The least number with which `base` is still free. Among as many candidates as there are names
one is free, since `base` is a name too. -/
def leastFree (r : Registry) (base : String) : Nat :=
  ((List.range r.names.length).find? fun n => !r.contains (numbered base n)).getD r.names.length

/-- The name that a claim of `base` is given. -/
def fresh (r : Registry) (base : String) : String :=
  if r.contains base then numbered base (r.leastFree base) else base

def add (r : Registry) (name : String) : Registry := ⟨r.names ++ [name]⟩

/-- Claims `base` or a numbered form of it. -/
def claim (r : Registry) (base : String) : String × Registry :=
  let name := r.fresh base
  (name, r.add name)

@[simp] theorem names_claim (r : Registry) (base : String) :
    (r.claim base).2.names = r.names ++ [(r.claim base).1] := rfl

end Registry

end ApiInterfaces.Naming
