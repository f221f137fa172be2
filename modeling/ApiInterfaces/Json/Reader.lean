import ApiInterfaces.Json.Token

/-!
Reading a JSON text. The tokens drive a machine whose state is the stack of open containers and
what may come next; a record that repeats a key keeps the first position and the last value.
-/

namespace ApiInterfaces.Json.Reader

/-- A container that waits for a value: the elements so far, last first, or the members so far
and the key of the value to come. -/
inductive Open where
  | array (elements : List Json)
  | member (members : List (String × Json)) (key : String)
deriving Inhabited

/-- What has been read and what may follow. -/
inductive State where
  | expectValue (stack : List Open)
  | firstElement (stack : List Open)
  | afterElement (elements : List Json) (stack : List Open)
  | firstKey (stack : List Open)
  | expectKey (members : List (String × Json)) (stack : List Open)
  | expectColon (members : List (String × Json)) (key : String) (stack : List Open)
  | afterMember (members : List (String × Json)) (stack : List Open)
  | finished (document : Json)
deriving Inhabited

/-- The state after a complete value. -/
def State.complete (value : Json) : List Open → State
  | [] => .finished value
  | .array elements :: stack => .afterElement (value :: elements) stack
  | .member members key :: stack => .afterMember (Keyed.put key value members) stack

/-- Begins a value; at most `depth` containers may be open at once. -/
def State.begin? (depth : Nat) (stack : List Open) : Token → Option State
  | .scalar value => some (.complete value stack)
  | .openArray => if stack.length < depth then some (.firstElement stack) else none
  | .openObject => if stack.length < depth then some (.firstKey stack) else none
  | _ => none

def State.step? (depth : Nat) : State → Token → Option State
  | .expectValue stack, token => begin? depth stack token
  | .firstElement stack, .closeArray => some (.complete (.arr []) stack)
  | .firstElement stack, token => begin? depth (.array [] :: stack) token
  | .afterElement elements stack, .comma => some (.expectValue (.array elements :: stack))
  | .afterElement elements stack, .closeArray => some (.complete (.arr elements.reverse) stack)
  | .firstKey stack, .closeObject => some (.complete (.obj []) stack)
  | .firstKey stack, .scalar (.str key) => some (.expectColon [] key stack)
  | .expectKey members stack, .scalar (.str key) => some (.expectColon members key stack)
  | .expectColon members key stack, .colon => some (.expectValue (.member members key :: stack))
  | .afterMember members stack, .comma => some (.expectKey members stack)
  | .afterMember members stack, .closeObject => some (.complete (.obj members) stack)
  | _, _ => none

end Reader

open Reader in
/-- The document that a text holds, none when it is no JSON text or opens more than `depth`
containers at once. -/
def ofText? (depth : Nat) (text : String) : Option Json := do
  let tokens ← Token.ofText? text.toList
  match ← tokens.foldlM (State.step? depth) (.expectValue []) with
  | .finished document => some document
  | _ => none

end ApiInterfaces.Json
