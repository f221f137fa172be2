import ApiInterfaces.Keyed
import ApiInterfaces.Yaml.Token

/-!
The node that a stream of tokens describes. Nodes keep their tags, and aliases are left standing:
an alias names the definition that its anchor had when it was read.
-/

namespace ApiInterfaces.Yaml

inductive Node where
  | alias (definition : Nat)
  | scalar (tag : Option String) (text : String) (plain : Bool)
  | sequence (tag : Option String) (items : List Node)
  | mapping (tag : Option String) (entries : List (Node × Node))
deriving Repr, Inhabited

namespace Node

/-- What stands where a node was left out. -/
def empty : Node := .scalar none "" true

mutual

/-- The size of a node: one for a scalar or alias, two for a collection besides what it holds. -/
def weight : Node → Nat
  | .alias _ => 1
  | .scalar .. => 1
  | .sequence _ items => 2 + weightOfItems items
  | .mapping _ entries => 2 + weightOfEntries entries

def weightOfItems : List Node → Nat
  | [] => 0
  | node :: rest => node.weight + weightOfItems rest

def weightOfEntries : List (Node × Node) → Nat
  | [] => 0
  | (key, value) :: rest => key.weight + value.weight + weightOfEntries rest

end

end Node

/-- The anchors of a stream. The number of a definition is that of the names known before it, so
a redefined name shares its number with the next new one; of the definitions with one number the
one that begins last counts. -/
structure Anchors where
  numbers : List (List Char × Nat) := []
  /-- The definitions with their numbers and the order in which they began. -/
  definitions : List (Nat × Nat × Node) := []
  begun : Nat := 0
deriving Repr, Inhabited

namespace Anchors

/-- Begins a definition of `name`. -/
def start (a : Anchors) (name : List Char) : (Nat × Nat) × Anchors :=
  let number := a.numbers.length
  ((number, a.begun), { a with numbers := Keyed.put name number a.numbers, begun := a.begun + 1 })

def startIf (a : Anchors) : Option (List Char) → Option (Nat × Nat) × Anchors
  | none => (none, a)
  | some name =>
    let (entry, a) := a.start name
    (some entry, a)

/-- Ends a definition with the node that it names. -/
def finish (a : Anchors) (node : Node) : Option (Nat × Nat) → Anchors
  | none => a
  | some (number, order) => { a with definitions := (number, order, node) :: a.definitions }

/-- The node under a number. -/
def node? (a : Anchors) (number : Nat) : Option Node :=
  let candidates := a.definitions.filter (·.1 = number)
  (candidates.foldl (fun best d =>
    match best with
    | none => some d
    | some b => if b.2.1 < d.2.1 then some d else best) none).map (·.2.2)

end Anchors

/-- The expansions of tag handles. -/
abbrev TagHandles := List (List Char × List Char)

def TagHandles.default : TagHandles :=
  [(['!'], ['!']), (['!', '!'], "tag:yaml.org,2002:".toList)]

/-- The tag that a text stands for, none when its handle is unknown. -/
def TagHandles.resolve? (handles : TagHandles) (t : TagText) : Option String :=
  if t.handle = [] then some (String.ofList t.suffix)
  else (Keyed.get? t.handle handles).map fun expansion => String.ofList (expansion ++ t.suffix)

/-- Where a node may stand: whether block collections may begin here, and whether a sequence may
begin at the indentation of the mapping around it. -/
structure Position where
  block : Bool
  unindented : Bool

namespace Position

def item : Position := ⟨true, false⟩
def entry : Position := ⟨true, true⟩
def flow : Position := ⟨false, false⟩

end Position

/-- What has been read, the anchors known after it, and the tokens left. -/
abbrev ReadPart (α : Type) := α × Anchors × List Token

def endsItem : Token → Bool
  | .blockEntry | .blockEnd => true
  | _ => false

def endsUnindentedItem : Token → Bool
  | .blockEntry | .key | .value | .blockEnd => true
  | _ => false

def endsEntryPart : Token → Bool
  | .key | .value | .blockEnd => true
  | _ => false

def endsFlowKey (inMapping : Bool) : Token → Bool
  | .value | .flowEntry => true
  | .flowMappingEnd => inMapping
  | .flowSequenceEnd => !inMapping
  | _ => false

def endsFlowValue (inMapping : Bool) : Token → Bool
  | .flowEntry => true
  | .flowMappingEnd => inMapping
  | .flowSequenceEnd => !inMapping
  | _ => false

section Reading

variable (handles : TagHandles)

mutual

/-- A node at a place. -/
def node? (place : Position) (a : Anchors) (ts : List Token) : Option (ReadPart Node) :=
  match ts with
  | .alias name :: rest => (Keyed.get? name a.numbers).map fun number => (.alias number, a, rest)
  | .anchor name :: .tag t :: rest => do content? place (some name) (some (← handles.resolve? t)) a rest
  | .tag t :: .anchor name :: rest => do content? place (some name) (some (← handles.resolve? t)) a rest
  | .anchor name :: rest => content? place (some name) none a rest
  | .tag t :: rest => do content? place none (some (← handles.resolve? t)) a rest
  | ts => content? place none none a ts
termination_by (ts.length, 2)

/-- A node without its anchor and tag. After one of these it may be left out. -/
def content? (place : Position) (anchor : Option (List Char)) (tag : Option String) (a : Anchors)
    (ts : List Token) : Option (ReadPart Node) :=
  let (definition, a) := a.startIf anchor
  let done (node : Node) (a : Anchors) (rest : List Token) : Option (ReadPart Node) :=
    some (node, a.finish node definition, rest)
  let omitted : Option (ReadPart Node) :=
    if anchor.isSome || tag.isSome then done (.scalar tag "" true) a ts else none
  match ts with
  | .scalar text plain :: rest =>
    done (.scalar (if tag = some "!" then none else tag) (String.ofList text) plain) a rest
  | .flowSequence :: rest => do
    let (items, a, rest) ← flowItems? a rest
    done (.sequence tag items) a rest
  | .flowMapping :: rest => do
    let (entries, a, rest) ← flowEntries? a rest
    done (.mapping tag entries) a rest
  | .blockSequence :: rest =>
    if place.block then do
      let (items, a, rest) ← blockItems? a rest
      done (.sequence tag items) a rest
    else omitted
  | .blockMapping :: rest =>
    if place.block then do
      let (entries, a, rest) ← blockEntries? a rest
      done (.mapping tag entries) a rest
    else omitted
  | .blockEntry :: rest =>
    if place.unindented then do
      let (items, a, rest) ← unindentedItems? a (.blockEntry :: rest)
      done (.sequence tag items) a rest
    else omitted
  | _ => omitted
termination_by (ts.length, 1)

/-- A node, left out if one of the tokens that satisfy `stops` is next. -/
def optional? (place : Position) (stops : Token → Bool) (a : Anchors) (ts : List Token) : Option (ReadPart Node) :=
  match ts with
  | [] => none
  | t :: rest => if stops t then some (.empty, a, t :: rest) else node? place a (t :: rest)
termination_by (ts.length, 3)

/-- The items of a block sequence, to its end. -/
def blockItems? (a : Anchors) (ts : List Token) : Option (ReadPart (List Node)) :=
  match ts with
  | .blockEnd :: rest => some ([], a, rest)
  | .blockEntry :: rest => do
    let (node, a, after) ← optional? .item endsItem a rest
    if after.length < rest.length + 1 then
      let (nodes, a, after) ← blockItems? a after
      pure (node :: nodes, a, after)
    else none
  | _ => none
termination_by (ts.length, 0)

/-- The items of a sequence at the indentation of the mapping around it. -/
def unindentedItems? (a : Anchors) (ts : List Token) : Option (ReadPart (List Node)) :=
  match ts with
  | .blockEntry :: rest => do
    let (node, a, after) ← optional? .item endsUnindentedItem a rest
    if after.length < rest.length + 1 then
      let (nodes, a, after) ← unindentedItems? a after
      pure (node :: nodes, a, after)
    else none
  | ts => some ([], a, ts)
termination_by (ts.length, 0)

/-- The entries of a block mapping, to its end. -/
def blockEntries? (a : Anchors) (ts : List Token) : Option (ReadPart (List (Node × Node))) :=
  match ts with
  | .blockEnd :: rest => some ([], a, rest)
  | .key :: rest => do
    let (key, a, after) ← optional? .entry endsEntryPart a rest
    if after.length < rest.length + 1 then
      let (value, a, after) ← value? .entry endsEntryPart a after
      if after.length < rest.length + 1 then
        let (entries, a, after) ← blockEntries? a after
        pure ((key, value) :: entries, a, after)
      else none
    else none
  | _ => none
termination_by (ts.length, 0)

/-- The value of an entry, if there is one. -/
def value? (place : Position) (stops : Token → Bool) (a : Anchors) (ts : List Token) : Option (ReadPart Node) :=
  match ts with
  | .value :: rest => optional? place stops a rest
  | ts => some (.empty, a, ts)
termination_by (ts.length, 0)

/-- The items of a sequence in brackets. A key begins a mapping of one entry; where the key was
left out, the token in its place is passed over. -/
def flowItems? (a : Anchors) (ts : List Token) : Option (ReadPart (List Node)) :=
  match ts with
  | .flowSequenceEnd :: rest => some ([], a, rest)
  | .key :: rest => do
    let (key, a, after) ← optional? .flow (endsFlowKey false) a rest
    let after := if rest.head?.any (endsFlowKey false) then after.tail else after
    if after.length < rest.length + 1 then
      let (value, a, after) ← value? .flow (endsFlowValue false) a after
      if after.length < rest.length + 1 then
        let (items, a, after) ← moreFlowItems? a after
        pure (.mapping none [(key, value)] :: items, a, after)
      else none
    else none
  | ts => do
    let (node, a, after) ← node? .flow a ts
    if after.length < ts.length then
      let (items, a, after) ← moreFlowItems? a after
      pure (node :: items, a, after)
    else none
termination_by (ts.length, 4)

/-- What follows an item in brackets. -/
def moreFlowItems? (a : Anchors) (ts : List Token) : Option (ReadPart (List Node)) :=
  match ts with
  | .flowSequenceEnd :: rest => some ([], a, rest)
  | .flowEntry :: rest => flowItems? a rest
  | _ => none
termination_by (ts.length, 0)

/-- The entries of a mapping in brackets. A node without `:` is a key without a value. -/
def flowEntries? (a : Anchors) (ts : List Token) : Option (ReadPart (List (Node × Node))) :=
  match ts with
  | .flowMappingEnd :: rest => some ([], a, rest)
  | .key :: rest => do
    let (key, a, after) ← optional? .flow (endsFlowKey true) a rest
    if after.length < rest.length + 1 then
      let (value, a, after) ← value? .flow (endsFlowValue true) a after
      if after.length < rest.length + 1 then
        let (entries, a, after) ← moreFlowEntries? a after
        pure ((key, value) :: entries, a, after)
      else none
    else none
  | ts => do
    let (key, a, after) ← node? .flow a ts
    if after.length < ts.length then
      let (entries, a, after) ← moreFlowEntries? a after
      pure ((key, .empty) :: entries, a, after)
    else none
termination_by (ts.length, 4)

/-- What follows an entry in brackets. -/
def moreFlowEntries? (a : Anchors) (ts : List Token) : Option (ReadPart (List (Node × Node))) :=
  match ts with
  | .flowMappingEnd :: rest => some ([], a, rest)
  | .flowEntry :: rest => flowEntries? a rest
  | _ => none
termination_by (ts.length, 0)

end

end Reading

/-- The directives at the start of a stream. One version, 1.1 or 1.2, may be given, and each tag
handle may be expanded once. -/
def directives? : Bool → TagHandles → List Token → Option (TagHandles × List Token)
  | seen, handles, .version major minor :: rest =>
    if !seen && major = 1 && (minor = 1 || minor = 2) then directives? true handles rest else none
  | seen, handles, .tagDirective handle expansion :: rest =>
    if (Keyed.get? handle handles).isSome then none
    else directives? seen (Keyed.put handle expansion handles) rest
  | _, handles, rest => some (handles, rest)

def endsDocument : Token → Bool
  | .version .. | .tagDirective .. | .documentStart | .documentEnd => true
  | _ => false

/-- The handles of a document; those that directives do not expand have their usual meaning. -/
def withDefaults (handles : TagHandles) : TagHandles := handles ++ TagHandles.default

/-- The one document of a stream, with its anchors. Nothing may follow but marks of its end. -/
def document? (ts : List Token) : Option (Node × Anchors) := do
  let (handles, body) ← directives? false [] ts
  let handles := withDefaults handles
  let (node, a, rest) ←
    match body with
    | .documentStart :: rest =>
      match rest with
      | [] => some (.empty, {}, [])
      | t :: _ => if endsDocument t then some (.empty, {}, rest) else node? handles .item {} rest
    | [] => if ts = [] then some (.empty, {}, []) else none
    | body => if body.length = ts.length then node? handles .item {} body else none
  if rest.all (· = .documentEnd) then pure (node, a) else none

end ApiInterfaces.Yaml
