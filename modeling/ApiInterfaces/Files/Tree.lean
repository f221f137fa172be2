import ApiInterfaces.Files.Host
import ApiInterfaces.Keyed

/-!
A tree of files and directories, and the file operations on it. A path is followed component by
component from the root or the working directory, and every component but the last must lead to
a directory.
-/

namespace ApiInterfaces

inductive FileNode where
  | file (content : ByteArray)
  | directory
deriving Inhabited

/-- Components from the root on. -/
abbrev Location := List String

/-- The nodes of a tree under their locations; the root itself is always a directory. Relative
paths start at the working directory. -/
structure FileTree where
  nodes : List (Location × FileNode)
  workingDirectory : Location
deriving Inhabited

namespace FileTree

def node? (t : FileTree) (at_ : Location) : Option FileNode :=
  if at_ = [] then some .directory else Keyed.get? at_ t.nodes

def put (t : FileTree) (at_ : Location) (node : FileNode) : FileTree :=
  { t with nodes := Keyed.put at_ node t.nodes }

/-- The most bytes that a path and a component may have. -/
def maxPathBytes : Nat := 4095
def maxNameBytes : Nat := 255

/-- Where a path leads: to a node, or to a free name in a directory. -/
inductive Target where
  | node (at_ : Location) (node : FileNode)
  | free (at_ : Location)

/-- Follows the components from a location on. -/
def follow (t : FileTree) (at_ : Location) : List String → Except FileError Target
  | [] =>
    match t.node? at_ with
    | some node => .ok (.node at_ node)
    | none => .error .notFound
  | part :: rest =>
    match t.node? at_ with
    | none => .error .notFound
    | some (.file _) => .error .notDirectory
    | some .directory =>
      if part = "." then t.follow at_ rest
      else if part = ".." then t.follow at_.dropLast rest
      else if maxNameBytes < part.utf8ByteSize then .error .nameTooLong
      else match t.node? (at_ ++ [part]), rest with
      | some _, _ => t.follow (at_ ++ [part]) rest
      | none, [] => .ok (.free (at_ ++ [part]))
      | none, _ :: _ => .error .notFound

def components (path : String) : List String :=
  ((Text.split '/' path.toList).filter (· ≠ [])).map String.ofList

def endsInSlash (path : String) : Bool := path.endsWith "/"

/-- Where `path` leads. -/
def resolve (t : FileTree) (path : String) : Except FileError Target :=
  if '\x00' ∈ path.toList then .error .nulInPath
  else if path = "" then .error .notFound
  else if maxPathBytes < path.utf8ByteSize then .error .nameTooLong
  else t.follow (if path.startsWith "/" then [] else t.workingDirectory) (components path)

def read (t : FileTree) (path : String) : Except FileError ByteArray := do
  match ← t.resolve path with
  | .node _ .directory => .error .isDirectory
  | .node _ (.file content) => if endsInSlash path then .error .notDirectory else .ok content
  | .free _ => .error .notFound

def write (t : FileTree) (path : String) (text : String) : Except FileError FileTree := do
  match ← t.resolve path with
  | .node _ .directory => .error .isDirectory
  | .node at_ (.file _) =>
    if endsInSlash path then .error .isDirectory else .ok (t.put at_ (.file text.toUTF8))
  | .free at_ =>
    if endsInSlash path then .error .isDirectory else .ok (t.put at_ (.file text.toUTF8))

def makeDirectory (t : FileTree) (path : String) : Except FileError FileTree := do
  match ← t.resolve path with
  | .node _ _ => .error .alreadyExists
  | .free at_ => .ok (t.put at_ .directory)

def isFile (t : FileTree) (path : String) : Bool :=
  match t.resolve path with
  | .ok (.node _ (.file _)) => !endsInSlash path
  | _ => false

def isDirectory (t : FileTree) (path : String) : Bool :=
  match t.resolve path with
  | .ok (.node _ .directory) => true
  | _ => false

/-- An operation that may change the tree, and leaves it alone when it fails. -/
def change (operation : FileTree → Except FileError FileTree) :
    StateM FileTree (Except FileError Unit) :=
  fun t =>
    match operation t with
    | .ok t => (.ok (), t)
    | .error e => (.error e, t)

/-- A system whose files are the tree, at a given time. -/
def host (now : Calendar.Moment) (elapsed : Nat) : Host (StateM FileTree) where
  read path := fun t => (t.read path, t)
  write path text := change (·.write path text)
  makeDirectory path := change (·.makeDirectory path)
  isFile path := fun t => (t.isFile path, t)
  isDirectory path := fun t => (t.isDirectory path, t)
  now := pure now
  elapsed := pure elapsed

end FileTree

end ApiInterfaces
