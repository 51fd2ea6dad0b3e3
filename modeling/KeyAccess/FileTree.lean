-- File trees: the files and directories beneath a working directory, and what reading them by a
-- path gives.

namespace KeyAccess

/-- What stands at a place in a file tree. -/
inductive FileNode
  | file (content : ByteArray)
  | directory
  /-- What cannot be read, not even as an entry of its directory; the system says why. -/
  | damaged (reason : String)

/-- The nodes of a file tree by the names that lead to them. -/
structure FileTree where
  nodes : List (List String × FileNode) := []

/-- Why a path cannot be read. -/
inductive ReadFault
  | notFound
  | notADirectory
  | isADirectory
  | notText
  /-- A fault that the system reports in its own words. -/
  | reported (reason : String)
  deriving DecidableEq

/-- The wording of the fault. -/
def ReadFault.message : ReadFault → String
  | notFound => "No such file or directory (os error 2)"
  | notADirectory => "Not a directory (os error 20)"
  | isADirectory => "Is a directory (os error 21)"
  | notText => "stream did not contain valid UTF-8"
  | reported reason => reason

namespace FileTree

/-- The parts of a text between its slashes. -/
def splitSlashes : List Char → List (List Char)
  | [] => [[]]
  | c :: rest =>
    if c = '/' then [] :: splitSlashes rest
    else match splitSlashes rest with
      | [] => [[c]]
      | part :: parts => (c :: part) :: parts

/-- The parts of a path between its slashes. -/
def pathParts (path : String) : List String := (splitSlashes path.toList).map String.ofList

/-- Whether a place is the working directory or a directory above it. -/
def isRoot (place : List String) : Bool := place.all (· == "..")

/-- The directory that a place is in. -/
def parent (place : List String) : List String :=
  if isRoot place then place ++ [".."] else place.dropLast

/-- The node at a place. The working directory and those above it are there in any case. -/
def nodeAt (t : FileTree) (place : List String) : Option FileNode :=
  if isRoot place then some .directory
  else (t.nodes.find? (fun n => n.1 == place)).map Prod.snd

/-- Puts a node at a place, and directories on the way to it. -/
def put (t : FileTree) (path : String) (node : FileNode) : FileTree :=
  let place := (pathParts path).filter (fun p => p != "" && p != ".")
  let parents := (List.range place.length).map (place.take ·)
  let missing := parents.filter (fun p => (t.nodeAt p).isNone)
  ⟨t.nodes.filter (fun n => n.1 != place) ++ missing.map (·, .directory) ++ [(place, node)]⟩

/-- Follows the parts of a path from a place on. Every part needs a directory to start from. -/
def follow (t : FileTree) : List String → List String → Except ReadFault (List String × FileNode)
  | place, [] =>
    match t.nodeAt place with
    | some node => .ok (place, node)
    | none => .error .notFound
  | place, part :: rest =>
    match t.nodeAt place with
    | none => .error .notFound
    | some (.file _) => .error .notADirectory
    | some (.damaged reason) => .error (.reported reason)
    | some .directory =>
      if part = "" ∨ part = "." then t.follow place rest
      else if part = ".." then t.follow (parent place) rest
      else t.follow (place ++ [part]) rest

/-- The place and the node that a path leads to. -/
def lookup (t : FileTree) (path : String) : Except ReadFault (List String × FileNode) :=
  if path.isEmpty then .error .notFound else t.follow [] (pathParts path)

/-- The text of a file. -/
def readText (t : FileTree) (path : String) : Except ReadFault String := do
  match ← t.lookup path with
  | (_, .directory) => throw .isADirectory
  | (_, .damaged reason) => throw (.reported reason)
  | (_, .file content) =>
    match String.fromUTF8? content with
    | some text => return text
    | none => throw .notText

/-- The entry of a listing that a node is. -/
def entry (name : String) : FileNode → Except ReadFault String
  | .damaged reason => .error (.reported reason)
  | .file _ | .directory => .ok name

/-- The listing of a directory: the names of its entries, or faults in their places. -/
def entries (t : FileTree) (path : String) :
    Except ReadFault (List (Except ReadFault String)) := do
  match ← t.lookup path with
  | (_, .file _) => throw .notADirectory
  | (_, .damaged reason) => throw (.reported reason)
  | (place, .directory) =>
    return t.nodes.filterMap fun (other, node) =>
      match other.getLast? with
      | some name => if other.dropLast = place then some (entry name node) else none
      | none => none

end FileTree

end KeyAccess
