-- The registry of entities. A definition is registered once and never replaced. Documents are
-- loaded from texts, from files, and from all the JSON files of a directory in the order of their
-- names.
import KeyAccess.Document.Entity
import KeyAccess.Event
import KeyAccess.FileTree

namespace KeyAccess

/-- The registered definitions, by entity. -/
structure Registry where
  definitions : SortedMap EntityDefinition := ∅
  deriving DecidableEq

/-- A load: the registry after it, the events on the way and the outcome. -/
structure Load (β : Type) where
  registry : Registry
  events : List EventRecord
  outcome : Except SchemaError β

namespace Registry

/-- The definition of an entity. -/
def get? (r : Registry) (entity : String) : Option EntityDefinition := r.definitions.get? entity

/-- The schema of an entity. -/
def schema? (r : Registry) (entity : String) : Option KeySchema :=
  (r.get? entity).map EntityDefinition.schema

/-- The registered entities, ascending. -/
def entities (r : Registry) : List String := r.definitions.keys

/-- How many entities are registered. -/
def size (r : Registry) : Nat := r.definitions.size

/-- Whether no entity is registered. -/
def isEmpty (r : Registry) : Bool := r.definitions.isEmpty

/-- Registers a definition of an entity that has none. -/
def register (r : Registry) (d : EntityDefinition) : Except SchemaError Registry :=
  if r.definitions.contains d.schema.entity then .error (.duplicateEntity d.schema.entity)
  else .ok ⟨r.definitions.insert d.schema.entity d⟩

/-- The definition that a text holds. -/
def definitionOf (source text : String) : Except SchemaError EntityDefinition :=
  match Json.decode EntityDescriptor.read text with
  | .ok descriptor => descriptor.toDefinition
  | .error e => .error (.malformed source ("Invalid JSON: " ++ e.message))

/-- Registers the definition that a text holds; the name of its entity. -/
def loadText (r : Registry) (source text : String) : Load String :=
  match definitionOf source text with
  | .error e => ⟨r, [], .error e⟩
  | .ok d =>
    match r.register d with
    | .error e => ⟨r, [], .error e⟩
    | .ok after =>
      ⟨after, [⟨.schemaLoaded, [("entity", d.schema.entity), ("source", source)]⟩],
        .ok d.schema.entity⟩

/-- Registers the definition that a file holds; the name of its entity. -/
def loadFile (r : Registry) (tree : FileTree) (path : String) : Load String :=
  match tree.readText path with
  | .ok text => r.loadText path text
  | .error fault => ⟨r, [], .error (.malformed path ("Failed to read file: " ++ fault.message))⟩

/-- Whether a file name ends in a point and `json`, with something before the point. -/
def isJsonName (name : String) : Bool :=
  match name.toList.reverse with
  | 'n' :: 'o' :: 's' :: 'j' :: '.' :: _ :: _ => true
  | _ => false

/-- The path of an entry of a directory. -/
def entryPath (directory name : String) : String :=
  if directory.toList.getLast? = some '/' then directory ++ name else directory ++ "/" ++ name

/-- Loads files one after the other, up to the first that fails. What was loaded before it stays. -/
def loadFiles (r : Registry) (tree : FileTree) : List String → Load Unit
  | [] => ⟨r, [], .ok ()⟩
  | path :: rest =>
    let first := r.loadFile tree path
    match first.outcome with
    | .error e => ⟨first.registry, first.events, .error e⟩
    | .ok _ =>
      let others := first.registry.loadFiles tree rest
      ⟨others.registry, first.events ++ others.events, others.outcome⟩

/-- Loads all the JSON files of a directory in the order of their names; how many they are. The
whole listing is read before the first file. -/
def loadDirectory (r : Registry) (tree : FileTree) (path : String) : Load Nat :=
  match tree.entries path with
  | .error fault =>
    ⟨r, [], .error (.malformed path ("Failed to read schema directory: " ++ fault.message))⟩
  | .ok entries =>
    match entries.mapM id with
    | .error fault =>
      ⟨r, [], .error (.malformed path ("Failed to read directory entry: " ++ fault.message))⟩
    | .ok names =>
      let paths := (sortedDistinct (names.filter isJsonName)).map (entryPath path)
      let load := r.loadFiles tree paths
      ⟨load.registry, load.events, load.outcome.map fun _ => paths.length⟩

end Registry

end KeyAccess
