-- Declaring an entity. Declarations are collected in a draft, where a later one overrides an
-- earlier one of its kind; building the schema checks the draft and reports the first fault: in
-- the keys, then in the indexes in their order, then in the names of the attributes.
import KeyAccess.Schema.Error
import KeyAccess.Schema.KeySchema
import KeyAccess.Text.Blank

namespace KeyAccess

/-- One thing that is declared of an entity. -/
inductive Declaration
  | table (name : String)
  | partitionKey (property : String)
  | sortKey (property : String)
  /-- A property is held by an attribute of another name. -/
  | attributeName (property held : String)
  | attributeType (property : String) (type : AttributeType)
  | index (definition : IndexDefinition)
  deriving DecidableEq

/-- What has been declared of an entity so far. -/
structure SchemaDraft where
  entity : String
  tableName : Option String := none
  partition : Option String := none
  sort : Option String := none
  properties : SortedMap PropertyDef := ∅
  indexes : List IndexDefinition := []
  deriving DecidableEq

namespace SchemaDraft

/-- Adds a declaration. -/
def declare (d : SchemaDraft) : Declaration → SchemaDraft
  | .table name => { d with tableName := some name }
  | .partitionKey property => { d with partition := some property }
  | .sortKey property => { d with sort := some property }
  | .attributeName property held =>
    { d with properties := d.properties.update property {} fun p =>
        { p with attributeName := some held } }
  | .attributeType property type =>
    { d with properties := d.properties.update property {} fun p =>
        { p with attributeType := some type } }
  | .index definition => { d with indexes := d.indexes ++ [definition] }

/-- Adds declarations one after the other. -/
def declareAll (d : SchemaDraft) (declarations : List Declaration) : SchemaDraft :=
  declarations.foldl declare d

/-! ## Keys -/

/-- The shape of the primary key. A blank sort key counts as none. -/
def keyShape (d : SchemaDraft) : Except SchemaError KeyShape :=
  match d.partition with
  | none => .error (.missingPartitionKey d.entity)
  | some partition =>
    if Text.allBlank partition then .error (.missingPartitionKey d.entity)
    else match d.sort with
      | none => .ok (.partitionOnly partition)
      | some sort =>
        if Text.allBlank sort then .ok (.partitionOnly partition)
        else if sort = partition then .error (.sortKeyIsPartitionKey d.entity sort)
        else .ok (.partitionAndSort partition sort)

/-! ## Indexes -/

/-- Checks an index after others with the names `seen`. -/
def checkIndex (entity : String) (seen : List String) (i : IndexDefinition) :
    Except SchemaError Unit :=
  if Text.allBlank i.name then .error (.emptyIndexName entity)
  else if i.name ∈ seen then .error (.duplicateIndex entity i.name)
  else if Text.allBlank i.partition then .error (.indexWithoutPartition entity i.name)
  else if i.sort = some i.partition then .error (.indexKeyCollision entity i.name i.partition)
  else .ok ()

/-- Checks the indexes in their order. -/
def checkIndexes (entity : String) : List String → List IndexDefinition → Except SchemaError Unit
  | _, [] => .ok ()
  | seen, i :: rest => do
    checkIndex entity seen i
    checkIndexes entity (i.name :: seen) rest

/-- Enters the members of an index in a membership table. -/
def enterIndex (table : SortedMap (List (String × KeyRole))) (i : IndexDefinition) :
    SortedMap (List (String × KeyRole)) :=
  i.members.foldl (fun table property =>
    table.update property [] (· ++ [(i.name, (i.roleOf property).getD .partition)])) table

/-- The membership table of some indexes. -/
def membershipsOf (indexes : List IndexDefinition) : SortedMap (List (String × KeyRole)) :=
  indexes.foldl enterIndex ∅

/-! ## Attributes -/

/-- The declared properties, each with the attribute that holds it, ascending. -/
def attributeOwners (properties : SortedMap PropertyDef) : List (String × String) :=
  properties.entries.map fun (property, definition) =>
    (property, definition.attributeName.getD property)

/-- The first property that has the attribute of one before it. -/
def checkOwners (entity : String) : List (String × String) → List (String × String) →
    Except SchemaError Unit
  | _, [] => .ok ()
  | seen, (property, held) :: rest =>
    match seen.find? (fun o => o.2 == held) with
    | some first => .error (.attributeNameCollision entity first.1 property held)
    | none => checkOwners entity ((property, held) :: seen) rest

/-- Checks properties of keys that are not declared themselves, and so have an attribute of their
own name: no declared property may have it. -/
def checkKeyNames (entity : String) (properties : SortedMap PropertyDef) :
    List String → Except SchemaError Unit
  | [] => .ok ()
  | property :: rest =>
    match (attributeOwners properties).find? (fun o => o.2 == property) with
    | some owner =>
      if properties.contains property then checkKeyNames entity properties rest
      else .error (.attributeNameCollision entity owner.1 property property)
    | none => checkKeyNames entity properties rest

/-! ## The schema -/

/-- Checks a draft and makes the schema. -/
def build (d : SchemaDraft) : Except SchemaError KeySchema := do
  let shape ← d.keyShape
  checkIndexes d.entity [] d.indexes
  let memberships := membershipsOf d.indexes
  checkOwners d.entity [] (attributeOwners d.properties)
  checkKeyNames d.entity d.properties
    (shape.partition :: shape.sort.toList ++ memberships.keys)
  return {
    entity := d.entity
    tableName := d.tableName.getD d.entity
    shape
    properties := d.properties
    indexes := d.indexes
    memberships }

end SchemaDraft

end KeyAccess
