-- Entity descriptors: the declaration of an entity as a JSON document, with its query
-- configuration.
import KeyAccess.Json.Reader
import KeyAccess.Schema.Definition
import KeyAccess.Schema.Draft

namespace KeyAccess

open KeyAccess.Json

/-! ## Descriptors -/

/-- What a descriptor says about one property. -/
structure AttributeDescriptor where
  name : Option String := none
  type : Option AttributeType := none
  deriving DecidableEq

/-- The declaration of one entity. -/
structure EntityDescriptor where
  entity : String
  table : Option String := none
  partitionKey : Option String := none
  sortKey : Option String := none
  attributes : SortedMap AttributeDescriptor := ∅
  indexes : List IndexDefinition := []
  query : QueryConfig := {}
  deriving DecidableEq

/-- What a descriptor declares of one property: nothing if it gives neither name nor type. -/
def AttributeDescriptor.declarations (a : AttributeDescriptor) (property : String) :
    List Declaration :=
  (a.name.map (Declaration.attributeName property)).toList ++
    (a.type.map (Declaration.attributeType property)).toList

/-- What a descriptor declares. -/
def EntityDescriptor.declarations (d : EntityDescriptor) : List Declaration :=
  (d.table.map Declaration.table).toList ++
    (d.partitionKey.map Declaration.partitionKey).toList ++
    (d.sortKey.map Declaration.sortKey).toList ++
    d.attributes.entries.flatMap (fun e => e.2.declarations e.1) ++
    d.indexes.map Declaration.index

/-- Checks a descriptor. -/
def EntityDescriptor.toDefinition (d : EntityDescriptor) : Except SchemaError EntityDefinition := do
  let draft : SchemaDraft := { entity := d.entity }
  return ⟨← (draft.declareAll d.declarations).build, d.query⟩

/-! ## Writing -/

/-- The tokens of a text that may be missing. -/
def optionTokens (s : Option String) : List Token :=
  match s with
  | some s => [.text s]
  | none => [.null]

/-- The tokens of a read consistency. -/
def ConsistencyMode.tokens (m : ConsistencyMode) : List Token := [.text m.name]

/-- The tokens of a scan policy. -/
def ScanPolicy.tokens (p : ScanPolicy) : List Token :=
  objectTokens [("enabled", [.boolean p.enabled]), ("count_enabled", [.boolean p.countEnabled])]

/-- The tokens of a query configuration. -/
def QueryConfig.tokens (c : QueryConfig) : List Token :=
  objectTokens [("scan", c.scan.tokens), ("consistency", c.consistency.tokens)]

/-- The tokens of a storage type. -/
def AttributeType.tokens (t : AttributeType) : List Token := [.text t.name]

/-- The tokens of an index. -/
def IndexDefinition.tokens (i : IndexDefinition) : List Token :=
  objectTokens [("name", [.text i.name]), ("partition", [.text i.partition]),
    ("sort", optionTokens i.sort)]

/-- The tokens of what a descriptor says about one property. -/
def AttributeDescriptor.tokens (a : AttributeDescriptor) : List Token :=
  objectTokens [("name", optionTokens a.name),
    ("type", optionTokens (a.type.map AttributeType.name))]

/-- The tokens of a descriptor. -/
def EntityDescriptor.tokens (d : EntityDescriptor) : List Token :=
  objectTokens [
    ("entity", [.text d.entity]),
    ("table", optionTokens d.table),
    ("partition_key", optionTokens d.partitionKey),
    ("sort_key", optionTokens d.sortKey),
    ("attributes",
      objectTokens (d.attributes.entries.map (fun e => (e.1, e.2.tokens)))),
    ("indexes", arrayTokens (d.indexes.map IndexDefinition.tokens)),
    ("query", d.query.tokens)]

/-! ## Reading -/

/-- Reads a read consistency. -/
def ConsistencyMode.read : Reader ConsistencyMode := readName ConsistencyMode.named

/-- The JSON form of scan policies. -/
def ScanPolicy.form : RecordForm ScanPolicy where
  name := "ScanPolicy"
  blank := {}
  fields := [
    .of "enabled" false readBoolean fun p b => { p with enabled := b },
    .of "count_enabled" false readBoolean fun p b => { p with countEnabled := b }]
  closed := false

/-- Reads a scan policy. -/
def ScanPolicy.read : Reader ScanPolicy := ScanPolicy.form.read

/-- The JSON form of query configurations. -/
def QueryConfig.form : RecordForm QueryConfig where
  name := "QueryConfig"
  blank := {}
  fields := [
    .of "scan" false ScanPolicy.read fun c p => { c with scan := p },
    .of "consistency" false ConsistencyMode.read fun c m => { c with consistency := m }]
  closed := true

/-- Reads a query configuration. -/
def QueryConfig.read : Reader QueryConfig := QueryConfig.form.read

/-- Reads a storage type. -/
def AttributeType.read : Reader AttributeType := readName AttributeType.named

/-- The JSON form of indexes. -/
def IndexDefinition.form : RecordForm IndexDefinition where
  name := "IndexDefinition"
  blank := ⟨"", "", none⟩
  fields := [
    .of "name" true readString fun i s => { i with name := s },
    .of "partition" true readString fun i s => { i with partition := s },
    .of "sort" false (readOption readString) fun i s => { i with sort := s }]
  closed := false

/-- Reads an index. -/
def IndexDefinition.read : Reader IndexDefinition := IndexDefinition.form.read

/-- The JSON form of what a descriptor says about one property. -/
def AttributeDescriptor.form : RecordForm AttributeDescriptor where
  name := "AttributeDescriptor"
  blank := {}
  fields := [
    .of "name" false (readOption readString) fun a s => { a with name := s },
    .of "type" false (readOption AttributeType.read) fun a t => { a with type := t }]
  closed := true

/-- Reads what a descriptor says about one property. -/
def AttributeDescriptor.read : Reader AttributeDescriptor := AttributeDescriptor.form.read

/-- The JSON form of descriptors. -/
def EntityDescriptor.form : RecordForm EntityDescriptor where
  name := "EntityDescriptor"
  blank := { entity := "" }
  fields := [
    .of "entity" true readString fun d s => { d with entity := s },
    .of "table" false (readOption readString) fun d s => { d with table := s },
    .of "partition_key" false (readOption readString) fun d s => { d with partitionKey := s },
    .of "sort_key" false (readOption readString) fun d s => { d with sortKey := s },
    .of "attributes" false (readMap AttributeDescriptor.read) fun d m => { d with attributes := m },
    .of "indexes" false (readList IndexDefinition.read) fun d is => { d with indexes := is },
    .of "query" false QueryConfig.read fun d c => { d with query := c }]
  closed := true

/-- Reads a descriptor. -/
def EntityDescriptor.read : Reader EntityDescriptor := EntityDescriptor.form.read

end KeyAccess
