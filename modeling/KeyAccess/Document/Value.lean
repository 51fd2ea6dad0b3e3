-- The JSON forms of attribute values, conditions and requests. Members stand in a fixed order,
-- and one that is not there is left out.
import KeyAccess.Comparison
import KeyAccess.Json.Reader
import KeyAccess.Request

namespace KeyAccess

open KeyAccess.Json

/-! ## Values and conditions -/

namespace AttributeValue

/-- The tokens of a value: an object that binds its kind to its content. -/
def tokens : AttributeValue → List Token
  | string s => objectTokens [("S", [.text s])]
  | number n => objectTokens [("N", [.text n])]
  | boolean b => objectTokens [("BOOL", [.boolean b])]

/-- Reads a value. -/
def read : Reader AttributeValue :=
  readVariant [
    ("S", fun tokens => do
      let (s, rest) ← readString tokens
      return (string s, rest)),
    ("N", fun tokens => do
      let (n, rest) ← readString tokens
      return (number n, rest)),
    ("BOOL", fun tokens => do
      let (b, rest) ← readBoolean tokens
      return (boolean b, rest))]

end AttributeValue

namespace ComparisonOperator

/-- The tokens of an operator. -/
def tokens (o : ComparisonOperator) : List Token := [.text o.name]

/-- Reads an operator. -/
def read : Reader ComparisonOperator := readName named

end ComparisonOperator

namespace Condition

/-- The tokens of a condition. -/
def tokens (c : Condition) : List Token :=
  objectTokens (
    ("ComparisonOperator", c.operator.tokens) ::
    if c.values.isEmpty then []
    else [("AttributeValueList", arrayTokens (c.values.map AttributeValue.tokens))])

/-- The JSON form of conditions. -/
def form : RecordForm Condition where
  name := "Condition"
  blank := ⟨.eq, []⟩
  fields := [
    .of "ComparisonOperator" true ComparisonOperator.read fun c o => { c with operator := o },
    .of "AttributeValueList" false (readList AttributeValue.read) fun c vs =>
      { c with values := vs }]
  closed := false

/-- Reads a condition. -/
def read : Reader Condition := form.read

end Condition

/-! ## Requests -/

/-- A member for a value that is there. -/
def optionalMember {α : Type} (name : String) (value : Option α) (tokens : α → List Token) :
    List (String × List Token) :=
  (value.map (fun x => (name, tokens x))).toList

/-- The tokens of a map. -/
def mapTokens {α : Type} (map : SortedMap α) (tokens : α → List Token) : List Token :=
  objectTokens (map.entries.map (fun e => (e.1, tokens e.2)))

/-- A member for a map that is not empty. -/
def mapMember {α : Type} (name : String) (map : SortedMap α) (tokens : α → List Token) :
    List (String × List Token) :=
  if map.isEmpty then [] else [(name, mapTokens map tokens)]

/-- The tokens of a text. -/
def textTokens (s : String) : List Token := [.text s]

/-- The tokens of a limit. -/
def limitTokens (limit : UInt32) : List Token := [.natural limit.toNat]

/-- The tokens of a flag. -/
def flagTokens (flag : Bool) : List Token := [.boolean flag]

/-- The tokens of a load. -/
def LoadRequest.tokens (r : LoadRequest) : List Token :=
  objectTokens (
    ("PartitionValue", r.partitionValue.tokens) ::
    optionalMember "SortValue" r.sortValue AttributeValue.tokens ++
    optionalMember "ConsistentRead" r.consistentRead flagTokens ++
    optionalMember "ProjectionExpression" r.projectionExpression textTokens)

/-- The tokens of a query. -/
def QueryRequest.tokens (r : QueryRequest) : List Token :=
  objectTokens (
    optionalMember "TableName" r.tableName textTokens ++
    optionalMember "IndexName" r.indexName textTokens ++
    ("KeyConditionExpression", textTokens r.keyConditionExpression) ::
    optionalMember "FilterExpression" r.filterExpression textTokens ++
    ("ExpressionAttributeNames", mapTokens r.attributeNames textTokens) ::
    ("ExpressionAttributeValues", mapTokens r.attributeValues AttributeValue.tokens) ::
    ("ScanIndexForward", flagTokens r.scanIndexForward) ::
    optionalMember "Limit" r.limit limitTokens ++
    optionalMember "ConsistentRead" r.consistentRead flagTokens ++
    optionalMember "ProjectionExpression" r.projectionExpression textTokens ++
    [("Select", textTokens r.select.name)])

/-- The tokens of a scan. -/
def ScanRequest.tokens (r : ScanRequest) : List Token :=
  objectTokens (
    optionalMember "FilterExpression" r.filterExpression textTokens ++
    mapMember "ExpressionAttributeNames" r.attributeNames textTokens ++
    mapMember "ExpressionAttributeValues" r.attributeValues AttributeValue.tokens ++
    optionalMember "Limit" r.limit limitTokens ++
    optionalMember "ConsistentRead" r.consistentRead flagTokens ++
    optionalMember "ProjectionExpression" r.projectionExpression textTokens ++
    [("Select", textTokens r.select.name)])

/-- The tokens of any request: an object that binds its kind to its content. -/
def StoreRequest.tokens : StoreRequest → List Token
  | load r => objectTokens [("Load", r.tokens)]
  | query r => objectTokens [("Query", r.tokens)]
  | scan r => objectTokens [("Scan", r.tokens)]

end KeyAccess
