-- What can go wrong with a query: the causes, their stable codes, how severe they are and how
-- they are worded.
import KeyAccess.Clause
import KeyAccess.Comparison
import KeyAccess.Decimal.Plain
import KeyAccess.Schema.Error
import KeyAccess.Time.Timestamp

namespace KeyAccess

/-! ## Causes -/

/-- Why a value cannot be encoded, or a clause has values that make no condition. -/
inductive ValueFault
  | notFinite (value : Decimal.Binary64)
  | notANumber (text : String)
  | notATimestamp (text : String) (error : Time.TimestampError)
  | noConverter
  | collection
  | null
  /-- A value of this kind cannot be stored with this type. -/
  | mismatch (kind : String) (type : AttributeType)
  | arity (operator : Operator) (count : Nat)
  | notSingleComparison (operator : ComparisonOperator)
  | emptyMembership
  | notSingleElement (operator : ComparisonOperator) (count : Nat)
  /-- The words of a converter or of a caller. -/
  | stated (reason : String)
  deriving DecidableEq

/-- Why a query cannot be served. -/
inductive OperationFault
  | severalSorts (count : Nat)
  | sortNotBy (property : String)
  | indexWithoutSort (index property : String)
  | indexFullyPinned (index : String)
  | sortedScan (property : String)
  | scanDisabled (entity : String)
  | scanCountDisabled (entity : String)
  | secondPartitionEquality (property : String)
  | disjunction
  | notSingleValued (operator : Operator)
  | emptyPageSize
  /-- The words of a caller. -/
  | stated (reason : String)
  deriving DecidableEq

/-- What is wrong with a raw filter. -/
inductive FilterFault
  | alreadySet
  | blank
  | reserved (placeholder : String)
  | unbound (placeholder : String)
  | wrongSigil (placeholder : String) (sigil : Char)
  | unused (placeholder : String)
  /-- The words of a caller. -/
  | stated (reason : String)
  deriving DecidableEq

/-- A failure that a store reports. -/
structure StoreError where
  message : String
  /-- The text of the failure beneath it. -/
  source : Option String := none
  deriving DecidableEq

/-- Everything that can go wrong while a query is derived, run or shaped. -/
inductive QueryError
  | schema (error : SchemaError)
  /-- Two or more indexes have exactly the queried properties as members. -/
  | ambiguousIndex (indexes properties : List String)
  | unsupportedOperation (fault : OperationFault)
  | unsupportedValue (property : String) (fault : ValueFault)
  | invalidFilter (fault : FilterFault)
  | incorrectResultSize (expected actual : Nat)
  | emptyResult (expected : Nat)
  | store (error : StoreError)
  deriving DecidableEq

/-! ## Codes -/

/-- How severe an error is. -/
inductive Severity
  /-- The query has to be changed. -/
  | reject
  /-- The store failed on a valid request. -/
  | error
  /-- The declaration of the entity has to be changed. -/
  | fatal
  deriving DecidableEq

/-- The name of a severity. -/
def Severity.name : Severity → String
  | reject => "REJECT"
  | error => "ERROR"
  | fatal => "FATAL"

/-- Stable codes for programs. -/
inductive ErrorCode
  | schemaInvalid
  | ambiguousIndex
  | unsupportedOperation
  | unsupportedValue
  | invalidFilterExpression
  | incorrectResultSize
  | emptyResult
  | storeFailed
  deriving DecidableEq

namespace ErrorCode

/-- The codes in their order. -/
def all : List ErrorCode :=
  [schemaInvalid, ambiguousIndex, unsupportedOperation, unsupportedValue, invalidFilterExpression,
    incorrectResultSize, emptyResult, storeFailed]

/-- The name of a code. -/
def name : ErrorCode → String
  | schemaInvalid => "KQ_SCHEMA_INVALID"
  | ambiguousIndex => "KQ_AMBIGUOUS_INDEX"
  | unsupportedOperation => "KQ_UNSUPPORTED_OPERATION"
  | unsupportedValue => "KQ_UNSUPPORTED_VALUE"
  | invalidFilterExpression => "KQ_INVALID_FILTER_EXPRESSION"
  | incorrectResultSize => "KQ_INCORRECT_RESULT_SIZE"
  | emptyResult => "KQ_EMPTY_RESULT"
  | storeFailed => "KQ_STORE_FAILED"

/-- How severe errors with the code are. -/
def severity : ErrorCode → Severity
  | schemaInvalid | ambiguousIndex => .fatal
  | storeFailed => .error
  | unsupportedOperation | unsupportedValue | invalidFilterExpression | incorrectResultSize
  | emptyResult => .reject

end ErrorCode

namespace QueryError

/-- The code of an error. -/
def code : QueryError → ErrorCode
  | schema _ => .schemaInvalid
  | ambiguousIndex _ _ => .ambiguousIndex
  | unsupportedOperation _ => .unsupportedOperation
  | unsupportedValue _ _ => .unsupportedValue
  | invalidFilter _ => .invalidFilterExpression
  | incorrectResultSize _ _ => .incorrectResultSize
  | emptyResult _ => .emptyResult
  | store _ => .storeFailed

/-- How severe an error is. -/
def severity (e : QueryError) : Severity := e.code.severity

end QueryError

/-! ## Wording -/

/-- The wording of the cause. -/
def ValueFault.message : ValueFault → String
  | notFinite x => s!"{x.text} is not a finite number"
  | notANumber text => s!"'{text}' is not a number"
  | notATimestamp text error => s!"'{text}' is not an ISO-8601 timestamp: {error.message}"
  | noConverter => "custom attribute type has no registered converter"
  | collection => "a collection cannot be compared as a single value"
  | null => "null cannot be compared; use a null check"
  | mismatch kind type => s!"a {kind} value cannot be stored as {type.name}"
  | arity operator count => s!"{operator.name} does not accept {count} value(s)"
  | notSingleComparison operator => s!"{operator.name} does not take a single value"
  | emptyMembership => "IN requires at least one value"
  | notSingleElement operator count =>
    s!"{operator.name} takes a single element, got a collection of {count}"
  | stated reason => reason

/-- The wording of the cause. -/
def OperationFault.message : OperationFault → String
  | severalSorts count =>
    s!"sorting by more than one property is not supported ({count} requested)"
  | sortNotBy property => s!"sorting only possible by [{property}] for the criteria specified"
  | indexWithoutSort index property =>
    s!"index '{index}' has no sort key; sorting by '{property}' is not possible"
  | indexFullyPinned index =>
    s!"sorting for index '{index}' with equality criteria on both partition and sort " ++
      "attributes is not possible"
  | sortedScan property =>
    s!"sorting by '{property}' is not possible: the criteria require a scan"
  | scanDisabled entity =>
    s!"scanning is not enabled for entity '{entity}' and the criteria cannot be served by a " ++
      "key condition"
  | scanCountDisabled entity =>
    s!"counting '{entity}' for a page requires a scan and scan counting is not enabled"
  | secondPartitionEquality property =>
    s!"partition key '{property}' already has an equality condition"
  | disjunction => "OR queries are not supported"
  | notSingleValued operator => s!"{operator.name} is not a single-value comparison"
  | emptyPageSize => "page size must be at least 1"
  | stated reason => reason

/-- The wording of the cause. -/
def FilterFault.message : FilterFault → String
  | alreadySet => "a filter expression is already set"
  | blank => "filter expression is empty"
  | reserved placeholder => s!"placeholder '{placeholder}' uses a reserved prefix"
  | unbound placeholder => s!"placeholder '{placeholder}' is not bound"
  | wrongSigil placeholder sigil => s!"placeholder '{placeholder}' must start with '{sigil}'"
  | unused placeholder => s!"placeholder '{placeholder}' is bound but not used"
  | stated reason => reason

/-- The wording of the failure. -/
def StoreError.text (e : StoreError) : String := s!"store operation failed: {e.message}"

namespace QueryError

/-- The wording of an error. -/
def message : QueryError → String
  | schema error => error.message
  | ambiguousIndex indexes properties =>
    "indexes " ++ Text.quotedList indexes ++ " are all declared on exactly the attributes " ++
      Text.quotedList properties
  | unsupportedOperation fault => s!"unsupported operation: {fault.message}"
  | unsupportedValue property fault => s!"unsupported value for '{property}': {fault.message}"
  | invalidFilter fault => s!"invalid filter expression: {fault.message}"
  | incorrectResultSize expected actual =>
    s!"incorrect result size: expected {expected}, actual {actual}"
  | emptyResult expected => s!"empty result: expected {expected} item(s), found none"
  | store error => error.text

/-- The text of the failure beneath an error. -/
def source : QueryError → Option String
  | store error => error.source
  | schema _ | ambiguousIndex _ _ | unsupportedOperation _ | unsupportedValue _ _
  | invalidFilter _ | incorrectResultSize _ _ | emptyResult _ => none

end QueryError

end KeyAccess
