-- Encoding clause values as attribute values. A declared type decides the form and refuses values
-- that have no such form; without one the form follows from the value.
import KeyAccess.Decimal.Numeral
import KeyAccess.Error
import KeyAccess.Text.Blank
import KeyAccess.Value

namespace KeyAccess

namespace AttributeValue

/-- An integer as a number. -/
def ofInt (i : Int) : AttributeValue := .number (Decimal.intText i)

/-- A finite binary64 number as a number. -/
def ofFloat (x : Decimal.Binary64) : AttributeValue := .number x.text

/-- A truth value as the number 1 or 0. -/
def ofBool (b : Bool) : AttributeValue := .number (if b then "1" else "0")

/-- An instant as its written form. -/
def ofInstant (t : Time.Instant) : AttributeValue := .string t.text

end AttributeValue

/-- Lets a finite number through. -/
def requireFinite (x : Decimal.Binary64) : Except ValueFault Decimal.Binary64 :=
  if x.isFinite then .ok x else .error (.notFinite x)

/-- The number that a text denotes. White space around it is allowed, and a number that is no
64-bit integer is read as a binary64 number. -/
def numberOfText (text : String) : Except ValueFault AttributeValue :=
  let trimmed := Text.trimChars text.toList
  match Decimal.readInt64? trimmed with
  | some i => .ok (.ofInt i.toInt)
  | none =>
    match Decimal.readBinary64? trimmed with
    | some x => if x.isFinite then .ok (.ofFloat x) else .error (.notANumber text)
    | none => .error (.notANumber text)

/-- Encodes a value whose form follows from itself. -/
def inferredValue : ClauseValue → Except ValueFault AttributeValue
  | .string s => .ok (.string s)
  | .integer i => .ok (.ofInt i.toInt)
  | .float x => do return .ofFloat (← requireFinite x)
  | .boolean b => .ok (.ofBool b)
  | .timestamp t => .ok (.ofInstant t)
  | .uuid u => .ok (.string u.text)
  | .list _ => .error .collection
  | .null => .error .null

/-- Encodes a value as a string. -/
def stringValue : ClauseValue → Except ValueFault AttributeValue
  | .string s => .ok (.string s)
  | .uuid u => .ok (.string u.text)
  | .timestamp t => .ok (.ofInstant t)
  | .integer i => .ok (.string (Decimal.intText i.toInt))
  | .float x => do return .string (← requireFinite x).text
  | value => .error (.mismatch value.kind .string)

/-- Encodes a value as a number. -/
def numberValue : ClauseValue → Except ValueFault AttributeValue
  | .integer i => .ok (.ofInt i.toInt)
  | .float x => do return .ofFloat (← requireFinite x)
  | .boolean b => .ok (.ofBool b)
  | .timestamp t => .ok (.ofInt t.millis)
  | .string s => numberOfText s
  | value => .error (.mismatch value.kind .number)

/-- Encodes a value as a truth value. -/
def booleanValue : ClauseValue → Except ValueFault AttributeValue
  | .boolean b => .ok (.ofBool b)
  | .integer i =>
    if i = 0 then .ok (.ofBool false)
    else if i = 1 then .ok (.ofBool true)
    else .error (.mismatch "integer" .boolean)
  | value => .error (.mismatch value.kind .boolean)

/-- Encodes a value as an instant. -/
def temporalValue : ClauseValue → Except ValueFault AttributeValue
  | .timestamp t => .ok (.ofInstant t)
  | .string s =>
    match Time.Timestamp.read s with
    | .ok t => .ok (.ofInstant t)
    | .error e => .error (.notATimestamp s e)
  | value => .error (.mismatch value.kind .temporal)

/-- Encodes a value, with the declared type if there is one. -/
def ClauseValue.encodeAs (value : ClauseValue) (declared : Option AttributeType) :
    Except ValueFault AttributeValue :=
  match declared with
  | none => inferredValue value
  | some .string => stringValue value
  | some .number => numberValue value
  | some .boolean => booleanValue value
  | some .temporal => temporalValue value
  | some .custom => .error .noConverter

end KeyAccess
