-- Values. A clause value is what a caller compares with; an attribute value is its encoding, in
-- the form in which a store keeps it.
import KeyAccess.Decimal.Binary64
import KeyAccess.Text.Quoted
import KeyAccess.Time.Instant

namespace KeyAccess

/-- A value as a store keeps it. -/
inductive AttributeValue
  | string (text : String)
  /-- A number, kept as its decimal text. -/
  | number (text : String)
  /-- A native truth value. Only converters make one. -/
  | boolean (value : Bool)
  deriving DecidableEq

/-- The name of a truth value. -/
def booleanText (b : Bool) : String := if b then "true" else "false"

/-- The written form of an attribute value, for people. -/
def AttributeValue.text : AttributeValue → String
  | string s => "\x7bS: " ++ Text.quoted s ++ "\x7d"
  | number n => "\x7bN: " ++ n ++ "\x7d"
  | boolean b => "\x7bBOOL: " ++ booleanText b ++ "\x7d"

/-- A universally unique identifier of 128 bits. -/
structure Uuid where
  bits : BitVec 128
  deriving DecidableEq

/-- The last `width` hexadecimal digits of a number. -/
def hexDigits : Nat → Nat → List Char
  | 0, _ => []
  | width + 1, n => hexDigits width (n / 16) ++ [Nat.digitChar (n % 16)]

/-- The written form of an identifier: five groups of hexadecimal digits. -/
def Uuid.text (u : Uuid) : String :=
  let digits := hexDigits 32 u.bits.toNat
  String.ofList (digits.take 8 ++ '-' :: (digits.drop 8).take 4 ++ '-' :: (digits.drop 12).take 4 ++
    '-' :: (digits.drop 16).take 4 ++ '-' :: digits.drop 20)

/-- A value that a clause compares with. -/
inductive ClauseValue
  | string (text : String)
  | integer (value : Int64)
  | float (value : Decimal.Binary64)
  | boolean (value : Bool)
  | timestamp (value : Time.Instant)
  | uuid (value : Uuid)
  | list (items : List ClauseValue)
  | null

/-- The kind of a clause value, as messages name it. -/
def ClauseValue.kind : ClauseValue → String
  | string _ => "string"
  | integer _ => "integer"
  | float _ => "float"
  | boolean _ => "boolean"
  | timestamp _ => "timestamp"
  | uuid _ => "uuid"
  | list _ => "list"
  | null => "null"

end KeyAccess
