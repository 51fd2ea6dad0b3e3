-- Typed reading of JSON tokens. A reader takes the tokens of one value off the front, or says
-- what is wrong with the first token at which it is clear that the value is not of the type.
import KeyAccess.Json.Number
import KeyAccess.SortedMap
import KeyAccess.Text.Quoted

namespace KeyAccess.Json

open KeyAccess.Decimal

/-! ## Faults -/

/-- What stands where something else was expected. -/
inductive Found
  | null
  | boolean (value : Bool)
  | number (value : Number)
  | string (text : String)
  | array
  | object
  | bareVariant
  deriving DecidableEq

/-- The wording of what stands there. -/
def Found.message : Found → String
  | null => "null"
  | boolean b => "boolean `" ++ (if b then "true" else "false") ++ "`"
  | number (.integer i) => "integer `" ++ intText i ++ "`"
  | number (.float x) => "floating point `" ++ String.ofList (scientific x) ++ "`"
  | string s => "string " ++ Text.quoted s
  | array => "sequence"
  | object => "map"
  | bareVariant => "unit variant"

/-- Why a text is not the JSON form of a value. -/
inductive ReadError
  /-- The text is no JSON, or not in a shape that any value of the type has. -/
  | malformed
  | missingField (name : String)
  | duplicateField (name : String)
  | unknownField (name : String) (known : List String)
  | unknownVariant (name : String) (known : List String)
  | invalidType (found : Found) (expected : String)
  | invalidLength (length : Nat) (expected : String)
  deriving DecidableEq

/-- A name in backticks. -/
def ticked (name : String) : String := "`" ++ name ++ "`"

/-- The wording of a choice between names. -/
def oneOf : List String → String
  | [a] => ticked a
  | [a, b] => ticked a ++ " or " ++ ticked b
  | names => "one of " ++ String.intercalate ", " (names.map ticked)

/-- The wording of the error. -/
def ReadError.message : ReadError → String
  | malformed => "<syntax>"
  | missingField name => "missing field " ++ ticked name
  | duplicateField name => "duplicate field " ++ ticked name
  | unknownField name known => "unknown field " ++ ticked name ++ ", expected " ++ oneOf known
  | unknownVariant name known =>
    "unknown variant " ++ ticked name ++ ", expected " ++ oneOf known
  | invalidType found expected =>
    "invalid type: " ++ found.message ++ ", expected " ++ expected
  | invalidLength length expected =>
    "invalid length " ++ toString length ++ ", expected " ++ expected

/-- What a token that starts a value shows to be there; none for a token that starts no value, for
a number that is too large and for a string that is not well-formed. -/
def Token.found? : Token → Option Found
  | .null => some .null
  | .boolean b => some (.boolean b)
  | .number n => n.value?.map .number
  | .string s => s.map .string
  | .openArray => some .array
  | .openObject => some .object
  | _ => none

/-- The fault of a token where something else was expected. -/
def mismatch (expected : String) (token : Token) : ReadError :=
  match token.found? with
  | some found => .invalidType found expected
  | none => .malformed

/-! ## Single values -/

/-- Reads a value off the front of some tokens; the tokens after it. -/
abbrev Reader (α : Type) := List Token → Except ReadError (α × List Token)

/-- Reads a string. -/
def readString : Reader String
  | .string (some s) :: rest => .ok (s, rest)
  | token :: _ => .error (mismatch "a string" token)
  | [] => .error .malformed

/-- Reads a truth value. -/
def readBoolean : Reader Bool
  | .boolean b :: rest => .ok (b, rest)
  | token :: _ => .error (mismatch "a boolean" token)
  | [] => .error .malformed

/-- Reads the value null. -/
def readNull : Reader Unit
  | .null :: rest => .ok ((), rest)
  | token :: _ => .error (mismatch "unit" token)
  | [] => .error .malformed

/-- Reads null as the absence of a value. -/
def readOption {α : Type} (read : Reader α) : Reader (Option α)
  | .null :: rest => .ok (none, rest)
  | tokens => do
    let (x, rest) ← read tokens
    return (some x, rest)

/-- Takes one token that has to stand there. -/
def expect (token : Token) : List Token → Except ReadError (List Token)
  | t :: rest => if t = token then .ok rest else .error .malformed
  | [] => .error .malformed

/-! ## Values that are not looked at -/

/-- What an array or an object that is being skipped waits for. -/
inductive Waiting
  | firstItem
  | item
  | afterItem
  | firstKey
  | key
  | colon
  | member
  | afterMember
  deriving DecidableEq

/-- What waits once a token has started a value: nothing if the token is the whole value. -/
def opened : Token → Option (List Waiting)
  | .null | .boolean _ | .number _ | .string _ => some []
  | .openArray => some [.firstItem]
  | .openObject => some [.firstKey]
  | _ => none

/-- What waits in place of something once the next token has been taken; none at a fault. -/
def advance : Waiting → Token → Option (List Waiting)
  | .firstItem, .closeArray => some []
  | .firstItem, token | .item, token => (opened token).map (· ++ [.afterItem])
  | .afterItem, .comma => some [.item]
  | .afterItem, .closeArray => some []
  | .firstKey, .closeObject => some []
  | .firstKey, .string _ | .key, .string _ => some [.colon]
  | .colon, .colon => some [.member]
  | .member, token => (opened token).map (· ++ [.afterMember])
  | .afterMember, .comma => some [.key]
  | .afterMember, .closeObject => some []
  | _, _ => none

/-- Skips tokens until nothing waits any more; the innermost array or object comes first. -/
def skipWaiting : List Waiting → List Token → Option (List Token)
  | [], tokens => some tokens
  | _ :: _, [] => none
  | waiting :: outer, token :: rest =>
    match advance waiting token with
    | some inner => skipWaiting (inner ++ outer) rest
    | none => none

/-- Skips one value. -/
def skipValue : List Token → Except ReadError (List Token)
  | [] => .error .malformed
  | token :: rest =>
    match (opened token).bind (skipWaiting · rest) with
    | some rest => .ok rest
    | none => .error .malformed

/-! ## Arrays -/

/-- Whether another element follows, and the tokens from there on, or those after the array. -/
def nextElement (first : Bool) : List Token → Except ReadError (Bool × List Token)
  | .closeArray :: rest => .ok (false, rest)
  | token :: rest =>
    if first then .ok (true, token :: rest)
    else match token, rest with
      | .comma, .closeArray :: _ => .error .malformed
      | .comma, next :: rest => .ok (true, next :: rest)
      | _, _ => .error .malformed
  | [] => .error .malformed

/-- Reads the elements of an array that has been opened, at most `fuel` of them. -/
def readElements {α : Type} (read : Reader α) : Nat → Bool → Reader (List α)
  | 0, _, _ => .error .malformed
  | fuel + 1, first, tokens => do
    let (more, tokens) ← nextElement first tokens
    if more then
      let (x, tokens) ← read tokens
      let (xs, tokens) ← readElements read fuel false tokens
      return (x :: xs, tokens)
    else return ([], tokens)

/-- Reads an array. -/
def readList {α : Type} (read : Reader α) : Reader (List α)
  | .openArray :: rest => readElements read (rest.length + 1) true rest
  | token :: _ => .error (mismatch "a sequence" token)
  | [] => .error .malformed

/-! ## Objects -/

/-- The next key and the tokens after it, or the tokens after the object. -/
def nextKey (first : Bool) : List Token → Except ReadError (Option String × List Token)
  | .closeObject :: rest => .ok (none, rest)
  | .comma :: .string (some key) :: rest =>
    if first then .error .malformed else .ok (some key, rest)
  | .string (some key) :: rest => if first then .ok (some key, rest) else .error .malformed
  | _ => .error .malformed

/-- Reads the members of an object that has been opened into a map, at most `fuel` of them. -/
def readMembers {α : Type} (read : Reader α) : Nat → Bool → SortedMap α → Reader (SortedMap α)
  | 0, _, _, _ => .error .malformed
  | fuel + 1, first, map, tokens => do
    let (key?, tokens) ← nextKey first tokens
    match key? with
    | none => return (map, tokens)
    | some key =>
      let tokens ← expect .colon tokens
      let (x, tokens) ← read tokens
      readMembers read fuel false (map.insert key x) tokens

/-- Reads an object as a map; of two members with one key the later one stays. -/
def readMap {α : Type} (read : Reader α) : Reader (SortedMap α)
  | .openObject :: rest => readMembers read (rest.length + 1) true ∅ rest
  | token :: _ => .error (mismatch "a map" token)
  | [] => .error .malformed

/-! ## Records -/

/-- A field of a record: how its value is read and put into the record. -/
structure Field (ρ : Type) where
  name : String
  required : Bool
  read : ρ → Reader ρ

/-- A field that a reader reads. -/
def Field.of {ρ α : Type} (name : String) (required : Bool) (read : Reader α)
    (put : ρ → α → ρ) : Field ρ :=
  ⟨name, required, fun r tokens => do
    let (x, rest) ← read tokens
    return (put r x, rest)⟩

/-- The JSON form of a record: an object of its fields in any order, or an array of them in the
order of the declaration. A field that is not required keeps its value in `blank`. -/
structure RecordForm (ρ : Type) where
  name : String
  blank : ρ
  fields : List (Field ρ)
  /-- Whether members other than the fields are refused. Else they are skipped. -/
  closed : Bool

variable {ρ : Type}

/-- What a reader of the record expects. -/
def RecordForm.expected (form : RecordForm ρ) : String := "struct " ++ form.name

/-- What a reader of the record expects an array to be. -/
def RecordForm.expectedElements (form : RecordForm ρ) : String :=
  form.expected ++ " with " ++ toString form.fields.length ++
    (if form.fields.length = 1 then " element" else " elements")

/-- The place of the first required field, counted on from `index`. -/
def firstRequired (index : Nat) : List (Field ρ) → Option Nat
  | [] => none
  | f :: rest => if f.required then some index else firstRequired (index + 1) rest

/-- Reads the remaining fields of a record from an array. -/
def RecordForm.readArray (form : RecordForm ρ) (index : Nat) : List (Field ρ) → ρ → Reader ρ
  | [], record, tokens => do
    let rest ← expect .closeArray tokens
    return (record, rest)
  | f :: fields, record, tokens => do
    let (more, tokens) ← nextElement (index = 0) tokens
    if more then
      let (record, tokens) ← f.read record tokens
      form.readArray (index + 1) fields record tokens
    else match firstRequired index (f :: fields) with
      | some missing => throw (.invalidLength missing form.expectedElements)
      | none => return (record, tokens)

/-- Reads the members of a record's object, at most `fuel` of them. `filled` names the fields that
have been read. -/
def RecordForm.readObject (form : RecordForm ρ) :
    Nat → Bool → List String → ρ → Reader ρ
  | 0, _, _, _, _ => .error .malformed
  | fuel + 1, first, filled, record, tokens => do
    let (key?, tokens) ← nextKey first tokens
    match key? with
    | none =>
      match form.fields.find? (fun f => f.required && !filled.contains f.name) with
      | some f => throw (.missingField f.name)
      | none => return (record, tokens)
    | some key =>
      match form.fields.find? (fun f => f.name == key) with
      | some f =>
        if filled.contains key then throw (.duplicateField key)
        let tokens ← expect .colon tokens
        let (record, tokens) ← f.read record tokens
        form.readObject fuel false (key :: filled) record tokens
      | none =>
        if form.closed then throw (.unknownField key (form.fields.map Field.name))
        let tokens ← expect .colon tokens
        let tokens ← skipValue tokens
        form.readObject fuel false filled record tokens

/-- Reads a record. -/
def RecordForm.read (form : RecordForm ρ) : Reader ρ
  | .openObject :: rest => form.readObject (rest.length + 1) true [] form.blank rest
  | .openArray :: rest => form.readArray 0 form.fields form.blank rest
  | token :: _ => .error (mismatch form.expected token)
  | [] => .error .malformed

/-! ## Choices -/

/-- The case with a name. -/
def pickCase {α : Type} (cases : List (String × α)) (name : String) : Except ReadError α :=
  match cases.find? (fun c => c.1 == name) with
  | some c => .ok c.2
  | none => .error (.unknownVariant name (cases.map Prod.fst))

/-- Reads an object with one member, whose key chooses how its value is read. A key that is no
string makes the text malformed, whatever else it is. -/
def readTagged {α β : Type} (cases : List (String × α)) (read : α → Reader β) : Reader β
  | .string (some key) :: rest => do
    let choice ← pickCase cases key
    let rest ← expect .colon rest
    let (x, rest) ← read choice rest
    let rest ← expect .closeObject rest
    return (x, rest)
  | _ => .error .malformed

/-- Reads a choice without content: its name, or an object that binds its name to null. -/
def readName {α : Type} (cases : List (String × α)) : Reader α
  | .string (some name) :: rest => do
    let choice ← pickCase cases name
    return (choice, rest)
  | .openObject :: rest =>
    readTagged cases (fun choice tokens => do
      let ((), rest) ← readNull tokens
      return (choice, rest)) rest
  | _ => .error .malformed

/-- Reads a choice with content: an object that binds its name to the content. -/
def readVariant {α : Type} (cases : List (String × Reader α)) : Reader α
  | .string (some name) :: _ => do
    let _ ← pickCase cases name
    throw (.invalidType .bareVariant "newtype variant")
  | .openObject :: rest => readTagged cases (fun read => read) rest
  | _ => .error .malformed

/-! ## Whole texts -/

/-- Reads a value that takes a whole text. -/
def decode {α : Type} (read : Reader α) (text : String) : Except ReadError α := do
  let (x, rest) ← read (tokens text)
  if rest.isEmpty then return x else throw .malformed

end KeyAccess.Json
