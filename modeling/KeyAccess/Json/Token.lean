-- JSON text as a list of tokens. White space between tokens is dropped, and a text stops being
-- JSON at its first bad lexeme: the list then ends with the token `broken`, so whoever reads the
-- tokens in order meets the faults of a text in the order in which they stand.

namespace KeyAccess.Json

/-- The parts of a number as it is written. -/
structure NumberText where
  negative : Bool
  whole : List Char
  fraction : List Char
  /-- The sign, true for minus, and the digits of the power of ten. -/
  power : Option (Bool × List Char)
  deriving DecidableEq

/-- A lexeme of JSON text. -/
inductive Token
  | openObject
  | closeObject
  | openArray
  | closeArray
  | colon
  | comma
  | null
  | boolean (value : Bool)
  | number (text : NumberText)
  /-- A string; none if an escape in it names half of a surrogate pair without the other half. -/
  | string (text : Option String)
  | broken
  deriving DecidableEq

/-! ## Strings -/

/-- A piece of a string: a character or, written as an escape, half of a surrogate pair. -/
inductive Piece
  | char (c : Char)
  | half (code : Nat)
  deriving DecidableEq

/-- The value of a hexadecimal digit. -/
def hexValue? (c : Char) : Option Nat :=
  if c.isDigit then some (c.toNat - '0'.toNat)
  else if 'a' ≤ c ∧ c ≤ 'f' then some (c.toNat - 'a'.toNat + 10)
  else if 'A' ≤ c ∧ c ≤ 'F' then some (c.toNat - 'A'.toNat + 10)
  else none

/-- The code of four hexadecimal digits. -/
def hexCode? (a b c d : Char) : Option Nat :=
  match hexValue? a, hexValue? b, hexValue? c, hexValue? d with
  | some a, some b, some c, some d => some (((a * 16 + b) * 16 + c) * 16 + d)
  | _, _, _, _ => none

/-- The character that a one-letter escape stands for. -/
def shortEscape? (c : Char) : Option Char :=
  if c = '"' ∨ c = '\\' ∨ c = '/' then some c
  else if c = 'b' then some '\x08'
  else if c = 'f' then some '\x0c'
  else if c = 'n' then some '\n'
  else if c = 'r' then some '\r'
  else if c = 't' then some '\t'
  else none

/-- A piece with the given code. -/
def Piece.ofCode (code : Nat) : Piece :=
  if 0xD800 ≤ code ∧ code ≤ 0xDFFF then half code else char (Char.ofNat code)

/-- The pieces of a string up to its closing quote, and the text after that. -/
def scanString : List Char → Option (List Piece × List Char)
  | [] => none
  | '"' :: rest => some ([], rest)
  | '\\' :: 'u' :: a :: b :: c :: d :: rest =>
    match hexCode? a b c d, scanString rest with
    | some code, some (pieces, rest) => some (Piece.ofCode code :: pieces, rest)
    | _, _ => none
  | '\\' :: e :: rest =>
    match shortEscape? e, scanString rest with
    | some c, some (pieces, rest) => some (.char c :: pieces, rest)
    | _, _ => none
  | c :: rest =>
    if c.toNat < 0x20 ∨ c = '\\' then none
    else match scanString rest with
      | some (pieces, rest) => some (.char c :: pieces, rest)
      | none => none

/-- The characters of a string, where two halves of a surrogate pair make one. -/
def joinPieces : List Piece → Option (List Char)
  | [] => some []
  | .char c :: rest => (joinPieces rest).map (c :: ·)
  | .half high :: .half low :: rest =>
    if high < 0xDC00 ∧ 0xDC00 ≤ low then
      (joinPieces rest).map
        (Char.ofNat (0x10000 + (high - 0xD800) * 0x400 + (low - 0xDC00)) :: ·)
    else none
  | .half _ :: _ => none

/-! ## Numbers -/

/-- The digits of a number before its point: a zero stands alone. -/
def scanWhole (text : List Char) : Option (List Char × List Char) :=
  match text with
  | '0' :: rest =>
    match rest with
    | c :: _ => if c.isDigit then none else some (['0'], rest)
    | [] => some (['0'], rest)
  | _ =>
    let digits := text.takeWhile Char.isDigit
    if digits.isEmpty then none else some (digits, text.dropWhile Char.isDigit)

/-- The digits after the point, if there is one. -/
def scanFraction : List Char → Option (List Char × List Char)
  | '.' :: rest =>
    let digits := rest.takeWhile Char.isDigit
    if digits.isEmpty then none else some (digits, rest.dropWhile Char.isDigit)
  | text => some ([], text)

/-- The power of ten, if there is one. -/
def scanPower : List Char → Option (Option (Bool × List Char) × List Char)
  | c :: rest =>
    if c = 'e' ∨ c = 'E' then
      let (negative, rest) := match rest with
        | '+' :: rest => (false, rest)
        | '-' :: rest => (true, rest)
        | _ => (false, rest)
      let digits := rest.takeWhile Char.isDigit
      if digits.isEmpty then none
      else some (some (negative, digits), rest.dropWhile Char.isDigit)
    else some (none, c :: rest)
  | [] => some (none, [])

/-- A number and the text after it. -/
def scanNumber (text : List Char) : Option (NumberText × List Char) := do
  let (negative, text) := match text with
    | '-' :: rest => (true, rest)
    | _ => (false, text)
  let (whole, text) ← scanWhole text
  let (fraction, text) ← scanFraction text
  let (power, text) ← scanPower text
  return (⟨negative, whole, fraction, power⟩, text)

/-! ## Tokens -/

/-- The white space of JSON. -/
def isSpace (c : Char) : Bool := c == ' ' || c == '\n' || c == '\t' || c == '\r'

/-- The first token of a text that does not start with white space, and the text after it. -/
def scanToken : List Char → Option (Token × List Char)
  | '\x7b' :: rest => some (.openObject, rest)
  | '\x7d' :: rest => some (.closeObject, rest)
  | '[' :: rest => some (.openArray, rest)
  | ']' :: rest => some (.closeArray, rest)
  | ':' :: rest => some (.colon, rest)
  | ',' :: rest => some (.comma, rest)
  | 'n' :: 'u' :: 'l' :: 'l' :: rest => some (.null, rest)
  | 't' :: 'r' :: 'u' :: 'e' :: rest => some (.boolean true, rest)
  | 'f' :: 'a' :: 'l' :: 's' :: 'e' :: rest => some (.boolean false, rest)
  | '"' :: rest =>
    (scanString rest).map fun (pieces, rest) =>
      (.string ((joinPieces pieces).map String.ofList), rest)
  | text => (scanNumber text).map fun (number, rest) => (.number number, rest)

/-- The tokens of a text, at most `fuel` of them. -/
def scan : Nat → List Char → List Token
  | 0, _ => []
  | fuel + 1, text =>
    match text.dropWhile isSpace with
    | [] => []
    | c :: rest =>
      match scanToken (c :: rest) with
      | some (token, rest) => token :: scan fuel rest
      | none => [.broken]

/-- The tokens of a text. Each takes at least one character. -/
def tokens (text : String) : List Token := scan text.toList.length text.toList

/-! ## Writing -/

/-- A digit of a hexadecimal escape. -/
def hexDigit (n : Nat) : Char := Nat.digitChar n

/-- A character inside a written string. -/
def writtenChar (c : Char) : List Char :=
  if c = '"' then ['\\', '"']
  else if c = '\\' then ['\\', '\\']
  else if c = '\x08' then ['\\', 'b']
  else if c = '\x0c' then ['\\', 'f']
  else if c = '\n' then ['\\', 'n']
  else if c = '\r' then ['\\', 'r']
  else if c = '\t' then ['\\', 't']
  else if c.toNat < 0x20 then
    ['\\', 'u', '0', '0', hexDigit (c.toNat / 16), hexDigit (c.toNat % 16)]
  else [c]

/-- A number as it is written. -/
def NumberText.chars (n : NumberText) : List Char :=
  (if n.negative then ['-'] else []) ++ n.whole ++
    (if n.fraction.isEmpty then [] else '.' :: n.fraction) ++
    match n.power with
    | some (negative, digits) => 'e' :: (if negative then '-' :: digits else digits)
    | none => []

/-- A token as it is written. Nothing is written for what is no JSON. -/
def Token.chars : Token → List Char
  | openObject => ['\x7b']
  | closeObject => ['\x7d']
  | openArray => ['[']
  | closeArray => [']']
  | colon => [':']
  | comma => [',']
  | null => ['n', 'u', 'l', 'l']
  | boolean true => ['t', 'r', 'u', 'e']
  | boolean false => ['f', 'a', 'l', 's', 'e']
  | number n => n.chars
  | string (some s) => '"' :: s.toList.flatMap writtenChar ++ ['"']
  | string none => []
  | broken => []

/-- The text of some tokens, without white space. -/
def render (tokens : List Token) : String := String.ofList (tokens.flatMap Token.chars)

/-- The token of a text. -/
def Token.text (s : String) : Token := .string (some s)

/-- The token of a natural number. -/
def Token.natural (n : Nat) : Token := .number ⟨false, Nat.toDigits 10 n, [], none⟩

/-- The tokens of an array with the given elements. -/
def arrayTokens (items : List (List Token)) : List Token :=
  .openArray :: (items.intersperse [.comma]).flatten ++ [.closeArray]

/-- The tokens of an object with the given members. -/
def objectTokens (members : List (String × List Token)) : List Token :=
  .openObject ::
    ((members.map (fun m => .text m.1 :: .colon :: m.2)).intersperse [.comma]).flatten ++
    [.closeObject]

end KeyAccess.Json
