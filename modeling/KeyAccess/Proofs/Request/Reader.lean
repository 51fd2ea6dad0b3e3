-- A reader of expressions: the way back from the text of a condition to what it compares. A text
-- is cut into tokens, the tokens are cut at each AND that joins two terms, each term is read on
-- its own, and its placeholders are looked up. The AND between the bounds of BETWEEN belongs to
-- its term.
import Mathlib
import KeyAccess.Comparison
import KeyAccess.SortedMap
import KeyAccess.Text.Placeholder

namespace KeyAccess

/-- What a term says: the operator, the attribute and the values that it compares. -/
structure ReadTerm where
  attributeName : String
  operator : ComparisonOperator
  values : List AttributeValue
  deriving DecidableEq

namespace Reader

/-! ## Tokens -/

inductive Keyword
  | and
  | not
  | between
  | isIn
  | beginsWith
  | contains
  | absent
  | present
  deriving DecidableEq

inductive Token
  | name (placeholder : String)
  | value (placeholder : String)
  | comparison (operator : ComparisonOperator)
  | keyword (keyword : Keyword)
  | opening
  | closing
  | comma
  | unknown (chunk : List Char)
  deriving DecidableEq

/-- How a character joins the ones before it: the characters of a word and those of a comparison
form runs, a blank only separates, and any other character stands alone. -/
inductive CharClass
  | word
  | comparison
  | blank
  | single
  deriving DecidableEq

def classOf (c : Char) : CharClass :=
  if Text.isSigil c || Text.isWordChar c then .word
  else if c == '=' || c == '<' || c == '>' then .comparison
  else if c == ' ' then .blank
  else .single

/-- The runs and the single characters of a text. -/
def chunks : List Char → List (List Char)
  | [] => []
  | c :: rest =>
    match classOf c with
    | .blank => chunks rest
    | .single => [c] :: chunks rest
    | .word => joined c (rest.head?.map classOf == some .word) (chunks rest)
    | .comparison => joined c (rest.head?.map classOf == some .comparison) (chunks rest)
where
  /-- Adds a character to the first run, or as a run of its own. -/
  joined (c : Char) : Bool → List (List Char) → List (List Char)
    | true, run :: runs => (c :: run) :: runs
    | _, runs => [c] :: runs

/-- The chunks of fixed text and their tokens. -/
def fixedTokens : List (List Char × Token) :=
  [(['='], .comparison .eq), (['<', '>'], .comparison .ne), (['<'], .comparison .lt),
    (['<', '='], .comparison .le), (['>'], .comparison .gt), (['>', '='], .comparison .ge),
    (['('], .opening), ([')'], .closing), ([','], .comma), ("AND".toList, .keyword .and),
    ("NOT".toList, .keyword .not), ("BETWEEN".toList, .keyword .between),
    ("IN".toList, .keyword .isIn), ("begins_with".toList, .keyword .beginsWith),
    ("contains".toList, .keyword .contains), ("attribute_not_exists".toList, .keyword .absent),
    ("attribute_exists".toList, .keyword .present)]

def tokenOf : List Char → Token
  | '#' :: rest => .name (String.ofList ('#' :: rest))
  | ':' :: rest => .value (String.ofList (':' :: rest))
  | chunk =>
    ((fixedTokens.find? (fun entry => entry.1 == chunk)).map Prod.snd).getD (.unknown chunk)

def tokens (text : List Char) : List Token := (chunks text).map tokenOf

/-! ## Terms -/

/-- A term whose placeholders are not looked up yet. -/
structure Written where
  name : String
  operator : ComparisonOperator
  values : List String

/-- A token at the beginning of the first of some terms. -/
def putFirst (t : Token) : List (List Token) → List (List Token)
  | [] => [[t]]
  | first :: terms => (t :: first) :: terms

/-- The tokens of each term, where the flag tells that the bounds of BETWEEN are not joined yet. -/
def splitTerms : Bool → List Token → List (List Token)
  | _, [] => [[]]
  | false, .keyword .and :: rest => [] :: splitTerms false rest
  | true, .keyword .and :: rest => putFirst (.keyword .and) (splitTerms false rest)
  | _, .keyword .between :: rest => putFirst (.keyword .between) (splitTerms true rest)
  | pending, t :: rest => putFirst t (splitTerms pending rest)

/-- Values with commas between them, up to the closing parenthesis. -/
def listed : List Token → Option (List String)
  | [.value v, .closing] => some [v]
  | .value v :: .comma :: rest => (listed rest).map (v :: ·)
  | _ => none

/-- One term. -/
def term : List Token → Option Written
  | [.name n, .comparison operator, .value v] => some ⟨n, operator, [v]⟩
  | [.name n, .keyword .between, .value low, .keyword .and, .value high] =>
    some ⟨n, .between, [low, high]⟩
  | .name n :: .keyword .isIn :: .opening :: rest => (listed rest).map (⟨n, .isIn, ·⟩)
  | [.keyword .beginsWith, .opening, .name n, .comma, .value v, .closing] =>
    some ⟨n, .beginsWith, [v]⟩
  | [.keyword .contains, .opening, .name n, .comma, .value v, .closing] =>
    some ⟨n, .contains, [v]⟩
  | [.keyword .not, .keyword .contains, .opening, .name n, .comma, .value v, .closing] =>
    some ⟨n, .notContains, [v]⟩
  | [.keyword .absent, .opening, .name n, .closing] => some ⟨n, .null, []⟩
  | [.keyword .present, .opening, .name n, .closing] => some ⟨n, .notNull, []⟩
  | _ => none

/-- The term with its placeholders looked up. -/
def resolve (names : SortedMap String) (values : SortedMap AttributeValue) (w : Written) :
    Option ReadTerm := do
  let attributeName ← names.get? w.name
  let held ← w.values.mapM values.get?
  return ⟨attributeName, w.operator, held⟩

/-- The terms of an expression, or nothing if it is not a conjunction of bound terms. -/
def read (names : SortedMap String) (values : SortedMap AttributeValue) (text : String) :
    Option (List ReadTerm) :=
  (splitTerms false (tokens text.toList)).mapM (fun t => (term t).bind (resolve names values))

example : read (SortedMap.ofList [("#a", "x"), ("#b", "y")])
    (SortedMap.ofList [(":u", .number "1"), (":v", .number "2")])
    "#a BETWEEN :u AND :v AND NOT contains(#b, :u)" =
      some [⟨"x", .between, [.number "1", .number "2"]⟩, ⟨"y", .notContains, [.number "1"]⟩] := by
  decide +kernel

end Reader

end KeyAccess
