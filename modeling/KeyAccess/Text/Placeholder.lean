-- Placeholders in expression text: a sigil, which is # for an attribute name and : for a value,
-- and the longest run of ASCII letters, digits and underscores after it, which is not empty.

namespace KeyAccess.Text

/-- The characters that start a placeholder. -/
def isSigil (c : Char) : Bool := c == '#' || c == ':'

/-- The characters that a placeholder goes on with. -/
def isWordChar (c : Char) : Bool := c.isAlphanum || c == '_'

/-- The placeholders of a text from left to right, while `current` holds the placeholder that is
being read, last character first, if one is. -/
def placeholdersFrom : Option (List Char) → List Char → List (List Char)
  | current, [] => finish current []
  | current, c :: rest =>
    if isSigil c then finish current (placeholdersFrom (some [c]) rest)
    else match current with
      | none => placeholdersFrom none rest
      | some word =>
        if isWordChar c then placeholdersFrom (some (c :: word)) rest
        else finish (some word) (placeholdersFrom none rest)
where
  /-- Adds the placeholder that has been read, unless it is a bare sigil. -/
  finish : Option (List Char) → List (List Char) → List (List Char)
    | some (c :: d :: word), found => (c :: d :: word).reverse :: found
    | _, found => found

/-- The placeholders that stand in a text, from left to right. -/
def placeholders (s : String) : List String :=
  (placeholdersFrom none s.toList).map String.ofList

end KeyAccess.Text
