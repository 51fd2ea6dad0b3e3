-- Converters: encodings of one's own for the values of a property. A converter that is registered
-- for a property comes before any declared type.
import KeyAccess.SortedMap
import KeyAccess.Value

namespace KeyAccess

/-- Encodes clause values, or says in its own words why it cannot. -/
abbrev Converter := ClauseValue → Except String AttributeValue

/-- The converters of an entity, by property. -/
structure ConverterRegistry where
  byProperty : SortedMap Converter := ∅

namespace ConverterRegistry

/-- Registers a converter, in place of any earlier one for the property. -/
def register (r : ConverterRegistry) (property : String) (converter : Converter) :
    ConverterRegistry :=
  ⟨r.byProperty.insert property converter⟩

/-- The converter of a property. -/
def get? (r : ConverterRegistry) (property : String) : Option Converter :=
  r.byProperty.get? property

/-- Whether a property has a converter. -/
def contains (r : ConverterRegistry) (property : String) : Bool := r.byProperty.contains property

/-- Whether no property has a converter. -/
def isEmpty (r : ConverterRegistry) : Bool := r.byProperty.isEmpty

/-- The properties that have a converter, for people. -/
def text (r : ConverterRegistry) : String := Text.quotedSet r.byProperty.keys

end ConverterRegistry

end KeyAccess
