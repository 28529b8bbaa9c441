import DocQuery.Discovery.Shape
import DocQuery.FieldType
import DocQuery.Json.Decode

/-!
# Discovered attributes

What a sample of documents tells about one of their attributes.

* `DocQuery.AttributeType`, `DocQuery.ElementType` – the inferred types, with `join` for the least
  type that covers two observations;
* `DocQuery.Attribute` – the profile of an attribute; `Attribute.fieldType?` – the type to which
  filter input for it is converted;
* `DocQuery.visibleColumns` – the attributes that are shown first.
-/

namespace DocQuery

/-- The inferred type of an attribute. -/
inductive AttributeType where
  | string
  | number
  | boolean
  | array
  | object
  | mixed
  | date
  deriving DecidableEq, Repr

namespace AttributeType

def name : AttributeType → String
  | .string => "string"
  | .number => "number"
  | .boolean => "boolean"
  | .array => "array"
  | .object => "object"
  | .mixed => "mixed"
  | .date => "date"

/-- The type of one value; nulls tell nothing. -/
def ofValue? : Value → Option AttributeType
  | .null => none
  | .bool _ => some .boolean
  | .int _ | .float _ => some .number
  | .string s => some (if isDate s.toList then .date else .string)
  | .array _ => some .array
  | .object _ => some .object

/-- The least type that covers two: dates are strings, and unrelated types are mixed. -/
def join (a b : AttributeType) : AttributeType :=
  if a = b then a
  else if (a = .date ∧ b = .string) ∨ (a = .string ∧ b = .date) then .string
  else .mixed

end AttributeType

/-- The inferred type of the items of arrays. -/
inductive ElementType where
  | integer
  | float
  | string
  | boolean
  | mixed
  deriving DecidableEq, Repr

namespace ElementType

def name : ElementType → String
  | .integer => "integer"
  | .float => "float"
  | .string => "string"
  | .boolean => "boolean"
  | .mixed => "mixed"

/-- The type of one item; nulls tell nothing. -/
def ofValue? : Value → Option ElementType
  | .null => none
  | .bool _ => some .boolean
  | .int _ => some .integer
  | .float _ => some .float
  | .string _ => some .string
  | .array _ | .object _ => some .mixed

/-- The least type that covers two: integers beside floating-point numbers are floating, and
unrelated types are mixed. -/
def join (a b : ElementType) : ElementType :=
  if a = b then a
  else if (a = .integer ∧ b = .float) ∨ (a = .float ∧ b = .integer) then .float
  else .mixed

/-- The type to which input for items is converted. -/
def fieldType : ElementType → FieldType
  | .integer => .int
  | .float => .float
  | .string => .string
  | .boolean => .bool
  | .mixed => .object

end ElementType

/-- The least and the greatest of some numbers. -/
structure NumericRange where
  least : Double
  greatest : Double

namespace NumericRange

/-- Widens a range to a number. -/
def widen (x : Double) : Option NumericRange → NumericRange
  | some r => ⟨r.least.min x, r.greatest.max x⟩
  | none => ⟨x, x⟩

def toJson (r : NumericRange) : Json := .object [("min", .float r.least), ("max", .float r.greatest)]

end NumericRange

/-- The profile of an attribute. -/
structure Attribute where
  name : String
  type : AttributeType
  /-- The distinct values in sort order, if there are not too many. -/
  uniqueValues : Option (List Value)
  range : Option NumericRange
  /-- The first distinct values. -/
  sampleValues : List Value
  /-- The number of documents that have the attribute, nulls included. -/
  frequency : Nat
  totalDocuments : Nat
  /-- Some document has null for the attribute, or does not have it. -/
  isNullable : Bool
  element : Option ElementType
  patterns : Option (List StringPattern)

namespace Attribute

/-- The type to which filter input is converted. Input for objects and mixed attributes stays
text. -/
def fieldType? (a : Attribute) : Option FieldType :=
  match a.type with
  | .string => some .string
  | .date => some .datetime
  | .number => some .number
  | .boolean => some .bool
  | .array => some (.array ((a.element.map ElementType.fieldType).getD .object))
  | .object | .mixed => none

/-- All values of the attribute are known. -/
def isEnumerable (a : Attribute) : Bool := a.uniqueValues.isSome

/-- A value or null. -/
def orNull {α : Type} (f : α → Json) : Option α → Json
  | some a => f a
  | none => .null

/-- Encodes a profile. -/
def toJson (a : Attribute) : Json :=
  let values := fun vs : List Value => Json.array (vs.map Value.toJson)
  .object [("name", .string a.name), ("type", .string a.type.name),
    ("uniqueValues", orNull values a.uniqueValues),
    ("range", orNull NumericRange.toJson a.range), ("sampleValues", values a.sampleValues),
    ("frequency", .int a.frequency), ("totalDocuments", .int a.totalDocuments),
    ("isNullable", .bool a.isNullable),
    ("arrayElementType", orNull (fun e : ElementType => .string e.name) a.element),
    ("commonPatterns",
      orNull (fun ps : List StringPattern => .array (ps.map fun p => .string p.name)) a.patterns)]

end Attribute

/-- The types of attributes by name, as far as they are known. -/
def typesOf (attributes : List Attribute) : Record FieldType :=
  Record.ofList (attributes.filterMap fun a => a.fieldType?.map fun t => (a.name, t))

/-- The columns shown: the id and then the first attributes, `limit` columns but at least one. -/
def visibleColumns (attributes : List Attribute) (limit : Nat) : List String :=
  ("id" :: (attributes.map Attribute.name).filter fun name => name != "id").take (max limit 1)

end DocQuery
