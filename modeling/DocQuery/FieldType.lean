import DocQuery.Text.Basic
import DocQuery.Value.Order

/-!
# Field types and typed input

Filter values arrive as text. They are converted to the type of the attribute that they are compared
with, which is declared by name or inferred from documents.

* `DocQuery.FieldType` – the types, `FieldType.ofName?` – the declared names;
* `FieldType.coerce` – typed input as a value. **It never fails**: text that is no number where a
  number is wanted stays a string;
* `FieldType.coerceValue` – the same for what is a value already.
-/

namespace DocQuery

/-- The type of an attribute. -/
inductive FieldType where
  | string
  | uuid
  | datetime
  | int
  | float
  /-- Numbers of which the precision is not known. -/
  | number
  | bool
  /-- Objects and mixed attributes, whose input stays text. -/
  | object
  | array (element : FieldType)
  deriving DecidableEq, Repr

namespace FieldType

/-- The names of the scalar types, in lower case. -/
def names : List (FieldType × List String) :=
  [(.string, ["string", "str", "text"]),
    (.uuid, ["uuid"]),
    (.datetime, ["datetime", "date", "timestamp"]),
    (.int, ["int", "integer", "int8", "int16", "int32", "int64", "uint", "uint8", "uint16",
      "uint32", "uint64", "i32", "i64", "u32", "u64"]),
    (.float, ["float", "float32", "float64", "f32", "f64", "double"]),
    (.number, ["number"]),
    (.bool, ["bool", "boolean"]),
    (.object, ["object", "mixed", "json"])]

/-- The scalar type of a name, in any case and between blanks. -/
def scalarOfName? (cs : List Char) : Option FieldType :=
  let name := String.ofList (lowerAscii (trim cs))
  (names.find? fun e => e.2.contains name).map Prod.fst

/-- Counts the brackets `[]` in front of a name and returns what follows them. -/
def brackets : List Char → Nat × List Char
  | '[' :: ']' :: rest => let (n, cs) := brackets rest; (n + 1, cs)
  | c :: rest => if isSpace c then brackets rest else (0, c :: rest)
  | [] => (0, [])

/-- An array of arrays, `n` levels deep. -/
def nest : Nat → FieldType → FieldType
  | 0, t => t
  | n + 1, t => .array (nest n t)

/-- The type of a declared name such as `int32` or `[]string`. -/
def ofName? (s : String) : Option FieldType :=
  let (n, cs) := brackets s.toList
  (scalarOfName? cs).map (nest n)

/-- The name shown for a type. -/
def name : FieldType → String
  | .string => "string"
  | .uuid => "uuid"
  | .datetime => "datetime"
  | .int => "int"
  | .float => "float"
  | .number => "number"
  | .bool => "bool"
  | .object => "object"
  | .array element => "[]" ++ element.name

def isArray : FieldType → Bool
  | .array _ => true
  | _ => false

/-- The scalar type at the bottom of an array type. -/
def element : FieldType → FieldType
  | .array t => t.element
  | t => t

/-! ### Numbers -/

/-- The word `null` in any case, between blanks. -/
def isNullWord (cs : List Char) : Bool := lowerAscii (trim cs) = "null".toList

/-- Reads a finite number between blanks. -/
def readNumber? (cs : List Char) : Option Double :=
  (readDecimal? (trim cs)).filter Binary.isFinite

/-- Rounds down to an integer; outside 64 bits the whole number stays floating. -/
def floorToInt (x : Double) : Value :=
  let y := x.floor
  match y.truncate? with
  | some n => if -(2 ^ 63) ≤ n ∧ n < 2 ^ 63 then .int (Int64.ofInt n) else .float y
  | none => .float y

/-- The largest integer up to which all are exact in a double. -/
def maxExact : Nat := 2 ^ 53 - 1

/-- A whole number of moderate size as an integer, any other number floating. -/
def narrow (x : Double) : Value :=
  match x.truncate? with
  | some n => if x.isIntegral && n.natAbs ≤ maxExact then .int (Int64.ofInt n) else .float x
  | none => .float x

/-- True for `true` and `1`, false for `false`, `0` and blank text; any other text counts as
true. -/
def readBool (cs : List Char) : Bool :=
  let token := trim cs
  if lowerAscii token = "true".toList || token = ['1'] then true
  else if lowerAscii token = "false".toList || token = ['0'] then false
  else !token.isEmpty

/-! ### Coercion -/

/-- One piece of input as a value of a scalar type. -/
def coerceScalar (t : FieldType) (cs : List Char) : Value :=
  if isNullWord cs then .null
  else match t.element with
    | .int => match readNumber? cs with
      | some x => floorToInt x
      | none => .string (String.ofList cs)
    | .float => match readNumber? cs with
      | some x => .float x
      | none => .string (String.ofList cs)
    | .number => match readNumber? cs with
      | some x => narrow x
      | none => .string (String.ofList cs)
    | .bool => .bool (readBool cs)
    | _ => .string (String.ofList cs)

/-- The pieces of comma-separated input, trimmed, without the empty ones. -/
def tokens (cs : List Char) : List (List Char) :=
  ((splitAtChar ',' cs).map trim).filter fun t => !t.isEmpty

/-- Input for an attribute of the given type. The word `null` is null; without a type, and for
objects, the text stays as it is; input with commas becomes an array. -/
def coerce (type : Option FieldType) (raw : String) : Value :=
  let cs := raw.toList
  if isNullWord cs then .null
  else match type.map element with
    | none => .string raw
    | some .object => .string raw
    | some t =>
      if cs.contains ',' then .array ((tokens cs).map (coerceScalar t))
      else coerceScalar t cs

/-- A value that is no string, brought to a scalar type as far as it goes. -/
def normalize (t : FieldType) (v : Value) : Value :=
  match t, v with
  | _, .null => .null
  | .int, .float x => floorToInt x
  | .float, .int i => .float (Binary.ofInt i.toInt)
  | .number, .float x => narrow x
  | .bool, .int i => .bool (i != 0)
  | t, v =>
    if t = .string ∨ t = .uuid ∨ t = .datetime then
      match v with
      | .string _ | .array _ | .object _ => v
      | v => .string v.display
    else v

/-- An item of an array, brought to a scalar type. -/
def coerceItem (t : FieldType) : Value → Value
  | .string s => coerceScalar t s.toList
  | v => normalize t v

/-- Brings a value to a type: strings as typed input, arrays item by item. -/
def coerceValue (type : Option FieldType) (v : Value) : Value :=
  match type with
  | none => v
  | some type =>
    match v with
    | .string raw => coerce (some type) raw
    | .array items => .array (items.map (coerceItem type.element))
    | v => normalize type.element v

end FieldType

end DocQuery
