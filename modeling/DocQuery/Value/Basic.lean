import DocQuery.Json.Reader

/-!
# Attribute values

Documents carry arbitrary JSON attributes, held as tagged values: 64-bit integers apart from
floating-point numbers, objects as records.

* `DocQuery.Value` – the values; `Value.Kind` – their types, with the names shown for them;
* `Value.ofJson`, `Value.toJson` – decoding from and encoding to JSON. An integer outside 64 bits
  decodes to a floating-point number, and what is not finite encodes to `null`;
* `Value.key` – the compact JSON text, by which documents and distinct values are identified;
* `Value.text`, `Value.display` – text for people.
-/

namespace DocQuery

/-- The value of an attribute. -/
inductive Value where
  | null
  | bool (b : Bool)
  | int (i : Int64)
  | float (x : Double)
  | string (s : String)
  | array (items : List Value)
  | object (members : List (String × Value))

namespace Value

instance : Inhabited Value := ⟨.null⟩

/-! ### Types -/

/-- The type of a value. -/
inductive Kind where
  | null
  | bool
  | int
  | float
  | string
  | array
  | object
  deriving DecidableEq, Repr

/-- The name of a type in data. -/
def Kind.name : Kind → String
  | .null => "null"
  | .bool => "bool"
  | .int => "int"
  | .float => "float"
  | .string => "string"
  | .array => "array"
  | .object => "object"

/-- The name of a type shown to people. -/
def Kind.title : Kind → String
  | .null => "Null"
  | .bool => "Bool"
  | .int => "Int"
  | .float => "Float"
  | .string => "String"
  | .array => "Array"
  | .object => "Object"

/-- Integers and floating-point numbers. -/
def Kind.isNumeric : Kind → Bool
  | .int | .float => true
  | _ => false

/-- Types in sort order; integers and floating-point numbers share a rank. -/
def Kind.rank : Kind → Nat
  | .null => 0
  | .bool => 1
  | .int | .float => 2
  | .string => 3
  | .array => 4
  | .object => 5

/-- The type of a value. -/
def kind : Value → Kind
  | .null => .null
  | .bool _ => .bool
  | .int _ => .int
  | .float _ => .float
  | .string _ => .string
  | .array _ => .array
  | .object _ => .object

def isNull : Value → Bool
  | .null => true
  | _ => false

/-! ### Views -/

def asString? : Value → Option String
  | .string s => some s
  | _ => none

def asBool? : Value → Option Bool
  | .bool b => some b
  | _ => none

def asInt? : Value → Option Int64
  | .int i => some i
  | _ => none

def asArray? : Value → Option (List Value)
  | .array items => some items
  | _ => none

/-- The double nearest to an integer, or the floating-point number itself. -/
def asDouble? : Value → Option Double
  | .int i => some (Binary.ofInt i.toInt)
  | .float x => some x
  | _ => none

/-- The items of an array; any other value alone. -/
def asList : Value → List Value
  | .array items => items
  | v => [v]

/-! ### JSON -/

/-- An integer of JSON as a value: exact within 64 signed bits, else the nearest double. -/
def ofInt (i : Int) : Value :=
  if -(2 ^ 63) ≤ i ∧ i < 2 ^ 63 then .int (Int64.ofInt i) else .float (Binary.ofInt i)

mutual

/-- Decodes a tree. Of a repeated member the last one counts. -/
def ofJson : Json → Value
  | .null => .null
  | .bool b => .bool b
  | .int i => ofInt i
  | .float x => .float x
  | .single x => .float (x.convert .double)
  | .string s => .string s
  | .array items => .array (ofJsonItems items)
  | .object members => .object (Record.ofList (ofJsonMembers members))

/-- `ofJson` on every item. -/
def ofJsonItems : List Json → List Value
  | [] => []
  | j :: rest => ofJson j :: ofJsonItems rest

/-- `ofJson` on the value of every member. -/
def ofJsonMembers : List (String × Json) → List (String × Value)
  | [] => []
  | (name, j) :: rest => (name, ofJson j) :: ofJsonMembers rest

end

mutual

/-- Encodes a value. What is not finite becomes `null`. -/
def toJson : Value → Json
  | .null => .null
  | .bool b => .bool b
  | .int i => .int i.toInt
  | .float x => if x.isFinite then .float x else .null
  | .string s => .string s
  | .array items => .array (toJsonItems items)
  | .object members => .object (toJsonMembers members)

/-- `toJson` on every item. -/
def toJsonItems : List Value → List Json
  | [] => []
  | v :: rest => toJson v :: toJsonItems rest

/-- `toJson` on the value of every member. -/
def toJsonMembers : List (String × Value) → List (String × Json)
  | [] => []
  | (name, v) :: rest => (name, toJson v) :: toJsonMembers rest

end

/-- The compact JSON text of a value. It identifies the value: documents with the same text of
their ids are the same document. -/
def key (v : Value) : String := v.toJson.render

/-! ### Text for people -/

mutual

/-- A value with strings in quotes, which are not escaped, and blanks after the commas of arrays;
objects as JSON. -/
def text : Value → String
  | .null => "null"
  | .bool b => if b then "true" else "false"
  | .int i => toString i.toInt
  | .float x => x.text .display
  | .string s => "\"" ++ s ++ "\""
  | .array items => "[" ++ showItems items
  | .object members => key (.object members)

/-- The items of an array and the closing bracket. -/
def showItems : List Value → String
  | [] => "]"
  | [v] => text v ++ "]"
  | v :: rest => text v ++ ", " ++ showItems rest

end

/-- The text of a value in a table, and the text that patterns are matched against: as `text`, a
string without quotes. -/
def display : Value → String
  | .string s => s
  | v => v.text

end Value

end DocQuery
