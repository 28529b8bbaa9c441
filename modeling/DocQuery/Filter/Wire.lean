import DocQuery.Filter.Basic
import DocQuery.Failure

/-!
# Filters as JSON

A filter is written as a tuple:

* `["And", [filter, …]]` and `["Or", [filter, …]]`,
* `["Not", filter]`,
* `[attribute, operator, value]`.

The number of items tells the forms apart, so that an attribute may be named `And`.

* `Filter.toJson` – the encoding;
* `Filter.ofJson` – the decoding, which names the first flaw it meets from left to right;
* `Filter.WireError` – the flaws.
-/

namespace DocQuery.Filter

/-- Why a tree is not a filter. -/
inductive WireError where
  | notArray (j : Json)
  | noHead
  | notList (head : String)
  | operatorNotString
  | unknownOperator (name : String)
  | malformed (j : Json)

/-- The text for a flaw. The offending tree is shown as data. -/
def WireError.message : WireError → String
  | .notArray j => "filter must be an array, got " ++ j.canonical.render
  | .noHead => "filter must start with a string"
  | .notList head => head ++ " expects a list of filters"
  | .operatorNotString => "operator must be a string"
  | .unknownOperator name => "unknown operator '" ++ name ++ "'"
  | .malformed j => "malformed filter: " ++ j.canonical.render

mutual

/-- The tuple of a filter. -/
def toJson : Filter → Json
  | .and xs => .array [.string "And", .array (toJsonAll xs)]
  | .or xs => .array [.string "Or", .array (toJsonAll xs)]
  | .not x => .array [.string "Not", toJson x]
  | .condition name op value =>
    .array [.string name, .string op.name, value.toJson]

/-- `toJson` on every filter of a list. -/
def toJsonAll : List Filter → List Json
  | [] => []
  | x :: xs => toJson x :: toJsonAll xs

end

/-- Decodes a condition from its attribute, operator and value. -/
def conditionOfJson (name : String) (op value : Json) : Except WireError Filter :=
  match op with
  | .string opName =>
    match FilterOp.ofName? opName with
    | some op => .ok (.condition name op (Value.ofJson value))
    | none => .error (.unknownOperator opName)
  | _ => .error .operatorNotString

mutual

/-- Decodes a tuple. -/
def ofJson : Json → Except WireError Filter
  | .array [.string head, argument] =>
    if head = "And" ∨ head = "Or" then
      match argument with
      | .array items => do
        let xs ← ofJsonAll items
        return if head = "And" then .and xs else .or xs
      | _ => .error (.notList head)
    else if head = "Not" then do
      let x ← ofJson argument
      return .not x
    else .error (.malformed (.array [.string head, argument]))
  | .array [.string name, op, value] => conditionOfJson name op value
  | .array (.string head :: rest) => .error (.malformed (.array (.string head :: rest)))
  | .array _ => .error .noHead
  | j => .error (.notArray j)

/-- Decodes a list of tuples; the first flaw wins. -/
def ofJsonAll : List Json → Except WireError (List Filter)
  | [] => .ok []
  | j :: rest => do
    let x ← ofJson j
    let xs ← ofJsonAll rest
    return x :: xs

end

/-- Decodes a tuple, without a reason for a refusal. -/
def ofJson? (j : Json) : Option Filter := (ofJson j).toOption

/-- The compact text of a filter. -/
def render (x : Filter) : String := x.toJson.render

end DocQuery.Filter
