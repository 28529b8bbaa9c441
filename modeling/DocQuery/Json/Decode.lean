import DocQuery.Json.Reader

/-!
# Decoding trees into types

The shapes in which typed data is written as JSON.

* `Json.fields?` – a type with named fields: an object, in which a known name may stand only once
  and unknown names are passed over, or the field values alone in an array;
* `Json.split?` – an object that holds named fields beside free ones;
* `Json.nonNull`, `Json.natural?`, `Json.list?`, `Json.choice?` – optional fields, natural numbers of
  64 bits, lists, and names from a fixed choice.

Nothing here says why a tree was refused.
-/

namespace DocQuery.Json

/-- A field that is absent or null counts as missing. -/
def nonNull : Option Json → Option Json
  | some .null => none
  | j => j

/-- An optional field: missing, or decoded. -/
def optional? {α : Type} (decode : Json → Option α) (field : Option Json) : Option (Option α) :=
  match nonNull field with
  | none => some none
  | some j => (decode j).map some

/-- A field with a default: absent, or decoded. -/
def orDefault? {α : Type} (default : α) (decode : Json → Option α) (field : Option Json) :
    Option α :=
  match field with
  | none => some default
  | some j => decode j

/-- The members of an object with one of the given names; none if such a name stands twice. -/
def known? (names : List String) (members : List (String × Json)) : Option (List (Option Json)) :=
  names.mapM fun name =>
    match members.filter fun m => m.1 == name with
    | [] => some none
    | [(_, j)] => some (some j)
    | _ => none

/-- The values of named fields, in the order of the names. -/
def fields? (names : List String) : Json → Option (List (Option Json))
  | .object members => known? names members
  | .array items =>
    if items.length ≤ names.length then
      some (items.map some ++ List.replicate (names.length - items.length) none)
    else none
  | _ => none

/-- The values of named fields of an object, and its other members. -/
def split? (names : List String) : Json → Option (List (Option Json) × List (String × Json))
  | .object members =>
    (known? names members).map fun fs => (fs, members.filter fun m => !names.contains m.1)
  | _ => none

/-- A natural number below `bound`, written as an integer. -/
def natural? (bound : Nat) : Json → Option Nat
  | .int i => if 0 ≤ i ∧ i < bound then some i.toNat else none
  | _ => none

/-- A natural number of 64 bits. -/
def word? : Json → Option Nat := natural? (2 ^ 64)

def bool? : Json → Option Bool
  | .bool b => some b
  | _ => none

def string? : Json → Option String
  | .string s => some s
  | _ => none

/-- A number of a floating-point format, written as any number. -/
def number? (f : Format) : Json → Option (Binary f)
  | .int i => some (Binary.ofInt i)
  | .float x => some (x.convert f)
  | .single x => some (x.convert f)
  | _ => none

def list? {α : Type} (decode : Json → Option α) : Json → Option (List α)
  | .array items => items.mapM decode
  | _ => none

/-- An object as a map from names; of a repeated name the last one counts. -/
def record? {α : Type} (decode : Json → Option α) : Json → Option (Record α)
  | .object members =>
    (members.mapM fun m => (decode m.2).map fun a => (m.1, a)).map Record.ofList
  | _ => none

/-- A name from a fixed choice, written as a string or as the only member of an object, with the
value null. -/
def choice? {α : Type} (parse : String → Option α) : Json → Option α
  | .string s => parse s
  | .object [(s, .null)] => parse s
  | _ => none

end DocQuery.Json
