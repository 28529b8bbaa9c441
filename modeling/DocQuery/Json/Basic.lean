import DocQuery.Numeric.Text
import DocQuery.Record

/-!
# JSON trees

A JSON tree as it is written: integers apart from floating-point numbers, object members in the
order of the text and possibly with a name twice.

* `DocQuery.Json` – the trees;
* `Json.canonical` – the same tree as data: members sorted by name, of a repeated name the last one;
* `Json.print` – the compact text. It needs no escapes beyond those that JSON requires, and what is
  not finite is written as `null`.
-/

namespace DocQuery

/-- A JSON tree. -/
inductive Json where
  | null
  | bool (b : Bool)
  | int (i : Int)
  | float (x : Double)
  /-- A single-precision number, written with the fewest digits of its own format. -/
  | single (x : Single)
  | string (s : String)
  | array (items : List Json)
  | object (members : List (String × Json))

namespace Json

instance : Inhabited Json := ⟨.null⟩

/-! ### Trees as data -/

mutual

/-- The tree as data: members of objects sorted by name, of a repeated name the last one. -/
def canonical : Json → Json
  | .array items => .array (canonicalItems items)
  | .object members => .object (Record.ofList (canonicalMembers members))
  | j => j

/-- `canonical` on every item. -/
def canonicalItems : List Json → List Json
  | [] => []
  | j :: rest => canonical j :: canonicalItems rest

/-- `canonical` on the value of every member. -/
def canonicalMembers : List (String × Json) → List (String × Json)
  | [] => []
  | (name, j) :: rest => (name, canonical j) :: canonicalMembers rest

end

/-! ### Text -/

/-- A hexadecimal digit in lower case. -/
def hexDigit (n : Nat) : Char :=
  if n < 10 then Char.ofNat ('0'.toNat + n) else Char.ofNat ('a'.toNat + (n - 10))

/-- A character inside quotes. Quote, backslash and the controls below the space are escaped. -/
def escapeChar (c : Char) : List Char :=
  match c with
  | '"' => ['\\', '"']
  | '\\' => ['\\', '\\']
  | '\n' => ['\\', 'n']
  | '\r' => ['\\', 'r']
  | '\t' => ['\\', 't']
  | '\x08' => ['\\', 'b']
  | '\x0c' => ['\\', 'f']
  | c =>
    if c.toNat < 32 then
      ['\\', 'u', '0', '0', hexDigit (c.toNat / 16), hexDigit (c.toNat % 16)]
    else [c]

/-- A string in quotes. -/
def quote (s : String) : List Char :=
  '"' :: (s.toList.flatMap escapeChar ++ ['"'])

mutual

/-- The compact text of a tree, as characters. -/
def print : Json → List Char
  | .null => "null".toList
  | .bool b => (if b then "true" else "false").toList
  | .int i => (toString i).toList
  | .float x => (if x.isFinite then x.text (.json .double) else "null").toList
  | .single x => (if x.isFinite then x.text (.json .single) else "null").toList
  | .string s => quote s
  | .array items => '[' :: printItems items
  | .object members => '\x7b' :: printMembers members

/-- The items of an array and the closing bracket. -/
def printItems : List Json → List Char
  | [] => [']']
  | [j] => print j ++ [']']
  | j :: rest => print j ++ ',' :: printItems rest

/-- The members of an object and the closing brace. -/
def printMembers : List (String × Json) → List Char
  | [] => ['\x7d']
  | [(name, j)] => quote name ++ ':' :: (print j ++ ['\x7d'])
  | (name, j) :: rest => quote name ++ ':' :: (print j ++ ',' :: printMembers rest)

end

/-- The compact text of a tree. -/
def render (j : Json) : String := String.ofList j.print

/-! ### Views -/

/-- The value of a member; of a repeated name the last one. -/
def get? (name : String) : Json → Option Json
  | .object members => (members.reverse.find? fun m => m.1 == name).map Prod.snd
  | _ => none

end Json

end DocQuery
