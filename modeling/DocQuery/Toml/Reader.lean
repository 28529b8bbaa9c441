import DocQuery.Toml.Table
import DocQuery.Toml.Token

/-!
# Reading TOML

* `Toml.Key` – a key as it is read: names with points between them;
* `Toml.Reader` – the tables so far, the containers that are open, and what may follow;
* `Toml.read?` – **the tree of a document**. All ill-formed documents are refused alike.

Fewer than eighty containers may be open at a time, and a key has fewer than eighty names.
-/

namespace DocQuery.Toml

/-! ### Keys -/

/-- A piece of a key: a name or the point between two names. -/
inductive KeyPiece where
  | name (s : String)
  | point
  deriving DecidableEq, Repr

/-- A name that needs no quotes. -/
def isBareName (cs : List Char) : Bool :=
  !cs.isEmpty && cs.all fun c => c.isAlphanum || c = '-' || c = '_'

/-- The pieces of an unquoted run. -/
def runPieces (cs : List Char) : List KeyPiece :=
  ((cs.splitBy fun a b => a != '.' && b != '.').map fun part =>
    if part = ['.'] then KeyPiece.point else .name (String.ofList part))

/-- The names of alternating pieces. -/
def namesOf? : List KeyPiece → Option (List String)
  | [.name s] => some [s]
  | .name s :: .point :: rest => (namesOf? rest).map (s :: ·)
  | _ => none

/-- Most names of a key, and most containers that may be open at a time. -/
def maxDepth : Nat := 79

/-- A key: the path to a table and a name in it. -/
abbrev Key := List String × String

/-- The key with the given pieces. -/
def keyOf? (pieces : List KeyPiece) : Option Key :=
  (namesOf? pieces).bind fun names =>
    if names.length ≤ maxDepth then names.getLast?.map fun name => (names.dropLast, name) else none

/-- The pieces of a token of a key. Only short strings and bare names can be names. -/
def keyPieces? : Token → Option (List KeyPiece)
  | .run cs => if (cs.filter (· != '.')).all fun c => isBareName [c] then some (runPieces cs) else none
  | .quoted s true => some [.name s]
  | _ => none

/-! ### Documents -/

/-- Something that is open. -/
inductive Frame where
  /-- A pair that waits for its value. -/
  | pair (key : Key)
  /-- An array, with its items in reverse. -/
  | array (items : List Json)
  /-- A table in braces. -/
  | braces (entries : Table)

/-- What a key is for. -/
inductive KeyPlace where
  | pair
  | table
  | element
  deriving DecidableEq, Repr

/-- What may follow. -/
inductive Expect where
  /-- A line. -/
  | line
  /-- The second bracket of a header, or the key of a header with one. -/
  | header
  /-- More of a key, whose pieces are in reverse. -/
  | key (place : KeyPlace) (pieces : List KeyPiece)
  /-- The second bracket that closes a header. -/
  | closing (key : Key)
  /-- A value. -/
  | value
  /-- An item of an array, or its end. -/
  | item
  /-- The first key of a table in braces, or its end. -/
  | firstKey
  /-- A comma or the end of the innermost container. -/
  | separator
  /-- The end of the line. -/
  | lineEnd
  deriving DecidableEq, Repr

/-- The tables so far, the path of the table that is being filled, and what is open, the innermost
first. -/
structure Reader where
  root : Table
  header : List String
  stack : List Frame
  expect : Expect

namespace Reader

/-- Puts a value where it belongs. -/
def complete? (r : Reader) (j : Json) : List Frame → Option Reader
  | [.pair (path, name)] =>
    (r.root.editAt? (Table.insert? path name j) r.header).map fun root =>
      ⟨root, r.header, [], .lineEnd⟩
  | .pair (path, name) :: .braces entries :: rest =>
    (entries.insert? path name j).map fun entries' =>
      ⟨r.root, r.header, .braces entries' :: rest, .separator⟩
  | .array items :: rest => some ⟨r.root, r.header, .array (j :: items) :: rest, .separator⟩
  | _ => none

/-- Opens a container. -/
def push? (r : Reader) (frame : Frame) (expect : Expect) : Option Reader :=
  let isContainer : Frame → Bool := fun f => match f with
    | .pair _ => false
    | _ => true
  if (r.stack.filter isContainer).length < maxDepth then
    some { r with stack := frame :: r.stack, expect := expect }
  else none

/-- A token where a value may stand. -/
def value? (r : Reader) : Token → Option Reader
  | .run cs => (scalar? cs).bind fun j => r.complete? j r.stack
  | .quoted s _ => r.complete? (.string s) r.stack
  | .openBracket => r.push? (.array []) .item
  | .openBrace => r.push? (.braces []) .firstKey
  | _ => none

/-- Closes the innermost array. -/
def closeArray? (r : Reader) : Option Reader :=
  match r.stack with
  | .array items :: rest => r.complete? (.array items.reverse) rest
  | _ => none

/-- Closes the innermost table in braces. -/
def closeBraces? (r : Reader) : Option Reader :=
  match r.stack with
  | .braces entries :: rest => r.complete? (.object (entriesToJson entries)) rest
  | _ => none

/-- More of a key. -/
def key? (r : Reader) (place : KeyPlace) (pieces : List KeyPiece) (t : Token) : Option Reader :=
  match t, place with
  | .equals, .pair =>
    (keyOf? pieces.reverse).map fun key =>
      { r with stack := .pair key :: r.stack, expect := .value }
  | .closeBracket, .table =>
    (keyOf? pieces.reverse).bind fun (path, name) =>
      (r.root.openTable? path name).map fun root =>
        ⟨root, path ++ [name], [], .lineEnd⟩
  | .closeBracket, .element =>
    (keyOf? pieces.reverse).map fun key => { r with expect := .closing key }
  | t, place =>
    (keyPieces? t).map fun more => { r with expect := .key place (more.reverse ++ pieces) }

/-- After a value in a container. -/
def separator? (r : Reader) (t : Token) : Option Reader :=
  match t, r.stack with
  | .comma, .array _ :: _ => some { r with expect := .item }
  | .comma, .braces _ :: _ => some { r with expect := .key .pair [] }
  | .closeBracket, _ => r.closeArray?
  | .closeBrace, _ => r.closeBraces?
  | _, _ => none

/-- The end of a line. Only arrays may span lines. -/
def lineEnd? (r : Reader) : Option Reader :=
  match r.expect, r.stack with
  | .line, _ | .lineEnd, _ => some { r with expect := .line }
  | .item, .array _ :: _ | .separator, .array _ :: _ => some r
  | _, _ => none

/-- A blank, which only keeps two brackets of a header apart. -/
def blank? (r : Reader) : Option Reader :=
  match r.expect with
  | .header => some { r with expect := .key .table [] }
  | .closing _ => none
  | _ => some r

/-- The reader after one token. -/
def step? (r : Reader) (t : Token) : Option Reader :=
  match t with
  | .blank => r.blank?
  | .lineEnd => r.lineEnd?
  | t =>
    match r.expect with
    | .line =>
      if t = .openBracket then some { r with expect := .header } else r.key? .pair [] t
    | .header =>
      if t = .openBracket then some { r with expect := .key .element [] } else r.key? .table [] t
    | .key place pieces => r.key? place pieces t
    | .closing (path, name) =>
      if t = .closeBracket then
        (r.root.openElement? path name).map fun root => ⟨root, path ++ [name], [], .lineEnd⟩
      else none
    | .value => r.value? t
    | .item => if t = .closeBracket then r.closeArray? else r.value? t
    | .firstKey => if t = .closeBrace then r.closeBraces? else r.key? .pair [] t
    | .separator => r.separator? t
    | .lineEnd => none

/-- The tables of a list of tokens. -/
def run? : Reader → List Token → Option Table
  | r, [] => if r.expect = .line ∨ r.expect = .lineEnd then some r.root else none
  | r, t :: ts => (step? r t).bind fun r' => run? r' ts

end Reader

/-- Reads a document. -/
def read? (text : String) : Option Json :=
  ((tokens? text).bind (Reader.run? ⟨[], [], [], .line⟩)).map fun t => .object (entriesToJson t)

end DocQuery.Toml
