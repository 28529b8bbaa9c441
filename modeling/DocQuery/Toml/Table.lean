import DocQuery.Json.Basic

/-!
# Tables of TOML

The same table can be filled from several places of a document, and which of them are allowed depends
on how the table came about.

* `Toml.Made` – how a table came about;
* `Toml.Node`, `Toml.Table` – what a name stands for, and the names of a table;
* `Toml.edit?` – goes along a path of names, making tables on the way, and changes the last one;
* `Table.insert?` – the pair `a.b.c = v`. **Dotted keys fill only tables that no header wrote**, and
  the last one has to come from dotted keys itself;
* `Table.openTable?`, `Table.openElement?` – the headers `[a.b.c]` and `[[a.b.c]]`. A header may fill
  a table that only longer headers mentioned before.
-/

namespace DocQuery.Toml

/-- How a table came about: from a header of its own, from a longer header, or from a dotted key. -/
inductive Made where
  | header
  | implied
  | dotted
  deriving DecidableEq, Repr

/-- What a name stands for: a value, a table, or the tables that headers with doubled brackets have
opened, the newest first. -/
inductive Node where
  | value (j : Json)
  | table (made : Made) (entries : List (String × Node))
  | elements (tables : List (List (String × Node)))

/-- The names of a table, in the order of the document. -/
abbrev Table := List (String × Node)

mutual

/-- The value that a node holds. -/
def Node.toJson : Node → Json
  | .value j => j
  | .table _ entries => .object (entriesToJson entries)
  | .elements tables => .array (elementsToJson tables).reverse

/-- The values of the names of a table. -/
def entriesToJson : List (String × Node) → List (String × Json)
  | [] => []
  | (name, node) :: rest => (name, node.toJson) :: entriesToJson rest

/-- The values of tables. -/
def elementsToJson : List (List (String × Node)) → List Json
  | [] => []
  | entries :: rest => .object (entriesToJson entries) :: elementsToJson rest

end

/-- What a name stands for in a table. -/
def Table.find? (t : Table) (name : String) : Option Node :=
  (List.find? (fun e => e.1 == name) t).map Prod.snd

/-- The table in which a name stands for a node. -/
def Table.put (t : Table) (name : String) (node : Node) : Table :=
  if (t.find? name).isSome then t.map fun e => if e.1 == name then (name, node) else e
  else t ++ [(name, node)]

/-- Goes along a path from a table, and changes the last table. Tables that do not exist are made, as
`made` tells; the others are entered where `enter` allows it, and of tables in a row the newest
one. -/
def edit? (enter : Made → Bool) (made : Made) (change : Made → Table → Option Table) :
    List String → Made → Table → Option Table
  | [], m, t => change m t
  | name :: path, _, t =>
    match t.find? name with
    | none => (edit? enter made change path made []).map fun s => t.put name (.table made s)
    | some (.table m s) =>
      if enter m then
        (edit? enter made change path m s).map fun s' => t.put name (.table m s')
      else none
    | some (.elements (s :: older)) =>
      (edit? enter made change path .header s).map fun s' => t.put name (.elements (s' :: older))
    | some _ => none

namespace Table

/-- Changes the table at a path of headers. -/
def editAt? (change : Table → Option Table) (path : List String) (t : Table) : Option Table :=
  edit? (fun _ => true) .implied (fun _ => change) path .header t

/-- Adds a name that does not stand in the table. -/
def add? (name : String) (j : Json) (t : Table) : Option Table :=
  if (t.find? name).isSome then none else some (t.put name (.value j))

/-- Adds a pair, whose key is a path and a name. -/
def insert? (path : List String) (name : String) (j : Json) (t : Table) : Option Table :=
  edit? (fun m => m != .header) .dotted
    (fun m s => if path.isEmpty || m = .dotted then add? name j s else none) path .header t

/-- Opens the table of a header. -/
def openTable? (path : List String) (name : String) : Table → Option Table :=
  editAt? (fun t =>
    match t.find? name with
    | none => some (t.put name (.table .header []))
    | some (.table .implied s) => some (t.put name (.table .header s))
    | some _ => none) path

/-- Opens one more table of those in a row. -/
def openElement? (path : List String) (name : String) : Table → Option Table :=
  editAt? (fun t =>
    match t.find? name with
    | none => some (t.put name (.elements [[]]))
    | some (.elements tables) => some (t.put name (.elements ([] :: tables)))
    | some _ => none) path

end Table

end DocQuery.Toml
