import DocQuery.Document.Basic
import DocQuery.Failure

/-!
# Column tables

Writes carry documents column by column: one list of values for each attribute, and the ids in the
column `id`.

* `DocQuery.Columns` – the tables;
* `Columns.ofDocuments` – the table of a list of documents, null where an attribute is missing;
* `Columns.toDocuments` – the documents of a table, or its first flaw (`Columns.Flaw`). Nulls can be
  skipped, which is how a patch leaves an attribute alone.
-/

namespace DocQuery

/-- Lists of values by column name. -/
abbrev Columns := Record (List Value)

namespace Columns

/-- Why a table holds no documents. -/
inductive Flaw where
  | noIds
  | ragged (column : String) (found expected : Nat)
  deriving DecidableEq, Repr

def Flaw.failure : Flaw → Failure
  | .noIds => .invalidOperation "columns need an 'id' column"
  | .ragged column found expected =>
    .invalidOperation s!"column '{column}' has {found} values, expected {expected}"

/-- The attributes of the documents, each at its first place. -/
def names (docs : List Document) : List String :=
  (docs.flatMap fun d => d.bag.map Prod.fst).eraseDups

/-- The table of a list of documents. -/
def ofDocuments (docs : List Document) : Columns :=
  (names docs).foldl
    (fun table name => table.insert name (docs.map fun d => d.getOrNull name))
    [("id", docs.map Document.id)]

/-- The number of ids. -/
def size (table : Columns) : Nat := ((table.get? "id").map List.length).getD 0

/-- The first column, in the order of names, whose length differs from the number of ids. -/
def flaw? (table : Columns) : Option Flaw :=
  match table.get? "id" with
  | none => some .noIds
  | some ids =>
    (table.find? fun c => c.2.length != ids.length).map fun c =>
      .ragged c.1 c.2.length ids.length

/-- Sets one attribute of a document from a cell. -/
def setCell (skipNulls : Bool) (name : String) (d : Document) (v : Value) : Document :=
  if skipNulls && v.isNull then d else d.set name v

/-- Sets one attribute of every document from a column. -/
def setColumn (skipNulls : Bool) (docs : List Document) (column : String × List Value) :
    List Document :=
  List.zipWith (setCell skipNulls column.1) docs column.2

/-- The documents of a table. -/
def toDocuments (table : Columns) (skipNulls : Bool) : Except Flaw (List Document) :=
  match table.flaw? with
  | some flaw => .error flaw
  | none =>
    let docs := ((table.get? "id").getD []).map Document.ofId
    .ok ((table.filter fun c => c.1 != "id").foldl (setColumn skipNulls) docs)

/-- Encodes a table as an object of arrays. -/
def toJson (table : Columns) : Json :=
  .object (table.map fun c => (c.1, .array (c.2.map Value.toJson)))

/-- Decodes an object of arrays. -/
def ofJson? : Json → Option Columns :=
  Json.record? (Json.list? fun j => some (Value.ofJson j))

end Columns

end DocQuery
