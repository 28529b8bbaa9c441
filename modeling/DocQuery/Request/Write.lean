import DocQuery.Request.Query

/-!
# Write requests

What is sent to a namespace to change it: documents to insert or replace, documents to patch, ids to
delete, and a filter of documents to delete. Normally exactly one of them is given.
-/

namespace DocQuery

/-- A write. -/
structure WriteRequest where
  upsert : Option Columns
  patch : Option Columns
  deletes : Option (List Value)
  deleteByFilter : Option Filter

namespace WriteRequest

/-- The request that asks for nothing. -/
def empty : WriteRequest := ⟨none, none, none, none⟩

def ofUpsert (docs : List Document) : WriteRequest :=
  { empty with upsert := some (Columns.ofDocuments docs) }

def ofPatch (docs : List Document) : WriteRequest :=
  { empty with patch := some (Columns.ofDocuments docs) }

def ofDelete (ids : List Value) : WriteRequest := { empty with deletes := some ids }

def ofDeleteByFilter (filter : Filter) : WriteRequest := { empty with deleteByFilter := some filter }

def isEmpty (r : WriteRequest) : Bool :=
  r.upsert.isNone && r.patch.isNone && r.deletes.isNone && r.deleteByFilter.isNone

/-- Parts that are absent are left out. -/
def toJson (r : WriteRequest) : Json :=
  .object
    ((r.upsert.map fun t => ("upsert_columns", t.toJson)).toList ++
      (r.patch.map fun t => ("patch_columns", t.toJson)).toList ++
      (r.deletes.map fun ids => ("deletes", .array (ids.map Value.toJson))).toList ++
      (r.deleteByFilter.map fun x => ("delete_by_filter", x.toJson)).toList)

def ofJson? (j : Json) : Option WriteRequest :=
  match Json.fields? ["upsert_columns", "patch_columns", "deletes", "delete_by_filter"] j with
  | some [upsert, patch, deletes, filter] => do
    let upsert ← Json.optional? Columns.ofJson? upsert
    let patch ← Json.optional? Columns.ofJson? patch
    let deletes ← Json.optional? (Json.list? fun j => some (Value.ofJson j)) deletes
    let filter ← Json.optional? Filter.ofJson? filter
    return ⟨upsert, patch, deletes, filter⟩
  | _ => none

end WriteRequest

end DocQuery
