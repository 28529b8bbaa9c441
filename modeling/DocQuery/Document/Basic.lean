import DocQuery.Json.Decode
import DocQuery.Value.Order

/-!
# Documents

A document is a row of a namespace: an id, perhaps a vector and a distance, and attributes. The
attributes stand in a nested bag or, when there is none, among the free fields of the row itself.

* `DocQuery.Document` – the rows;
* `Document.get?`, `Document.set`, `Document.remove` – one attribute, in whichever bag the document
  uses; the name `id` reads the id;
* `Document.bag` – all attributes;
* `Document.project` – the document with some of its attributes (`DocQuery.Projection`);
* `Document.ofJson?`, `Document.toJson` – decoding and encoding.
-/

namespace DocQuery

/-- A row of a namespace. -/
structure Document where
  id : Value
  vector : Option (List Single)
  dist : Option Double
  /-- The nested bag of attributes. -/
  attributes : Option (Record Value)
  /-- The free fields, which hold the attributes when there is no nested bag. -/
  fields : Record Value

/-- Which attributes a query returns. -/
inductive Projection where
  | all
  | none
  | only (names : List String)
  deriving DecidableEq, Repr

namespace Document

instance : Inhabited Document := ⟨⟨.null, none, none, none, []⟩⟩

/-- Names of free fields that are not attributes. -/
def reserved : List String := ["id", "vector", "$dist", "dist", "distance", "attributes"]

/-- A document that has only an id. -/
def ofId (id : Value) : Document := ⟨id, none, none, none, []⟩

/-- The record that `set` and `remove` change and `get?` reads. -/
def store (d : Document) : Record Value := d.attributes.getD d.fields

/-- The document with that record replaced. -/
def withStore (d : Document) (r : Record Value) : Document :=
  match d.attributes with
  | some _ => { d with attributes := some r }
  | none => { d with fields := r }

/-- Sets an attribute. -/
def set (d : Document) (name : String) (v : Value) : Document :=
  d.withStore (d.store.insert name v)

/-- Removes an attribute. -/
def remove (d : Document) (name : String) : Document :=
  d.withStore (d.store.erase name)

/-- Reads a field; the name `id` stands for the id. -/
def get? (d : Document) (name : String) : Option Value :=
  if name = "id" then some d.id else d.store.get? name

/-- Reads a field, null when it is absent. -/
def getOrNull (d : Document) (name : String) : Value := (d.get? name).getD .null

/-- The attributes: the nested bag, or the free fields without reserved names. -/
def bag (d : Document) : Record Value :=
  match d.attributes with
  | some r => r
  | none => d.fields.filter fun e => !reserved.contains e.1

/-- The document with its id and distance and nothing else. -/
def bare (d : Document) : Document := { ofId d.id with dist := d.dist }

/-- Copies a field of `source`; the name `vector` stands for the vector, and a field that is absent
leaves the document as it is. -/
def copyField (source d : Document) (name : String) : Document :=
  if name = "vector" then { d with vector := source.vector }
  else match source.get? name with
    | some v => d.set name v
    | none => d

/-- The document with the requested attributes, which become free fields. -/
def project (d : Document) : Projection → Document
  | .all => d
  | .none => d.bare
  | .only names => names.foldl (copyField d) d.bare

/-! ### JSON -/

/-- Decodes an object: the named fields at most once each, all others free. -/
def ofJson? (j : Json) : Option Document :=
  match Json.split? ["id", "vector", "$dist", "attributes"] j with
  | some ([some id, vector, dist, attributes], rest) => do
    let vector ← Json.optional? (Json.list? (Json.number? .single)) vector
    let dist ← Json.optional? (Json.number? .double) dist
    let attributes ← Json.optional? (Json.record? fun j => some (Value.ofJson j)) attributes
    return ⟨Value.ofJson id, vector, dist, attributes,
      Record.ofList (rest.map fun m => (m.1, Value.ofJson m.2))⟩
  | _ => none

/-- The members of a record. -/
def members (r : Record Value) : List (String × Json) := r.map fun e => (e.1, e.2.toJson)

/-- Encodes a document: id, vector, distance and nested bag, as far as present, then the free
fields. A free field may repeat one of those names. -/
def toJson (d : Document) : Json :=
  .object
    (("id", d.id.toJson) ::
      ((d.vector.map fun xs => ("vector", .array (xs.map .single))).toList ++
        ((d.dist.map fun x => ("$dist", .float x)).toList ++
          ((d.attributes.map fun r => ("attributes", .object (members r))).toList ++
            members d.fields))))

end Document

end DocQuery
