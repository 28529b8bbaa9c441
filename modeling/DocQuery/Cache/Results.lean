import DocQuery.Cache.Ttl
import DocQuery.Discovery.Attribute
import DocQuery.Document.Basic
import DocQuery.Filter.Basic

/-!
# Cached pages and schemas

Two caches serve an engine: one for the pages of queries and one for the schemas of namespaces.

* `DocQuery.QueryKey`, `DocQuery.SchemaKey` – what tells cached pages and schemas apart;
* `DocQuery.ResultCache` – the two caches;
* `ResultCache.invalidate` – drops whatever is known of a namespace, as a write requires.
-/

namespace DocQuery

/-- Identifies a page of a query. -/
structure QueryKey where
  connection : String
  ns : String
  search : String
  /-- The JSON text of the filters. -/
  filters : String
  sort : String
  direction : Direction
  page : Nat
  pageSize : Nat
  deriving DecidableEq, Repr

/-- Identifies the schema of a namespace. -/
structure SchemaKey where
  connection : String
  ns : String
  /-- The fingerprint of the discovery options. -/
  options : String
  deriving DecidableEq, Repr

/-- A page as it was fetched. -/
structure CachedPage where
  documents : List Document
  total : Nat
  /-- The boundary behind the page. -/
  next : Option Value

/-- The caches of an engine. -/
structure ResultCache where
  queries : TtlCache QueryKey CachedPage
  schemas : TtlCache SchemaKey (List Attribute)

namespace ResultCache

/-- Caches without entries; the lifetime is in nanoseconds. -/
def empty (capacity ttl : Nat) : ResultCache := ⟨.empty capacity ttl, .empty capacity ttl⟩

/-- Five hundred entries that live for five minutes. -/
def default : ResultCache := empty 500 (300 * 10 ^ 9)

/-- Drops the pages and the schemas of a namespace, and counts them. -/
def invalidate (c : ResultCache) (connection ns : String) : Nat × ResultCache :=
  let (pages, queries) := c.queries.invalidate fun k => k.connection = connection ∧ k.ns = ns
  let (found, schemas) := c.schemas.invalidate fun k => k.connection = connection ∧ k.ns = ns
  (pages + found, ⟨queries, schemas⟩)

/-- Drops everything. -/
def clear (c : ResultCache) : ResultCache := ⟨c.queries.clear, c.schemas.clear⟩

end ResultCache

end DocQuery
