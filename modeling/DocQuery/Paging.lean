import DocQuery.Document.Basic
import DocQuery.Failure

/-!
# Paging by boundaries

The rows of a query are read page by page. When they are ranked by id, a page is asked for by the
last id of the page in front of it, its *boundary*; boundaries are collected while pages are
visited. Where no boundary is known, a page is cut from all rows up to its end.

* `DocQuery.Pagination` – the current page, the page size and the boundaries known so far;
* `Pagination.plan` – how a page is to be fetched (`DocQuery.PagePlan`), or why it cannot be
  (`DocQuery.PlanFlaw`);
* `Pagination.commit`, `Pagination.restore` – the state after a page was fetched, or taken from a
  cache;
* `DocQuery.pageCount` – the number of pages of a total.

Pages, sizes and row counts are natural numbers of 64 bits. A number of rows that is too large
counts as the largest such number.
-/

namespace DocQuery

/-- The largest natural number of 64 bits. -/
def maxWord : Nat := 2 ^ 64 - 1

/-- How the rows of a page are obtained. -/
inductive PageStrategy where
  /-- A page of rows after a boundary, or from the start. -/
  | cursor (boundary : Option Value)
  /-- The first `topK` rows, of which `skip` are dropped. -/
  | overfetch (topK skip : Nat)

/-- How a page is to be fetched. -/
structure PagePlan where
  page : Nat
  strategy : PageStrategy
  /-- Rows are ranked by id, so that boundaries may be recorded. -/
  keyset : Bool

namespace PagePlan

/-- The number of rows to ask for. -/
def topK (plan : PagePlan) (pageSize : Nat) : Nat :=
  match plan.strategy with
  | .cursor _ => pageSize
  | .overfetch topK _ => topK

/-- The boundary after which rows are asked for. -/
def cursor? (plan : PagePlan) : Option Value :=
  match plan.strategy with
  | .cursor boundary => boundary
  | .overfetch _ _ => none

end PagePlan

/-- Why a page cannot be fetched. -/
inductive PlanFlaw where
  | pageZero
  | pastEnd (page pages : Nat)
  | noMore
  | tooManyRows (page rows limit : Nat)
  deriving DecidableEq, Repr

def PlanFlaw.failure : PlanFlaw → Failure
  | .pageZero => .invalidOperation "pages are numbered from 1"
  | .pastEnd page pages => .invalidOperation s!"page {page} is past the last page ({pages})"
  | .noMore => .invalidOperation "no more documents after this page"
  | .tooManyRows page rows limit =>
    .invalidOperation (s!"page {page} needs {rows} rows, more than the {limit} row limit; " ++
      "navigate page by page instead")

/-- The number of pages that a number of rows fills, at least one. -/
def pageCount (rows pageSize : Nat) : Nat :=
  let size := max pageSize 1
  max ((rows + size - 1) / size) 1

/-- Where a reader of pages stands. -/
structure Pagination where
  page : Nat
  size : Nat
  /-- The id of the last row of the current page; none after a page that was not full. -/
  next : Option Value
  /-- The boundaries between the first two pages, the next two and so on. -/
  previous : List Value

namespace Pagination

/-- The first page, with no boundaries. -/
def start (pageSize : Nat) : Pagination := ⟨1, max pageSize 1, none, []⟩

/-- Decodes a state of paging. -/
def ofJson? (j : Json) : Option Pagination :=
  match Json.fields? ["current_page", "page_size", "next_cursor", "previous_cursors"] j with
  | some [some page, some size, next, some previous] => do
    let page ← Json.word? page
    let size ← Json.word? size
    let previous ← Json.list? (fun j => some (Value.ofJson j)) previous
    return ⟨page, size, (Json.nonNull next).map Value.ofJson, previous⟩
  | _ => none

/-- Back to the first page, with no boundaries. -/
def reset (p : Pagination) : Pagination := { p with page := 1, next := none, previous := [] }

def hasPrevious (p : Pagination) : Bool := 1 < p.page

/-- Rows may follow the current page, given the number of pages if it is known. -/
def hasNext (p : Pagination) (pages : Option Nat) : Bool :=
  p.next.isSome && pages.all fun n => p.page < n

/-- The boundary in front of a page other than the first: one that was recorded, or the last id of
the current page if that is the page in front. A page right behind a page that was not full does
not exist. -/
def boundary? (p : Pagination) (page : Nat) : Except PlanFlaw (Option Value) :=
  match p.previous[page - 2]? with
  | some v => .ok (some v)
  | none =>
    if page = p.page + 1 then
      match p.next with
      | some v => .ok (some v)
      | none => .error .noMore
    else .ok none

/-- The plan that cuts a page from all rows up to its end. -/
def overfetch (p : Pagination) (page : Nat) (keyset : Bool) (limit : Nat) :
    Except PlanFlaw PagePlan :=
  let topK := min (page * p.size) maxWord
  if limit < topK then .error (.tooManyRows page topK limit)
  else .ok ⟨page, .overfetch topK ((page - 1) * p.size % 2 ^ 64), keyset⟩

/-- **How a page is to be fetched**: by a boundary when rows are ranked by id and the boundary is
known, else from all rows up to its end, of which there may be at most `limit`. -/
def plan (p : Pagination) (page : Nat) (keyset : Bool) (pages : Option Nat) (limit : Nat) :
    Except PlanFlaw PagePlan :=
  if page = 0 then .error .pageZero
  else match pages with
    | some n => if max n 1 < page then .error (.pastEnd page n) else fetch
    | none => fetch
where
  /-- The plan for a page that may exist. -/
  fetch : Except PlanFlaw PagePlan :=
    if keyset then
      if page = 1 then .ok ⟨page, .cursor none, true⟩
      else match p.boundary? page with
        | .error flaw => .error flaw
        | .ok (some v) => .ok ⟨page, .cursor (some v), true⟩
        | .ok none => p.overfetch page keyset limit
    else p.overfetch page keyset limit

/-- Records the boundary behind a page. Boundaries are known without gaps from the first page on;
one beyond a gap is passed over. -/
def record (p : Pagination) (page : Nat) (v : Value) : Pagination :=
  let i := page - 1
  if i < p.previous.length then { p with previous := p.previous.set i v }
  else if i = p.previous.length then { p with previous := p.previous ++ [v] }
  else p

/-- The last ids of the full pages among rows that begin at the start, at most `n` of them. -/
def boundaries (size n : Nat) (rows : List Document) : List Value :=
  (List.range (min n (rows.length / size))).filterMap fun i =>
    rows[(i + 1) * size - 1]?.map Document.id

/-- Records boundaries behind consecutive pages. -/
def recordAll (p : Pagination) (page : Nat) : List Value → Pagination
  | [] => p
  | v :: rest => recordAll (p.record page v) (page + 1) rest

/-- The boundaries that a plan or its rows show. -/
def learn (p : Pagination) (plan : PagePlan) (fetched : List Document) : Pagination :=
  match plan.strategy with
  | .cursor none => p
  | .cursor (some v) => p.record (plan.page - 1) v
  | .overfetch _ _ =>
    if plan.keyset then p.recordAll 1 (boundaries p.size (plan.page - 1) fetched) else p

/-- The rows of the page among the rows fetched for a plan. -/
def rowsOf (plan : PagePlan) (fetched : List Document) : List Document :=
  match plan.strategy with
  | .cursor _ => fetched
  | .overfetch _ skip => fetched.drop skip

/-- Moves to the page of a plan and returns its rows. A page that is not full is the last one. -/
def commit (p : Pagination) (plan : PagePlan) (fetched : List Document) :
    Pagination × List Document :=
  let rows := rowsOf plan fetched
  let p := { p with page := plan.page }.learn plan fetched
  ({ p with next := if rows.length < p.size then none else rows.getLast?.map Document.id }, rows)

/-- Moves to the page of a plan whose rows are known already. -/
def restore (p : Pagination) (plan : PagePlan) (next : Option Value) : Pagination :=
  let p := { p with page := plan.page }
  let p := match plan.cursor? with
    | some v => p.record (plan.page - 1) v
    | none => p
  { p with next := next }

/-- Structural equality, with boundaries compared by `Value.same`. -/
def same (a b : Pagination) : Bool :=
  a.page == b.page && a.size == b.size && a.next == b.next && a.previous == b.previous

end Pagination

end DocQuery
