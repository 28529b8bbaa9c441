import DocQuery.Proofs.Filter.Conjunction
import DocQuery.Proofs.Store.Counting
import Mathlib.Data.List.Basic

/-!
# Negative operators

Four operators of active filters have a negation. Each of them is compiled in its own way, and two
of them in yet another way on attributes that hold arrays. Still, what an operator selects and what
its negation selects always make up all documents.

* `Operator.Opposed` – an operator and its negation, `FilterOp.Opposed` – a comparison and its
  negation;
* `Filter.Complementary` – two filters that fail for the same flaw, or of which every document
  matches exactly one: a filter and its negation (`complementary_not`), or two conditions with
  opposite comparisons (`complementary_condition`);
* `Filter.Complementary.exists_counts` – **their totals add up to the size of a namespace**;
* `opposed_complementary` – active filters with opposite operators are complementary.
-/

namespace DocQuery

/-- An operator and its negation. -/
inductive Operator.Opposed : Operator → Operator → Prop where
  | equals : Opposed .equals .notEquals
  | isIn : Opposed .isIn .notIn
  | matches : Opposed .matches .notMatches
  | imatches : Opposed .imatches .notImatches

/-- A comparison and its negation. -/
inductive FilterOp.Opposed : FilterOp → FilterOp → Prop where
  | eq : Opposed .eq .notEq
  | isIn : Opposed .isIn .notIn
  | glob : Opposed .glob .notGlob
  | iglob : Opposed .iglob .notIGlob

/-- A query for the total is answered with a number, which is read as it is if it has 63 bits. -/
def Store.Counts (s : Store) (ns : String) (filter : Option Filter) (n : Nat) : Prop :=
  ∃ r, s.query ns (.count filter) = .ok r ∧
    (r.aggregations.bind fun a => a.get? QueryRequest.countName) = some (Value.ofInt n) ∧
    (n < 2 ^ 63 → r.count = .ok n)

theorem Store.counts_select {s : Store} {ns : String} {filter : Option Filter} {rows : Rows}
    {p : Option Predicate} (found : s.namespaces.get? ns = some rows)
    (read : predicate? filter = .ok p) : s.Counts ns filter (rows.select p).length :=
  ⟨_, query_count_iff.mpr ⟨rows, p, found, read, rfl⟩, aggregations_answer _, count_answer⟩

namespace Filter

variable {x y : Filter}

/-- Both filters fail for the same flaw, or every document matches exactly one of them. -/
def Complementary (x y : Filter) : Prop :=
  (∃ flaw, Predicate.ofFilter x = .error flaw ∧ Predicate.ofFilter y = .error flaw) ∨
    ∃ p q, Predicate.ofFilter x = .ok p ∧ Predicate.ofFilter y = .ok q ∧
      ∀ d, q.test d = !p.test d

theorem complementary_not (x : Filter) : Complementary x (.not x) := by
  cases read : Predicate.ofFilter x with
  | error flaw =>
    refine .inl ⟨flaw, read, ?_⟩
    rw [Predicate.ofFilter, read]
    rfl
  | ok p =>
    refine .inr ⟨p, .not p, read, ?_, fun d => by rw [Predicate.test]⟩
    rw [Predicate.ofFilter, read]
    rfl

/-- **Conditions with opposite comparisons are complementary**: they take the same pattern and
differ in the sign of the test. -/
theorem complementary_condition {op neg : FilterOp} (opposed : op.Opposed neg) (name : String)
    (value : Value) : Complementary (.condition name op value) (.condition name neg value) := by
  have pattern : Predicate.pattern? neg value = Predicate.pattern? op value := by
    cases opposed <;> rfl
  have sign (actual : Value) (m : Option Matcher) :
      Predicate.holds actual neg value m = !Predicate.holds actual op value m := by
    cases opposed <;> rfl
  unfold Complementary
  rw [Predicate.ofFilter, Predicate.ofFilter, pattern]
  cases Predicate.pattern? op value with
  | error flaw => exact .inl ⟨flaw, rfl, rfl⟩
  | ok m => exact .inr ⟨_, _, rfl, rfl, fun d => sign _ m⟩

/-- **The totals of complementary filters add up to the size of a namespace.** -/
theorem Complementary.exists_counts (h : Complementary x y) (readable : x.Readable) {s : Store}
    {ns : String} {rows : Rows} (found : s.namespaces.get? ns = some rows) :
    ∃ n m, s.Counts ns (some x) n ∧ s.Counts ns (some y) m ∧ n + m = rows.length := by
  obtain ⟨flaw, unread, -⟩ | ⟨p, q, hx, hy, sign⟩ := h
  · obtain ⟨p, read⟩ := readable
    exact absurd (unread.symm.trans read) nofun
  · have read {x : Filter} {p : Predicate} (hx : Predicate.ofFilter x = .ok p) :
        Store.predicate? (some x) = .ok (some p) := by
      rw [Store.predicate?, hx]
      rfl
    refine ⟨_, _, Store.counts_select found (read hx), Store.counts_select found (read hy), ?_⟩
    simp only [Rows.select, Option.all_some, sign]
    rw [← List.length_eq_length_filter_add, Rows.documents, List.length_map]

end Filter

/-! ### Active filters -/

/-- **Opposite operators compile to complementary filters.** On an attribute that holds arrays the
negation stands around the condition, else inside of it. -/
theorem ActiveFilter.complementary_compile {op neg : Operator} (opposed : op.Opposed neg)
    (type : Option FieldType) (id id' : Nat) (name : String) (value : Value)
    (shown shown' : String) :
    Filter.Complementary ((make id name op value shown).compile type)
      ((make id' name neg value shown').compile type) := by
  cases opposed with
  | equals =>
    unfold compile make
    cases (type.map FieldType.isArray).getD false
    · exact Filter.complementary_condition .eq name _
    · exact Filter.complementary_not _
  | isIn => exact Filter.complementary_condition .isIn name _
  | «matches» => exact Filter.complementary_condition .glob name _
  | imatches => exact Filter.complementary_condition .iglob name _

/-- **An operator and its negation share out all documents.** The filters made from one value are
complementary, whatever is known of the types of attributes, and unless they cannot be read their
totals add up to the size of every namespace. -/
theorem opposed_complementary {op neg : Operator} (opposed : op.Opposed neg) (id id' : Nat)
    (name : String) (value : Value) (shown shown' : String) (types : Record FieldType) :
    ∃ x y, compile [.make id name op value shown] "" types = some x ∧
      compile [.make id' name neg value shown'] "" types = some y ∧
      x.Complementary y ∧
      (x.Readable → ∀ (s : Store) (ns : String) (rows : Rows), s.namespaces.get? ns = some rows →
        ∃ n m, s.Counts ns (some x) n ∧ s.Counts ns (some y) m ∧ n + m = rows.length) := by
  have share := ActiveFilter.complementary_compile opposed (types.get? name) id id' name value
    shown shown'
  exact ⟨_, _, rfl, rfl, share, fun readable s ns rows found => share.exists_counts readable found⟩

/-- A document with tags and one without any. -/
def taggedRows : Rows :=
  [("1", (Document.ofId (.int 1)).set "tags" (.array [.string "a", .string "b"])),
    ("2", Document.ofId (.int 2))]

/-- Where tags are known to be arrays, both documents are counted by one filter or the other. -/
theorem opposed_complementary_tagged : Operator.Opposed .equals .notEquals ∧
    ∃ x y n m,
      compile [.make 1 "tags" .equals (.string "b") "b"] "" [("tags", .array .string)] = some x ∧
      compile [.make 2 "tags" .notEquals (.string "b") "b"] "" [("tags", .array .string)] =
        some y ∧
      Store.Counts ⟨[("docs", taggedRows)]⟩ "docs" (some x) n ∧
      Store.Counts ⟨[("docs", taggedRows)]⟩ "docs" (some y) m ∧ n + m = 2 := by
  obtain ⟨x, y, asked, negated, -, counts⟩ := opposed_complementary .equals 1 2 "tags"
    (.string "b") "b" "b" [("tags", .array .string)]
  have readable : x.Readable := by
    cases asked
    exact ⟨_, rfl⟩
  obtain ⟨n, m, some, others, sum⟩ := counts readable ⟨[("docs", taggedRows)]⟩ "docs" _ rfl
  exact ⟨.equals, x, y, n, m, asked, negated, some, others, sum⟩

end DocQuery
