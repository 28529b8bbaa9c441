import DocQuery.Discovery.Attribute
import DocQuery.Request.Query

/-!
# Profiling attributes

The schema of a namespace is inferred from a sample of its documents, in one pass over them.

* `DocQuery.DiscoveryOptions` – how large the sample is and how much of it is reported;
* `DocQuery.Tally` – what has been seen of one attribute; `Tally.observe` adds a value,
  `Tally.summary` sums up;
* `DocQuery.discover` – **the profiles of all attributes**, the most frequent ones first.
-/

namespace DocQuery

/-- How attributes are discovered. -/
structure DiscoveryOptions where
  /-- The number of documents that a sampling query asks for. -/
  sampleSize : Nat
  /-- The most distinct values that are listed. -/
  maxUniqueValues : Nat
  maxSampleValues : Nat
  detectPatterns : Bool
  deriving DecidableEq, Repr

namespace DiscoveryOptions

def default : DiscoveryOptions := ⟨500, 100, 10, true⟩

/-- A short text that tells options apart. -/
def fingerprint (o : DiscoveryOptions) : String :=
  "s" ++ toString o.sampleSize ++ "-u" ++ toString o.maxUniqueValues ++ "-v" ++
    toString o.maxSampleValues ++ "-p" ++ (if o.detectPatterns then "1" else "0")

/-- The query for a sample. -/
def sampleRequest (o : DiscoveryOptions) : QueryRequest := .rows none .byId o.sampleSize

/-- Encodes options. -/
def toJson (o : DiscoveryOptions) : Json :=
  .object [("sample_size", .int o.sampleSize), ("max_unique_values", .int o.maxUniqueValues),
    ("max_sample_values", .int o.maxSampleValues), ("detect_patterns", .bool o.detectPatterns)]

/-- Decodes options; those that are absent have their defaults. -/
def ofJson? (j : Json) : Option DiscoveryOptions :=
  match Json.fields?
      ["sample_size", "max_unique_values", "max_sample_values", "detect_patterns"] j with
  | some [sampleSize, maxUnique, maxSamples, detect] => do
    let sampleSize ← Json.orDefault? default.sampleSize Json.word? sampleSize
    let maxUnique ← Json.orDefault? default.maxUniqueValues Json.word? maxUnique
    let maxSamples ← Json.orDefault? default.maxSampleValues Json.word? maxSamples
    let detect ← Json.orDefault? default.detectPatterns Json.bool? detect
    return ⟨sampleSize, maxUnique, maxSamples, detect⟩
  | _ => none

end DiscoveryOptions

/-- The number of strings of each shape. -/
structure PatternCounts where
  email : Nat
  url : Nat
  uuid : Nat

namespace PatternCounts

def zero : PatternCounts := ⟨0, 0, 0⟩

/-- Counts a string. -/
def add (s : String) (n : PatternCounts) : PatternCounts :=
  ⟨n.email + (StringPattern.email.accepts s).toNat, n.url + (StringPattern.url.accepts s).toNat,
    n.uuid + (StringPattern.uuid.accepts s).toNat⟩

/-- The number of strings of a shape. -/
def get (n : PatternCounts) : StringPattern → Nat
  | .email => n.email
  | .url => n.url
  | .uuid => n.uuid

end PatternCounts

/-- What has been seen of an attribute. -/
structure Tally where
  present : Nat
  nulls : Nat
  type : Option AttributeType
  element : Option ElementType
  /-- Distinct values by key, at their first places; of arrays the leaves. -/
  distinct : List (String × Value)
  range : Option NumericRange
  strings : Nat
  shaped : PatternCounts

mutual

/-- The items of an array that are no arrays, at every depth. -/
def Value.leaves : Value → List Value
  | .array items => leavesOf items
  | v => [v]

/-- `Value.leaves` of every item. -/
def Value.leavesOf : List Value → List Value
  | [] => []
  | v :: rest => v.leaves ++ leavesOf rest

end

namespace Tally

def empty : Tally := ⟨0, 0, none, none, [], none, 0, .zero⟩

/-- Joins what an observation tells to what is known. -/
def refine {α : Type} (join : α → α → α) : Option α → Option α → Option α
  | some a, some b => some (join a b)
  | a, none => a
  | none, b => b

/-- Counts a value among the distinct values and numbers. Nulls do not count. -/
def record (t : Tally) (v : Value) : Tally :=
  if v.isNull then t
  else
    let key := v.key
    { t with
      range := match v.asDouble? with
        | some x => some (NumericRange.widen x t.range)
        | none => t.range
      distinct :=
        if t.distinct.any fun e => e.1 == key then t.distinct else t.distinct ++ [(key, v)] }

/-- Counts a leaf of an array. -/
def recordLeaf (t : Tally) (v : Value) : Tally :=
  { t with element := refine ElementType.join t.element (ElementType.ofValue? v) }.record v

/-- Counts a string and, if wanted, its shapes. -/
def recordString (t : Tally) (detectPatterns : Bool) (s : String) : Tally :=
  { t with
    strings := t.strings + 1
    shaped := if detectPatterns then t.shaped.add s else t.shaped }.record (.string s)

/-- **Adds the value of a document.** -/
def observe (detectPatterns : Bool) (t : Tally) (v : Value) : Tally :=
  let t := { t with
    present := t.present + 1
    nulls := t.nulls + v.isNull.toNat
    type := refine AttributeType.join t.type (AttributeType.ofValue? v) }
  match v with
  | .array items => (Value.leavesOf items).foldl recordLeaf t
  | .string s => t.recordString detectPatterns s
  | v => t.record v

/-- The leaves of an attribute are numbers, so that it has a range. -/
def isNumeric (type : AttributeType) (element : Option ElementType) : Bool :=
  match type with
  | .number => true
  | .array => element == some .integer || element == some .float
  | _ => false

/-- The shapes that enough of the strings have. -/
def frequentPatterns (t : Tally) : List StringPattern :=
  StringPattern.all.filter fun p => p.tenths * t.strings ≤ 10 * t.shaped.get p

/-- Sums up what was seen in a sample of `total` documents. -/
def summary (t : Tally) (name : String) (total : Nat) (options : DiscoveryOptions) : Attribute :=
  let type := t.type.getD .mixed
  let values := t.distinct.map Prod.snd
  let patterns :=
    if options.detectPatterns && type = .string && 0 < t.strings then t.frequentPatterns else []
  { name, type
    uniqueValues :=
      if type ≠ .object ∧ values.length ≤ options.maxUniqueValues then some (Value.sort values)
      else none
    range := if isNumeric type t.element then t.range else none
    sampleValues := values.take options.maxSampleValues
    frequency := t.present
    totalDocuments := total
    isNullable := 0 < t.nulls || t.present < total
    element := if type = .array then t.element else none
    patterns := if patterns.isEmpty then none else some patterns }

end Tally

/-- Adds the attributes of a document to the tallies. -/
def tallyDocument (detectPatterns : Bool) (tallies : Record Tally) (d : Document) : Record Tally :=
  d.bag.foldl
    (fun tallies e =>
      tallies.insert e.1 (((tallies.get? e.1).getD .empty).observe detectPatterns e.2))
    tallies

/-- **The profiles of all attributes** of some documents, by falling frequency and then by name. -/
def discover (docs : List Document) (options : DiscoveryOptions) : List Attribute :=
  let tallies := docs.foldl (tallyDocument options.detectPatterns) []
  (tallies.map fun e => e.2.summary e.1 docs.length options).mergeSort
    fun a b => b.frequency ≤ a.frequency

end DocQuery
