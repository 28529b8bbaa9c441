import DocQuery.Discovery.Profile
import DocQuery.Numeric.Digits

/-!
# Settings of an engine

* `DocQuery.EngineConfig` – the settings, each with a default;
* `EngineConfig.decode?` – settings from a tree, in which any of them may be absent, and
  `EngineConfig.toJson` – the tree of settings;
* `EngineConfig.override` – variables of the environment that take precedence;
* `EngineConfig.check` – **what settings have to satisfy**, or the first flaw
  (`DocQuery.ConfigFlaw`).
-/

namespace DocQuery

/-- The settings of an engine. -/
structure EngineConfig where
  /-- Rows on a page. -/
  pageSize : Nat
  /-- Seconds for which pages and schemas are cached. -/
  cacheTtlSecs : Nat
  /-- Entries of a cache before the oldest one is dropped. -/
  cacheMaxEntries : Nat
  /-- Milliseconds without typing before a search is run. -/
  searchDebounceMs : Nat
  /-- Failed connections before giving up. -/
  maxInitAttempts : Nat
  /-- The most rows that are asked for to cut a page from them. -/
  maxOverfetch : Nat
  /-- Past queries that are kept for a namespace. -/
  historyLimit : Nat
  /-- The consistency asked for with every query. -/
  consistency : Option Consistency
  discovery : DiscoveryOptions
  deriving DecidableEq, Repr

/-- What is wrong with settings. -/
inductive ConfigFlaw where
  | unreadable
  | malformed
  | noRows
  | overfetchBelowPage (maxOverfetch pageSize : Nat)
  | noSample
  deriving DecidableEq, Repr

def ConfigFlaw.failure : ConfigFlaw → Failure
  | .unreadable => .config "the settings cannot be read"
  | .malformed => .config "the settings are malformed"
  | .noRows => .config "page_size must be at least 1"
  | .overfetchBelowPage maxOverfetch pageSize =>
    .config s!"max_overfetch ({maxOverfetch}) must be at least page_size ({pageSize})"
  | .noSample => .config "discovery.sample_size must be at least 1"

namespace EngineConfig

def default : EngineConfig where
  pageSize := 50
  cacheTtlSecs := 300
  cacheMaxEntries := 500
  searchDebounceMs := 500
  maxInitAttempts := 3
  maxOverfetch := 1200
  historyLimit := 50
  consistency := none
  discovery := .default

/-- The names of the settings. -/
def names : List String :=
  ["page_size", "cache_ttl_secs", "cache_max_entries", "search_debounce_ms", "max_init_attempts",
    "max_overfetch", "history_limit", "consistency", "discovery"]

/-- Decodes settings; those that are absent have their defaults. How a consistency is written
depends on the format. -/
def decode? (consistency? : Json → Option Consistency) (j : Json) : Option EngineConfig :=
  match Json.fields? names j with
  | some [pageSize, ttl, entries, debounce, attempts, overfetch, history, consistency, discovery] =>
    do
    let pageSize ← Json.orDefault? default.pageSize Json.word? pageSize
    let cacheTtlSecs ← Json.orDefault? default.cacheTtlSecs Json.word? ttl
    let cacheMaxEntries ← Json.orDefault? default.cacheMaxEntries Json.word? entries
    let searchDebounceMs ← Json.orDefault? default.searchDebounceMs Json.word? debounce
    let maxInitAttempts ←
      Json.orDefault? default.maxInitAttempts (Json.natural? (2 ^ 32)) attempts
    let maxOverfetch ← Json.orDefault? default.maxOverfetch Json.word? overfetch
    let historyLimit ← Json.orDefault? default.historyLimit Json.word? history
    let consistency ← Json.optional? consistency? consistency
    let discovery ← Json.orDefault? default.discovery DiscoveryOptions.ofJson? discovery
    return ⟨pageSize, cacheTtlSecs, cacheMaxEntries, searchDebounceMs, maxInitAttempts,
      maxOverfetch, historyLimit, consistency, discovery⟩
  | _ => none

/-- Encodes settings. -/
def toJson (c : EngineConfig) : Json :=
  .object [("page_size", .int c.pageSize), ("cache_ttl_secs", .int c.cacheTtlSecs),
    ("cache_max_entries", .int c.cacheMaxEntries),
    ("search_debounce_ms", .int c.searchDebounceMs),
    ("max_init_attempts", .int c.maxInitAttempts), ("max_overfetch", .int c.maxOverfetch),
    ("history_limit", .int c.historyLimit),
    ("consistency", (c.consistency.map fun x => .string x.name).getD .null),
    ("discovery", c.discovery.toJson)]

/-- Decodes settings from JSON. -/
def ofJson? : Json → Option EngineConfig := decode? (Json.choice? Consistency.ofName?)

/-- The number in a text, in place of a setting. What is no number of 64 bits is passed over. -/
def overrideWith (setting : Nat) (text : Option String) : Nat :=
  ((text.map String.toList).bind (readNat? (2 ^ 64))).getD setting

/-- Settings with the variables of the environment, which take precedence. -/
def override (environment : String → Option String) (c : EngineConfig) : EngineConfig :=
  { c with
    pageSize := overrideWith c.pageSize (environment "VECSCOPE_PAGE_SIZE")
    cacheTtlSecs := overrideWith c.cacheTtlSecs (environment "VECSCOPE_CACHE_TTL_SECS")
    searchDebounceMs := overrideWith c.searchDebounceMs (environment "VECSCOPE_DEBOUNCE_MS") }

/-- Settings that can be used, or their first flaw. -/
def check (c : EngineConfig) : Except ConfigFlaw EngineConfig :=
  if c.pageSize = 0 then .error .noRows
  else if c.maxOverfetch < c.pageSize then .error (.overfetchBelowPage c.maxOverfetch c.pageSize)
  else if c.discovery.sampleSize = 0 then .error .noSample
  else .ok c

/-- The lifetime of cached entries in milliseconds. -/
def cacheTtlMs (c : EngineConfig) : Nat := c.cacheTtlSecs * 1000

end EngineConfig

end DocQuery
