import DocQuery.Config
import DocQuery.Toml.Reader

/-!
# Settings in a file

Settings are written in TOML. The variables of the environment take precedence over the file, and one
of them names the file.

* `DocQuery.FileContent` – what a path leads to;
* `EngineConfig.ofToml` – the settings in a text;
* `EngineConfig.path`, `EngineConfig.load` – **the settings in force**: those of the file, or the
  defaults if there is none, with the variables of the environment. Both the file alone and the
  result have to pass `EngineConfig.check`.
-/

namespace DocQuery

/-- What a path leads to. -/
inductive FileContent where
  | missing
  /-- Something that is no text file, or cannot be read. -/
  | unreadable
  | text (s : String)
  deriving DecidableEq, Repr

/-- A consistency in TOML: its name, or a table that has the name alone and nothing under it. -/
def Consistency.ofToml? : Json → Option Consistency
  | .string s => ofName? s
  | .object [(s, .object [])] => ofName? s
  | .object [(s, .array [])] => ofName? s
  | _ => none

namespace EngineConfig

/-- The settings in a text. -/
def ofToml (text : String) : Except ConfigFlaw EngineConfig :=
  match (Toml.read? text).bind (decode? Consistency.ofToml?) with
  | some c => c.check
  | none => .error .malformed

/-- The variables that are looked at. -/
def variableNames : List String :=
  ["VECSCOPE_CONFIG", "VECSCOPE_PAGE_SIZE", "VECSCOPE_CACHE_TTL_SECS", "VECSCOPE_DEBOUNCE_MS"]

/-- The file in which the settings are. -/
def path (environment : String → Option String) (path : String) : String :=
  (environment "VECSCOPE_CONFIG").getD path

/-- The settings in force. -/
def load (content : FileContent) (environment : String → Option String) :
    Except ConfigFlaw EngineConfig := do
  let c ← match content with
    | .missing => .ok default
    | .unreadable => .error .unreadable
    | .text s => ofToml s
  (c.override environment).check

end EngineConfig

end DocQuery
