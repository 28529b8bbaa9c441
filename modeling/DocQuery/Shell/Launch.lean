import DocQuery.Config.File
import DocQuery.Shell.Arguments
import DocQuery.Shell.Session

/-!
# Starting the shell

* `DocQuery.Surroundings` – the files, the variables of the environment and the time;
* `DocQuery.Launch` – what starting leads to: a session, or an end with an exit code;
* `Launch.start` – **starts the shell**: reads the settings and the documents, opens the namespace
  and loads its first page;
* `Launch.files` – the files that are needed for that.
-/

namespace DocQuery

/-- What the shell finds when it starts. -/
structure Surroundings where
  file : String → FileContent
  environment : String → Option String
  /-- Text is styled. -/
  color : Bool
  /-- Nanoseconds since the beginning of 1970. -/
  now : Nat

/-- What starting the shell leads to, and what is printed. -/
inductive Launch where
  | session (lines : List Line) (s : Session)
  | ended (lines : List Line) (exitCode : Nat)

/-- Settings with another page size, of at least one row. -/
def EngineConfig.withPageSize (c : EngineConfig) : Option Nat → EngineConfig
  | none => c
  | some n => { c with pageSize := max n 1, maxOverfetch := max c.maxOverfetch (max n 1) }

namespace Launch

/-- The connection of the shell. -/
def connection : String := "local"

/-- The greeting. -/
def banner (color : Bool) : List Line :=
  [Report.blank, .text (Style.bold.paintString color "vecscope Interactive Shell"),
    .text ("Type " ++ Style.cyan.paintString color ":h" ++ " for help, " ++
      Style.cyan.paintString color ":q" ++ " to quit"),
    Report.blank]

/-- The files that are needed. -/
def files (environment : String → Option String) (arguments : List String) : List String :=
  match Invocation.ofArguments arguments with
  | .run a => EngineConfig.path environment a.configOrDefault :: a.data.toList
  | _ => []

/-- A backend with the documents of a file, if one is given. -/
def documents? (w : Surroundings) (a : Arguments) : Option (Backend × List Line) :=
  match a.data with
  | none => some (.empty, [])
  | some path =>
    match w.file path with
    | .text s =>
      (readDocuments? s).map fun ds =>
        (Backend.empty.insert a.nsOrDefault ds,
          [.text ("Loaded " ++ Style.bold.paintString w.color (toString ds.length) ++
            " document(s) from " ++ path)])
    | _ => none

/-- Opens the namespace and loads its first page. -/
def openNamespace (w : Surroundings) (config : EngineConfig) (ns : String) (backend : Backend)
    (lines : List Line) : Launch :=
  let s : Session := ⟨⟨.start config connection ns none, backend⟩, w.color⟩
  let (s, report) := (s.wait w.now).reload
  .session
    (lines ++ [.text ("Opened namespace " ++ Style.boldCyan.paintString w.color ns), Report.blank] ++
      report) s

/-- Runs the shell with arguments that are right. -/
def run (w : Surroundings) (a : Arguments) : Launch :=
  match EngineConfig.load (w.file (EngineConfig.path w.environment a.configOrDefault)) w.environment with
  | .error _ => .ended [] 1
  | .ok config =>
    match documents? w a with
    | none => .ended (banner w.color) 1
    | some (backend, lines) =>
      openNamespace w (config.withPageSize a.pageSize) a.nsOrDefault backend
        (banner w.color ++ lines)

/-- Starts the shell. -/
def start (w : Surroundings) (arguments : List String) : Launch :=
  match Invocation.ofArguments arguments with
  | .run a => run w a
  | .help => .ended ((Invocation.helpText w.color).map .text) 0
  | .version => .ended [.text Invocation.versionText] 0
  | .misuse => .ended [] 2

end Launch

end DocQuery
