import DocQuery.Engine.Client
import DocQuery.Shell.Command
import DocQuery.Shell.Report

/-!
# Sessions of the shell

* `DocQuery.Session` – an engine that is driven by lines;
* `Session.load`, `Session.turn` – loads a page and reports on it;
* `Session.execute` – what a command does, and what is printed;
* `Session.handle` – the same for a line; **a line that quits gives nothing**;
* `Session.transcript` – everything that is printed for some lines.

Nothing happens between two lines, and no call waits.
-/

namespace DocQuery

/-- An engine that is driven by lines. -/
structure Session where
  client : Client
  /-- Text is styled. -/
  color : Bool

/-- The id that a word names: a number if it can be one. -/
def Value.ofWord (word : String) : Value :=
  match readInt64? word.toList with
  | some i => .int i
  | none => .string word

namespace Session

/-- What a session has become, and what is printed. -/
abbrev Reply := Session × List Line

def state (s : Session) : EngineState := s.client.engine.state

/-- Changes the engine. -/
def modify (s : Session) (f : Engine → Engine) : Session := { s with client := s.client.modify f }

/-- Prints something and leaves the session as it is. -/
def say (s : Session) (lines : List Line) : Reply := (s, lines)

/-- A text in a style. -/
def paint (s : Session) (style : Style) (text : String) : String := style.paintString s.color text

/-- The lines for a message of a failure. -/
def failureLines (s : Session) (message : String) : List Line :=
  [.text (s.paint .boldRed "Error" ++ ": " ++ message), Report.blank]

/-! ### Loads -/

/-- Reports on a load. A failure is forgotten once it was printed. -/
def report (s : Session) (outcome : LoadOutcome) : Reply :=
  match outcome with
  | .failed => (s.modify Engine.clearError, s.failureLines (s.state.error.getD ""))
  | .skipped => s.say [Report.remark s.color "(a load is already running)"]
  | .cached =>
    s.say ([Report.blank, Report.remark s.color "(cached)"] ++ Report.page s.color s.state)
  | .loaded | .stale => s.say ([Report.blank] ++ Report.page s.color s.state)

/-- Loads a page. -/
def load (s : Session) (options : LoadOptions) : Reply :=
  let (client, outcome) := s.client.load options
  { s with client }.report outcome

/-- Loads the current page. -/
def reload (s : Session) : Reply := s.load .default

/-- Turns to another page, if there is one. -/
def turn (s : Session) (options : Except EngineFault LoadOptions) : Reply :=
  match options with
  | .ok options => s.load options
  | .error fault => s.say (s.failureLines fault.failure.message)

/-- Prints something and then loads the current page. -/
def sayAndReload (s : Session) (lines : List Line) : Reply :=
  let (s, report) := s.reload
  (s, lines ++ report)

/-! ### Commands -/

/-- The number of a filter. -/
def filterNumber (s : Session) (id : Nat) : String := s.paint .cyan ("#" ++ toString id)

/-- The search text and the filters. -/
def filterLines (s : Session) : List Line :=
  let q := s.state.query
  (if (trimString q.search).isEmpty then []
    else [Line.text ("search: " ++ s.paint .yellow q.search)]) ++
    (if q.filters.isEmpty then [Report.remark s.color "(no filters)"]
      else q.filters.map fun f => .text (s.filterNumber f.id ++ " " ++ f.describe)) ++
    [Report.blank]

/-- How much of a cache is used. -/
def statsLine (name : String) (stats : CacheStats) : Line :=
  .text (name ++ ": " ++ toString stats.entries ++ "/" ++ toString stats.capacity ++ " entries, " ++
    toString stats.hits ++ " hit(s)")

/-- Commands of the same kind with the text behind them. -/
def helpLine (s : Session) (commands : List String) (text : String) : Line :=
  .text ("  " ++ joinWith "  " (commands.map (s.paint .cyan)) ++ text)

/-- The list of all commands. -/
def helpLines (s : Session) : List Line :=
  [Report.blank, .text (s.paint .bold "Commands:"),
    s.helpLine [":f"] " <attr> <op> <value>   Add a filter (=, !=, >, in, matches, ...)",
    s.helpLine [":rm"] " <id>                 Remove a filter",
    s.helpLine [":c", ":clear"] "               Remove all filters",
    s.helpLine [":fl"] "                      List filters",
    s.helpLine [":s"] " <text>                Search ids (a bare line does the same)",
    s.helpLine [":sort"] " <attr> [asc|desc]   Sort",
    s.helpLine [":n", ":p", ":page"] " <N>        Next, previous, jump to page",
    s.helpLine [":m"] "                       Append the next page",
    s.helpLine [":size"] " <N>                Rows per page",
    s.helpLine [":a", ":a!"] "                 Show attributes (resample with !)",
    s.helpLine [":r"] "                       Reload, bypassing the cache",
    s.helpLine [":hist", ":restore"] " <N>       Show or restore past queries",
    s.helpLine [":ns", ":use"] " <name>          Show or switch namespace",
    s.helpLine [":del"] " <id...>             Delete documents",
    s.helpLine [":stats"] "                   Cache statistics",
    s.helpLine [":cache clear"] "             Drop cached pages and schemas",
    s.helpLine [":q", ":quit"] "                Exit",
    Report.blank]

/-- Deletes the documents with some ids. -/
def delete (s : Session) (ids : List Value) : Reply :=
  match PendingWrite.delete s.client.engine ids with
  | .error fault => s.say (s.failureLines fault.failure.message)
  | .ok w =>
    match s.client.write w with
    | (client, .error f) => ({ s with client }, s.failureLines f.message)
    | (client, .ok n) =>
      { s with client }.sayAndReload
        [.text (s.paint .boldGreen "Deleted" ++ " (" ++ toString n ++ " row(s))")]

/-- Brings back the `n`-th past query, counted from one. -/
def restore (s : Session) (n : Nat) : Reply :=
  match n, s.client.engine.pastQueries[n - 1]? with
  | _ + 1, some entry => (s.modify (·.restore entry)).reload
  | n, _ => s.say [.text ("No history entry " ++ toString n)]

/-- **What a command does**, other than to quit. -/
def execute (s : Session) : Command → Reply
  | .quit => s.say []
  | .help => s.say s.helpLines
  | .filter name operator value =>
    let (id, engine) := s.client.engine.addFilter name operator value
    (s.modify fun _ => engine).sayAndReload [.text ("Added filter " ++ s.filterNumber id)]
  | .removeFilter id =>
    match s.client.engine.removeFilter id with
    | (true, engine) => (s.modify fun _ => engine).reload
    | (false, _) => s.say [.text ("No filter #" ++ toString id)]
  | .clearFilters => (s.modify Engine.clearFilters).reload
  | .filters => s.say s.filterLines
  | .search text => (s.modify (·.setSearch text)).reload
  | .sort rank => (s.modify (·.setSort rank)).reload
  | .next => s.turn s.client.engine.nextPage
  | .previous => s.turn s.client.engine.previousPage
  | .page n => s.turn (s.client.engine.goToPage n)
  | .more =>
    match s.client.engine.more with
    | some options => s.load options
    | none => s.say [Report.remark s.color "(no more documents)"]
  | .pageSize n => s.load { LoadOptions.default with limit := some n }
  | .attributes force =>
    let (client, attributes) := s.client.discover force
    ({ s with client }, Report.blank :: Report.attributes s.color attributes)
  | .refresh => s.load .forced
  | .history => s.say (Report.history s.color s.client.engine.pastQueries)
  | .restore n => s.restore n
  | .namespaceName => s.say [.text ("Current namespace: " ++ s.paint .boldCyan s.state.ns)]
  | .use ns =>
    (s.modify (·.setNamespace ns)).sayAndReload
      [.text ("Switched to namespace: " ++ s.paint .boldCyan ns)]
  | .delete words => s.delete (words.map Value.ofWord)
  | .stats =>
    let cache := s.client.engine.cache
    s.say [statsLine "queries" cache.queries.stats, statsLine "schemas" cache.schemas.stats]
  | .clearCache => (s.modify Engine.clearCache, [.text "Cache cleared"])
  | .unknown text =>
    s.say [.text ("Unknown command: " ++ s.paint .red text ++ " (type :h for help)")]

/-! ### Lines -/

/-- What a line does; nothing if it quits. -/
def handle (s : Session) (line : String) : Option Reply :=
  match Command.ofLine? line with
  | none => some (s.say [])
  | some .quit => none
  | some c => some (s.execute c)

/-- What is printed at the end. -/
def farewell : List Line := [.text "Goodbye!"]

/-- Everything that is printed for some lines. -/
def transcript (s : Session) : List String → List Line
  | [] => farewell
  | line :: rest =>
    match s.handle line with
    | none => farewell
    | some (s, lines) => lines ++ transcript s rest

/-- A session at a point in time, in nanoseconds since the beginning of 1970. Time does not go
back. -/
def wait (s : Session) (now : Nat) : Session :=
  s.modify fun e => { e with clock := max e.clock now }

end Session

end DocQuery
