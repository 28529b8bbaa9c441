import DocQuery.Calendar
import DocQuery.Engine.State
import DocQuery.History
import DocQuery.Shell.Elapsed
import DocQuery.Shell.Table

/-!
# Reports

What the shell prints about pages, attributes and past queries.

* `DocQuery.Line` – a printed line. The time that a command took is known only when it is printed, so
  that a line for it stands in its place; `Line.print` – the text of a line;
* `Report.page` – the rows of a page and where it stands;
* `Report.attributes` – a line for each attribute, with what is known of it;
* `Report.history` – the past queries, numbered from one.

Every report ends with an empty line.
-/

namespace DocQuery

/-- A printed line. -/
inductive Line where
  | text (s : String)
  /-- The time that the command took. -/
  | elapsed
  deriving DecidableEq, Repr

/-- The text of a line, when the command took the given number of nanoseconds. -/
def Line.print (color : Bool) (nanoseconds : Nat) : Line → String
  | .text s => s
  | .elapsed => Style.dimmed.paintString color ("(" ++ elapsedText nanoseconds ++ ")")

namespace Report

/-- An empty line. -/
def blank : Line := .text ""

/-- A remark. -/
def remark (color : Bool) (s : String) : Line := .text (Style.dimmed.paintString color s)

/-! ### Pages -/

/-- The most columns of a page. -/
def maxColumns : Nat := 6

/-- The rows of a page. -/
def rows (color : Bool) (s : EngineState) : List Line :=
  if s.documents.isEmpty then [remark color "(no documents)"]
  else (Table.lines color (visibleColumns s.attributes maxColumns) s.documents).map .text

/-- The place of a page among the pages. -/
def position (color : Bool) (s : EngineState) : String :=
  "Page " ++ Style.bold.paintString color (toString s.query.pages.page) ++ " of " ++
    toString (s.pageCount?.getD 1) ++ " (" ++ toString s.documents.length ++ " row(s), " ++
    (s.total.map toString).getD "?" ++ " total)"

/-- The page that is shown. -/
def page (color : Bool) (s : EngineState) : List Line :=
  rows color s ++ [blank, .text (position color s), .elapsed, blank]

/-! ### Attributes -/

/-- The most values that are listed for an attribute. -/
def maxValues : Nat := 5

/-- The type of an attribute, for arrays with the type of their items. -/
def typeText (a : Attribute) : String :=
  a.type.name ++ match a.element with
    | some e => "<" ++ e.name ++ ">"
    | none => ""

/-- The first of some values. -/
def valuesText (vs : List Value) : String :=
  "[" ++ joinWith ", " ((vs.take maxValues).map Value.display) ++
    (if maxValues < vs.length then ", …" else "") ++ "]"

/-- A range of numbers. -/
def rangeText (r : NumericRange) : String :=
  r.least.text .display ++ ".." ++ r.greatest.text .display

/-- What is known of an attribute. -/
def details (a : Attribute) : List String :=
  [toString a.frequency ++ "/" ++ toString a.totalDocuments] ++
    (if a.isNullable then ["nullable"] else []) ++
    (a.range.map rangeText).toList ++
    (a.uniqueValues.map valuesText).toList ++
    (a.patterns.map fun ps => joinWith "," (ps.map StringPattern.name)).toList

/-- The width of the names: the most bytes in a name. -/
def nameWidth (attributes : List Attribute) : Nat :=
  attributes.foldl (fun w a => max w a.name.utf8ByteSize) 0

/-- The line for an attribute. -/
def attributeLine (color : Bool) (width : Nat) (a : Attribute) : Line :=
  .text ("  " ++ String.ofList (Style.bold.paintWide color width a.name.toList) ++ "  " ++
    Style.cyan.paintString color (typeText a) ++ "  " ++
    Style.dimmed.paintString color (joinWith "  " (details a)))

/-- The attributes of a namespace. -/
def attributes (color : Bool) (as : List Attribute) : List Line :=
  (if as.isEmpty then [remark color "(no attributes discovered)"]
    else as.map (attributeLine color (nameWidth as))) ++ [blank]

/-! ### Past queries -/

/-- A number in three places, with a bracket behind it. -/
def numberText (n : Nat) : String :=
  let digits := toString n
  String.ofList (List.replicate (3 - digits.length) ' ') ++ digits ++ ")"

/-- The line for a past query. -/
def entryLine (color : Bool) (n : Nat) (e : HistoryEntry) : Line :=
  .text (Style.dimmed.paintString color (numberText n) ++ " " ++ e.description ++ "  " ++
    Style.dimmed.paintString color (clockText e.time))

/-- The past queries. -/
def history (color : Bool) (entries : List HistoryEntry) : List Line :=
  (if entries.isEmpty then [remark color "(no history)"]
    else entries.zipIdx.map fun (e, i) => entryLine color (i + 1) e) ++ [blank]

end Report

end DocQuery
