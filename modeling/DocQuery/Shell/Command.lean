import DocQuery.Filter.Active
import DocQuery.Numeric.Digits
import DocQuery.Request.Query

/-!
# Commands of the shell

* `DocQuery.Command` – the commands;
* `Command.parse` – **the command in a text**: a word and what follows it;
* `Command.ofLine?` – the command in a line. A line that does not begin with a colon is a search, and
  a blank line is nothing.

What cannot be understood is a command too, `Command.unknown`.
-/

namespace DocQuery

/-- A command. -/
inductive Command where
  | quit
  | help
  | filter (name : String) (operator : Operator) (value : String)
  | removeFilter (id : Nat)
  | clearFilters
  | filters
  | search (text : String)
  | sort (rank : RankBy)
  | next
  | previous
  | page (n : Nat)
  /-- Appends the next page. -/
  | more
  | pageSize (n : Nat)
  /-- Shows the attributes; with `force` from a new sample. -/
  | attributes (force : Bool)
  /-- Loads the page past the cache. -/
  | refresh
  | history
  /-- Brings back the `n`-th past query, counted from one. -/
  | restore (n : Nat)
  | namespaceName
  | use (ns : String)
  | delete (words : List String)
  | stats
  | clearCache
  | unknown (text : String)

namespace Command

/-- Cuts at the first white space; without white space nothing follows. -/
def cut (cs : List Char) : List Char × List Char := (splitSpace cs).getD (cs, [])

/-- An attribute, an operator and a value, each one white space after the other. The value may be
empty and have white space in it. -/
def parseFilter? (rest : List Char) : Option Command := do
  let (name, rest) ← splitSpace rest
  let (operator, value) := cut rest
  let op ← Operator.read? (String.ofList operator)
  if name.isEmpty then none
  else some (.filter (String.ofList name) op (trimString (String.ofList value)))

/-- The direction that follows an attribute; without a word it is ascending. -/
def direction? : List (List Char) → Option Direction
  | [] => some .asc
  | w :: _ => if w = "asc".toList then some .asc else if w = "desc".toList then some .desc else none

/-- An attribute and perhaps a direction. -/
def parseSort? (rest : List Char) : Option Command :=
  match words rest with
  | [] => none
  | name :: others => (direction? others).map fun d => .sort ⟨String.ofList name, d⟩

/-- A number of 64 bits that fills the text. -/
def number? (rest : List Char) : Option Nat := readNat? (2 ^ 64) rest

/-- The command with a given name, if what follows suits it. -/
def named? (name : String) (rest : List Char) : Option Command :=
  match name with
  | "q" | "quit" | "exit" => some .quit
  | "h" | "help" | "?" => some .help
  | "f" | "filter" => parseFilter? rest
  | "rm" | "unfilter" => (number? rest).map .removeFilter
  | "c" | "clear" => some .clearFilters
  | "fl" | "filters" => some .filters
  | "s" | "search" => some (.search (String.ofList rest))
  | "sort" => parseSort? rest
  | "n" | "next" => some .next
  | "p" | "prev" => some .previous
  | "page" => (number? rest).map .page
  | "m" | "more" => some .more
  | "size" => (number? rest).bind fun n => if n = 0 then none else some (.pageSize n)
  | "a" | "attrs" => some (.attributes false)
  | "a!" | "attrs!" => some (.attributes true)
  | "r" | "refresh" => some .refresh
  | "hist" | "history" => some .history
  | "restore" => (number? rest).map .restore
  | "ns" | "namespace" =>
    some (if rest.isEmpty then .namespaceName else .use (String.ofList rest))
  | "use" => if rest.isEmpty then none else some (.use (String.ofList rest))
  | "del" | "delete" =>
    if rest.isEmpty then none else some (.delete ((words rest).map String.ofList))
  | "stats" => some .stats
  | "cache" => if rest = "clear".toList then some .clearCache else none
  | _ => none

/-- The command in a text without the colon. -/
def parse (text : String) : Command :=
  let typed := trim text.toList
  let (name, rest) := cut typed
  (named? (String.ofList name) (trim rest)).getD (.unknown (String.ofList typed))

/-- The command in a line. -/
def ofLine? (line : String) : Option Command :=
  match trim line.toList with
  | [] => none
  | ':' :: rest => some (parse (String.ofList rest))
  | text => some (.search (String.ofList text))

end Command

end DocQuery
