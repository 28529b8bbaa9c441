import DocQuery.Numeric.Digits
import DocQuery.Shell.Style

/-!
# Arguments of the shell

* `DocQuery.Arguments` – what the arguments of the command line set;
* `DocQuery.ShellOption` – the options that take a value;
* `DocQuery.Invocation`, `Invocation.ofArguments` – **what the shell is asked to do**. Arguments are
  read from the left, and the first that asks for help or the version, or that is wrong, decides;
* `Invocation.helpText`, `Invocation.versionText` – the texts that can be asked for.

A value stands behind its option as an argument of its own, or is attached to it. An argument of its
own that begins with a hyphen is an option, not a value, unless it is a hyphen alone. No option may
be given twice.
-/

namespace DocQuery

/-- What the arguments set. -/
structure Arguments where
  /-- The file with the documents. -/
  data : Option String
  ns : Option String
  pageSize : Option Nat
  /-- The file with the settings. -/
  config : Option String
  deriving DecidableEq, Repr

namespace Arguments

def none : Arguments := ⟨.none, .none, .none, .none⟩

def nsOrDefault (a : Arguments) : String := a.ns.getD "default"

def configOrDefault (a : Arguments) : String := a.config.getD "vecscope.toml"

end Arguments

/-- An option that takes a value. -/
inductive ShellOption where
  | data
  | ns
  | pageSize
  | config
  deriving DecidableEq, Repr

/-- What the shell is asked to do. -/
inductive Invocation where
  | run (a : Arguments)
  | help
  | version
  /-- The arguments are wrong. -/
  | misuse
  deriving DecidableEq, Repr

/-- What one argument means. -/
inductive ArgumentMeaning where
  /-- An option whose value is the next argument. -/
  | option (o : ShellOption)
  /-- An option with its value. -/
  | setting (o : ShellOption) (value : String)
  | help
  | version
  /-- No option follows. -/
  | endOfOptions
  | wrong
  deriving DecidableEq, Repr

namespace ShellOption

def ofLongName? (name : List Char) : Option ShellOption :=
  if name = "data".toList then some .data
  else if name = "namespace".toList then some .ns
  else if name = "page-size".toList then some .pageSize
  else if name = "config".toList then some .config
  else none

def ofLetter? (c : Char) : Option ShellOption :=
  match c with
  | 'd' => some .data
  | 'n' => some .ns
  | 'c' => some .config
  | _ => none

/-- Puts a value that is no empty path into an unset field. -/
def path? (old : Option String) (value : String) : Option String :=
  if old.isSome || value.isEmpty then none else some value

/-- The arguments with one more setting, unless it was set before or the value does not suit. -/
def set? (o : ShellOption) (value : String) (a : Arguments) : Option Arguments :=
  match o with
  | .data => (path? a.data value).map fun p => { a with data := some p }
  | .ns => if a.ns.isSome then none else some { a with ns := some value }
  | .pageSize =>
    if a.pageSize.isSome then none
    else (readNat? (2 ^ 64) value.toList).map fun n => { a with pageSize := some n }
  | .config => (path? a.config value).map fun p => { a with config := some p }

end ShellOption

namespace ArgumentMeaning

/-- An argument that begins with two hyphens. -/
def ofLong (cs : List Char) : ArgumentMeaning :=
  let name := cs.takeWhile (· != '=')
  match ShellOption.ofLongName? name, cs.dropWhile (· != '=') with
  | some o, [] => .option o
  | some o, _ :: value => .setting o (String.ofList value)
  | none, value =>
    if !value.isEmpty then .wrong
    else if name = "help".toList then .help
    else if name = "version".toList then .version
    else .wrong

/-- An argument that begins with one hyphen. -/
def ofShort : List Char → ArgumentMeaning
  | [] => .wrong
  | c :: cs =>
    match ShellOption.ofLetter? c, cs with
    | some o, [] => .option o
    | some o, '=' :: value => .setting o (String.ofList value)
    | some o, value => .setting o (String.ofList value)
    | none, _ => if c = 'h' then .help else if c = 'V' then .version else .wrong

/-- The meaning of an argument where an option may stand. -/
def of (argument : String) : ArgumentMeaning :=
  match argument.toList with
  | ['-', '-'] => .endOfOptions
  | '-' :: '-' :: cs => ofLong cs
  | '-' :: cs => ofShort cs
  | _ => .wrong

end ArgumentMeaning

namespace Invocation

/-- An argument can be the value of the option in front of it. -/
def isValue (argument : String) : Bool :=
  match argument.toList with
  | '-' :: _ :: _ => false
  | _ => true

/-- Reads arguments from the left, with what the earlier ones set and an option that waits for its
value. -/
def read (a : Arguments) : Option ShellOption → List String → Invocation
  | none, [] => .run a
  | some _, [] => .misuse
  | some o, argument :: rest =>
    if isValue argument then
      match o.set? argument a with
      | some b => read b none rest
      | none => .misuse
    else .misuse
  | none, argument :: rest =>
    match ArgumentMeaning.of argument with
    | .option o => read a (some o) rest
    | .setting o value =>
      match o.set? value a with
      | some b => read b none rest
      | none => .misuse
    | .help => .help
    | .version => .version
    | .endOfOptions => if rest.isEmpty then .run a else .misuse
    | .wrong => .misuse

/-- What the shell is asked to do. -/
def ofArguments (arguments : List String) : Invocation := read .none none arguments

def versionText : String := "vscope 0.1.0"

/-- A heading of the help. -/
def heading (color : Bool) (s : String) : String :=
  if color then "\x1b[1m\x1b[4m" ++ s ++ "\x1b[0m" else s

/-- The lines of the help. -/
def helpText (color : Bool) : List String :=
  let literal := Style.bold.paintString color
  ["Browse and filter a vector database namespace",
    "",
    heading color "Usage:" ++ " " ++ literal "vscope" ++ " [OPTIONS]",
    "",
    heading color "Options:",
    "  " ++ literal "-d" ++ ", " ++ literal "--data" ++
      " <DATA>            JSON array of documents to load into the namespace",
    "  " ++ literal "-n" ++ ", " ++ literal "--namespace" ++
      " <NAMESPACE>  Namespace to open [default: default]",
    "      " ++ literal "--page-size" ++
      " <PAGE_SIZE>  Rows per page (overrides the config file)",
    "  " ++ literal "-c" ++ ", " ++ literal "--config" ++
      " <CONFIG>        Engine config file [default: vecscope.toml]",
    "  " ++ literal "-h" ++ ", " ++ literal "--help" ++ "                   Print help",
    "  " ++ literal "-V" ++ ", " ++ literal "--version" ++ "                Print version"]

end Invocation

end DocQuery
