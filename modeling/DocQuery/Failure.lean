/-!
# Failures

What can go wrong while a namespace is queried or changed. A failure has a kind and a message; the
modules that raise failures keep their causes as types of their own and word them there.

* `DocQuery.Failure` – the nine kinds with their texts;
* `Failure.kind`, `Failure.message`, `Failure.describe` – the short name, the bare text and the
  full text;
* `Failure.isTransient` – whether the same call could succeed later.
-/

namespace DocQuery

/-- Why a call failed. -/
inductive Failure where
  | io (text : String)
  | network (text : String)
  | backend (text : String)
  | parse (text : String)
  | type (expected actual : String)
  | notFound (text : String)
  | invalidOperation (text : String)
  | config (text : String)
  | initialization (text : String)
  deriving DecidableEq, Repr

namespace Failure

/-- The text without the kind, as it is shown on the error channel. Of a type failure this is what
was expected. -/
def message : Failure → String
  | .io t | .network t | .backend t | .parse t | .notFound t | .invalidOperation t | .config t
  | .initialization t => t
  | .type expected _ => expected

/-- A short name of the kind. -/
def kind : Failure → String
  | .io _ => "io_error"
  | .network _ => "network_error"
  | .backend _ => "backend_error"
  | .parse _ => "parse_error"
  | .type _ _ => "type_error"
  | .notFound _ => "not_found"
  | .invalidOperation _ => "invalid_operation"
  | .config _ => "config_error"
  | .initialization _ => "initialization_error"

/-- The failure of a kind, by its short name. Only a type failure says what was found. -/
def ofKind? (kind text actual : String) : Option Failure :=
  ([.io text, .network text, .backend text, .parse text, .type text actual, .notFound text,
    .invalidOperation text, .config text, .initialization text] : List Failure).find?
      fun f => f.kind == kind

/-- The full text. -/
def describe : Failure → String
  | .io t => "IO error: " ++ t
  | .network t => "Network error: " ++ t
  | .backend t => "Backend error: " ++ t
  | .parse t => "Parse error: " ++ t
  | .type expected actual => "Type error: expected " ++ expected ++ ", got " ++ actual
  | .notFound t => "Not found: " ++ t
  | .invalidOperation t => "Invalid operation: " ++ t
  | .config t => "Configuration error: " ++ t
  | .initialization t => "Initialization error: " ++ t

/-- The same call could succeed later. -/
def isTransient : Failure → Bool
  | .network _ | .io _ => true
  | _ => false

end Failure

end DocQuery
