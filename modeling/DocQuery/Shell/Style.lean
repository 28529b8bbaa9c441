/-!
# Styled text

Text is styled by control sequences of the terminal: one in front with the codes of the style, and
one behind that resets it.

* `DocQuery.Style` – the styles, `Style.paint` – a text in a style;
* `Style.paintWide` – the same with blanks up to a width, which are styled too;
* `Style.isWanted` – whether text is to be styled at all.

**Without color a style leaves the text as it is.** A reset inside the text would end the style too
early; it is followed by the style again.
-/

namespace DocQuery

/-- A style. -/
inductive Style where
  | plain
  | bold
  | dimmed
  | red
  | green
  | yellow
  | cyan
  | boldRed
  | boldGreen
  | boldCyan
  deriving DecidableEq, Repr

namespace Style

/-- The codes of a style; plain text has none. -/
def codes : Style → String
  | .plain => ""
  | .bold => "1"
  | .dimmed => "2"
  | .red => "31"
  | .green => "32"
  | .yellow => "33"
  | .cyan => "36"
  | .boldRed => "1;31"
  | .boldGreen => "1;32"
  | .boldCyan => "1;36"

/-- The sequence that resets a style. -/
def reset : List Char := "\x1b[0m".toList

/-- The sequence that begins a style. -/
def start (s : Style) : List Char := ("\x1b[" ++ s.codes ++ "m").toList

/-- Begins a style again behind every reset. -/
def renew (s : Style) : List Char → List Char
  | '\x1b' :: '[' :: '0' :: 'm' :: rest => reset ++ s.start ++ renew s rest
  | c :: rest => c :: renew s rest
  | [] => []

/-- A style shows. -/
def shows (color : Bool) (s : Style) : Bool := color && s != .plain

/-- Blanks behind a text, up to a width. -/
def pad (width : Nat) (text : List Char) : List Char :=
  text ++ List.replicate (width - text.length) ' '

/-- A text in a style, with blanks up to a width. -/
def paintWide (color : Bool) (width : Nat) (s : Style) (text : List Char) : List Char :=
  if s.shows color then s.start ++ pad width (s.renew text) ++ reset else pad width text

/-- A text in a style. -/
def paint (color : Bool) (s : Style) (text : List Char) : List Char := paintWide color 0 s text

/-- A switch in a variable of the environment: off if it is `0`. -/
def switch? (value : Option String) : Option Bool := value.map (· != "0")

/-- Text is to be styled. It can be forced, or forbidden, and is otherwise only on a terminal. -/
def isWanted (environment : String → Option String) (terminal : Bool) : Bool :=
  if switch? (environment "CLICOLOR_FORCE") == some true then true
  else if (environment "NO_COLOR").isSome then false
  else (switch? (environment "CLICOLOR")).getD true && terminal

/-- The variables that are looked at. -/
def variableNames : List String := ["CLICOLOR_FORCE", "NO_COLOR", "CLICOLOR"]

/-- `paint` on a string. -/
def paintString (color : Bool) (s : Style) (text : String) : String :=
  String.ofList (paint color s text.toList)

end Style

end DocQuery
