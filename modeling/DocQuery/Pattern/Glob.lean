import DocQuery.Pattern.CharSetReader

/-!
# Globs

A glob matches a whole text: `*` stands for any piece, `?` for any one character, a group in
brackets for one character of a set, and every other character for itself. A bracket that is not
closed, or that is closed at once, stands for itself, and so does everything after one that is not
closed.

* `DocQuery.Glob` – the items of a glob;
* `Glob.read?` – reads a glob; the text of a group follows the rules for bracket expressions in
  regular expressions, with `!` for the complement and without escapes;
* `Glob.accepts` – the matcher, which works from the end of the glob and keeps, for every tail of the
  text, whether the items read so far match it.
-/

namespace DocQuery

namespace Glob

/-- An item of a glob. -/
inductive Item where
  /-- Any piece of text. -/
  | many
  /-- Any character. -/
  | one
  /-- A character of a set. -/
  | set (s : CharSet)

/-- Whether one character matches an item that stands for one. -/
def Item.test : Item → Char → Bool
  | .many, _ => false
  | .one, _ => true
  | .set s, c => s.contains c

end Glob

/-- A glob. -/
abbrev Glob := List Glob.Item

namespace Glob

/-- A character that stands for itself. -/
def literal (ignoreCase : Bool) (c : Char) : Item := .set ((CharSet.single c).foldIf ignoreCase)

/-- The switches under which groups are read. -/
def flags (ignoreCase : Bool) : Flags :=
  { Flags.default with ignoreCase := ignoreCase, dotAll := true }

/-- A backslash in a group stands for itself. -/
def protect (cs : List Char) : List Char := cs.flatMap fun c => if c = '\\' then ['\\', '\\'] else [c]

/-- The set of a group, from the text between its brackets. -/
def group? (ignoreCase : Bool) (text : List Char) : Option Item :=
  let body := match text with
    | '!' :: rest => '^' :: protect rest
    | cs => protect cs
  match Pattern.readBracket? (flags ignoreCase) (body ++ [']']) with
  | some (part, []) => some (.set part.set)
  | _ => none

/-- Reads a glob in at most `fuel` steps. -/
def readFrom? (ignoreCase : Bool) : Nat → List Char → Option Glob
  | 0, _ => none
  | _, [] => some []
  | fuel + 1, c :: rest =>
    if c = '*' then (readFrom? ignoreCase fuel rest).map (.many :: ·)
    else if c = '?' then (readFrom? ignoreCase fuel rest).map (.one :: ·)
    else if c = '[' then
      let text := rest.takeWhile fun c => c != ']'
      match rest.drop text.length with
      | [] => some ((c :: text).map (literal ignoreCase))
      | close :: rest =>
        if text.isEmpty then
          (readFrom? ignoreCase fuel rest).map ([c, close].map (literal ignoreCase) ++ ·)
        else do
          let item ← group? ignoreCase text
          let items ← readFrom? ignoreCase fuel rest
          return item :: items
    else (readFrom? ignoreCase fuel rest).map (literal ignoreCase c :: ·)

/-- **Reads a glob.** It is refused when the text of a group is ill-formed. -/
def read? (ignoreCase : Bool) (cs : List Char) : Option Glob :=
  readFrom? ignoreCase (cs.length + 1) cs

/-- Which of the listed tails match after any piece is passed over: those that have a matching tail
at or after them. -/
def orLater : List Bool → List Bool
  | [] => []
  | b :: bs =>
    let later := orLater bs
    (b || later.headD false) :: later

/-- For every tail of the text, the text itself first and the empty text last, whether the glob
matches it. -/
def matchTails (g : Glob) (text : List Char) : List Bool :=
  g.foldr
    (fun item tails =>
      match item with
      | .many => orLater tails
      | item => List.zipWith (fun c b => item.test c && b) text tails.tail ++ [false])
    (List.replicate text.length false ++ [true])

/-- **The glob matches the whole text.** -/
def accepts (g : Glob) (text : List Char) : Bool := (matchTails g text).headD false

end Glob

end DocQuery
