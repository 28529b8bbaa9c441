import DocQuery.Proofs.Text
import DocQuery.Shell.Command

/-!
# Commands as they are typed

The word of a command is cut off at the first white space, and each command cuts what is behind it
in its own way. For a deletion it is cut into words. A filter is typed as a line of four parts with
white space between them: the word of the command, an attribute, an operator and a value, which may
have white space in it and may be empty.

* `Command.cut_append`, `Command.cut_word` – the first word;
* `Command.ofLine?_delete` – **any words can be given to a deletion**;
* `FilterLine` – the parts of a filter and what stands between them, and `FilterLine.text`, the line
  itself;
* `FilterLine.Asks` – the lines that ask for a filter with a given operator;
* `FilterLine.parse_text` – **how such a line is read**. The white space behind the command and in
  front of the value is of any length. Behind the attribute it must be a single character: the
  operator is what stands between the first white space behind the attribute and the next one, and
  in a longer run nothing stands there.
-/

namespace DocQuery

namespace Command

variable {word : List Char} (solid : ∀ c ∈ word, isSpace c = false)

include solid

theorem cut_append {c : Char} (space : isSpace c) (rest : List Char) :
    cut (word ++ c :: rest) = (word, rest) := by
  rw [cut, splitSpace_append solid space, Option.getD_some]

theorem cut_word : cut word = (word, []) := by
  rw [cut, splitSpace_eq_none solid, Option.getD_none]

/-- Behind the attribute and one white space the operator is what comes up to the next one. -/
theorem parseFilter?_append (ne : word ≠ []) {c : Char} (space : isSpace c) (rest : List Char) :
    parseFilter? (word ++ c :: rest) =
      (Operator.read? (String.ofList (cut rest).1)).map fun op =>
        .filter (String.ofList word) op (trimString (String.ofList (cut rest).2)) := by
  rw [parseFilter?, splitSpace_append solid space]
  cases spelling : Operator.read? (String.ofList (cut rest).1) <;> simp [spelling, ne]

end Command

/-! ### Deletions -/

/-- **Any words can be typed** behind the command for deletions. -/
theorem Command.ofLine?_delete {names : List String} (some : names ≠ [])
    (each : ∀ w ∈ names, IsWord w) :
    Command.ofLine? (":del " ++ joinWith " " names) = .some (.delete names) := by
  have pieces : ∀ w ∈ names.map String.toList, w ≠ [] ∧ ∀ c ∈ w, isSpace c = false :=
    List.forall_mem_map.mpr fun w hw => ⟨(each w hw).ne_nil, (each w hw).2⟩
  obtain ⟨filled, front, back⟩ := ends_intercalate [' '] (by simpa using some) pieces
  have found := words_intercalate (c := ' ') rfl pieces
  have line : (":del " ++ joinWith " " names).toList =
      ':' :: ("del".toList ++ ' ' :: [' '].intercalate (names.map String.toList)) := by
    rw [String.toList_append, joinWith, String.toList_intercalate]
    rfl
  generalize [' '].intercalate (names.map String.toList) = text at filled front back found line
  have behind : text.isEmpty = false := by simpa using filled
  have strings : (names.map String.toList).map String.ofList = names := by simp
  have colon : IsWord ":del" := by decide
  have word : IsWord "del" := by decide
  have whole : trim (':' :: ("del".toList ++ ' ' :: text)) = ':' :: ("del".toList ++ ' ' :: text) :=
    trim_append_of_ends (":del".toList ++ [' ']) (colon.front _) filled front back
  have typed : trim ("del".toList ++ ' ' :: text) = "del".toList ++ ' ' :: text :=
    trim_append_of_ends ("del".toList ++ [' ']) (word.front _) filled front back
  have rest : trim text = text := trim_eq_of_ends front back
  have cut : cut ("del".toList ++ ' ' :: text) = ("del".toList, text) := cut_append word.2 rfl _
  have named : named? "del" text = .some (.delete names) := by
    rw [named?, behind, found, strings]
    rfl
  rw [ofLine?, line, whole]
  simp only [parse, String.toList_ofList, typed, cut, rest, String.ofList_toList, named,
    Option.getD_some]

/-! ### Filters -/

/-- A filter as it is typed: its four parts and the white space between them. -/
structure FilterLine where
  command : String
  name : String
  operator : String
  value : String
  afterCommand : String
  afterName : String
  afterOperator : String

namespace FilterLine

/-- The line that is typed. -/
def text (l : FilterLine) : String :=
  l.command ++ l.afterCommand ++ l.name ++ l.afterName ++ l.operator ++ l.afterOperator ++ l.value

/-- The line asks for a filter with the operator: attribute and operator are words, the second one a
spelling of the operator, the value has no white space at its ends, and white space stands between
the parts. -/
structure Asks (l : FilterLine) (op : Operator) : Prop where
  command : l.command = "f" ∨ l.command = "filter"
  name : IsWord l.name
  operator : IsWord l.operator
  spelling : Operator.read? l.operator = some op
  value : HasEnds l.value
  afterCommand : IsGap l.afterCommand
  afterName : IsGap l.afterName
  afterOperator : IsGap l.afterOperator

/-- What is behind the operator once the line is trimmed. -/
def rest (l : FilterLine) : List Char :=
  if l.value = "" then [] else l.afterOperator.toList ++ l.value.toList

namespace Asks

variable {l : FilterLine} {op : Operator} (h : l.Asks op)

include h

/-! ### Trimming the line -/

theorem isWord_command : IsWord l.command := by
  rcases h.command with short | long
  · rw [short]
    decide
  · rw [long]
    decide

/-- A line that begins with a word and goes on to what is behind the operator cannot be trimmed. -/
theorem trim_rest {first : String} (word : IsWord first) (middle : List Char) :
    trim (first.toList ++ (middle ++ (l.operator.toList ++ l.rest))) =
      first.toList ++ (middle ++ (l.operator.toList ++ l.rest)) := by
  refine trim_eq_of_ends (word.front _) ?_
  rw [rest, ← List.append_assoc, ← List.append_assoc]
  split
  case isTrue =>
    rw [List.append_nil]
    exact h.operator.back _
  case isFalse filled =>
    rw [← List.append_assoc, List.getLast?_append_of_ne_nil _ (by simpa using filled)]
    exact h.value.2

/-- Trimmed, a line that begins with a word loses what is behind the operator if the value is
empty. -/
theorem trim_value {first : String} (word : IsWord first) (middle : List Char) :
    trim (first.toList ++ (middle ++
        (l.operator.toList ++ (l.afterOperator.toList ++ l.value.toList)))) =
      first.toList ++ (middle ++ (l.operator.toList ++ l.rest)) := by
  rw [← h.trim_rest word]
  by_cases empty : l.value = ""
  · rw [rest, if_pos empty, empty, String.toList_empty, List.append_nil, List.append_nil,
      ← List.append_assoc, ← List.append_assoc, trim_append_blank h.afterOperator.2,
      ← List.append_assoc]
  · rw [rest, if_neg empty]

theorem trim_text :
    trim l.text.toList = l.command.toList ++ (l.afterCommand.toList ++ (l.name.toList ++
      (l.afterName.toList ++ (l.operator.toList ++ l.rest)))) := by
  have := h.trim_value h.isWord_command (l.afterCommand.toList ++ (l.name.toList ++
    l.afterName.toList))
  simpa [text] using this

/-! ### Reading its parts -/

/-- What is behind the word of the command is read as a filter. -/
theorem parse_eq :
    Command.parse l.text =
      (Command.parseFilter? (l.name.toList ++ (l.afterName.toList ++
        (l.operator.toList ++ l.rest)))).getD (.unknown (trimString l.text)) := by
  obtain ⟨c, cs, gap, space, blank⟩ := h.afterCommand.exists_cons
  have named (rest : List Char) : Command.named? l.command rest = Command.parseFilter? rest := by
    rcases h.command with short | long
    · rw [short]; rfl
    · rw [long]; rfl
  have cut := Command.cut_append h.isWord_command.2 space
    (cs ++ (l.name.toList ++ (l.afterName.toList ++ (l.operator.toList ++ l.rest))))
  simp only [Command.parse, trimString, h.trim_text, gap, List.cons_append, cut,
    trim_blank_append blank, h.trim_rest h.name, String.ofList_toList, named]

/-- The operator is cut off, and behind it is the value. -/
theorem cut_operator :
    String.ofList (Command.cut (l.operator.toList ++ l.rest)).1 = l.operator ∧
      trimString (String.ofList (Command.cut (l.operator.toList ++ l.rest)).2) = l.value := by
  by_cases empty : l.value = ""
  · rw [rest, if_pos empty, List.append_nil, Command.cut_word h.operator.2, empty]
    exact ⟨String.ofList_toList, rfl⟩
  · obtain ⟨c, cs, gap, space, blank⟩ := h.afterOperator.exists_cons
    rw [rest, if_neg empty, gap, List.cons_append, Command.cut_append h.operator.2 space,
      trimString, String.toList_ofList, trim_blank_append blank,
      trim_eq_of_ends h.value.1 h.value.2]
    exact ⟨String.ofList_toList, String.ofList_toList⟩

end Asks

/-- **How a typed filter is read.** With a single white space behind the attribute it is the filter
that was asked for; with more of it the line is not understood. -/
theorem parse_text {l : FilterLine} {op : Operator} (h : l.Asks op) :
    Command.parse l.text =
      if l.afterName.length = 1 then .filter l.name op l.value
      else .unknown (trimString l.text) := by
  obtain ⟨c, cs, gap, space, blank⟩ := h.afterName.exists_cons
  have length : l.afterName.length = cs.length + 1 := by
    rw [← String.length_toList, gap, List.length_cons]
  rw [h.parse_eq, gap, List.cons_append, Command.parseFilter?_append h.name.2 h.name.ne_nil space]
  cases cs with
  | nil =>
    obtain ⟨operator, value⟩ := h.cut_operator
    rw [List.length_nil, Nat.zero_add] at length
    rw [if_pos length, List.nil_append, operator, value, h.spelling, String.ofList_toList]
    rfl
  | cons c' cs =>
    -- The operator would have to stand between the first two characters of the run.
    have none_between : Operator.read? (String.ofList []) = none := by decide
    have first : isSpace c' := blank c' List.mem_cons_self
    have nothing (text : List Char) : Command.cut (c' :: text) = ([], text) :=
      Command.cut_append (List.forall_mem_nil _) first text
    rw [if_neg (by simp [length]), List.cons_append, nothing, none_between]
    rfl

/-- A line with white space of several characters behind the command, in front of the value and
inside of it. -/
def roomy : FilterLine where
  command := "filter"
  name := "title"
  operator := "matches"
  value := "*rust  book*"
  afterCommand := " \t "
  afterName := " "
  afterOperator := "  "

theorem parse_text_roomy :
    roomy.Asks .matches ∧ Command.parse roomy.text = .filter "title" .matches "*rust  book*" := by
  have asks : roomy.Asks .matches :=
    ⟨by decide, by decide, by decide, by decide, by decide, by decide, by decide, by decide⟩
  exact ⟨asks, parse_text asks⟩

/-- A line with two blanks behind the attribute. -/
def twoBlanks : FilterLine where
  command := "f"
  name := "score"
  operator := ">="
  value := "4.5"
  afterCommand := " "
  afterName := "  "
  afterOperator := " "

/-- Two blanks behind the attribute are too many. -/
theorem parse_twoBlanks :
    twoBlanks.Asks .greaterOrEqual ∧ twoBlanks.text = "f score  >= 4.5" ∧
      Command.parse twoBlanks.text = .unknown "f score  >= 4.5" ∧
      Command.parse twoBlanks.text ≠ .filter "score" .greaterOrEqual "4.5" := by
  have unknown : Command.parse twoBlanks.text = .unknown "f score  >= 4.5" := by rfl
  have asks : twoBlanks.Asks .greaterOrEqual :=
    ⟨by decide, by decide, by decide, by decide, by decide, by decide, by decide, by decide⟩
  exact ⟨asks, by decide, unknown, by simp [unknown]⟩

end FilterLine

end DocQuery
