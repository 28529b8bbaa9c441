import DocQuery.Proofs.Json.Numerals

/-!
# Reading what was written

A text is read in two passes, and either of them goes through the tree part by part: the first one
ends every part at the comma, colon or bracket behind it, and the second one puts every part into the
container that is open. So a tree is read scalar by scalar, whatever surrounds the scalars.

* `Json.reread` – what becomes of a tree when its text is read;
* `Scan.Reads` – a text that is read as certain tokens, whatever follows; `Scan.reads_print` – **the
  text of a tree is such a text**;
* `Build.run?_tokens` – the second pass completes the tree, if it is not too deep;
* `Json.read?_render` – **the text of a tree is read scalar by scalar.**
-/

namespace DocQuery

namespace Json

/-! ### The tree that is read -/

mutual

/-- What becomes of a tree when its text is read: strings come back as they are, and all other
scalars are read as words. -/
def reread : Json → Option Json
  | .string s => some (.string s)
  | .array items => (rereadItems items).map .array
  | .object members => (rereadMembers members).map .object
  | j => wordValue? (print j)

/-- `reread` item by item. -/
def rereadItems : List Json → Option (List Json)
  | [] => some []
  | j :: rest => do
    let j ← reread j
    let rest ← rereadItems rest
    return j :: rest

/-- `reread` member by member. -/
def rereadMembers : List (String × Json) → Option (List (String × Json))
  | [] => some []
  | (name, j) :: rest => do
    let j ← reread j
    let rest ← rereadMembers rest
    return (name, j) :: rest

end

mutual

/-- The number of containers that are open at a time. -/
def depth : Json → Nat
  | .array items => depthItems items + 1
  | .object members => depthMembers members + 1
  | _ => 0

/-- The greatest depth of an item. -/
def depthItems : List Json → Nat
  | [] => 0
  | j :: rest => max (depth j) (depthItems rest)

/-- The greatest depth of a member. -/
def depthMembers : List (String × Json) → Nat
  | [] => 0
  | (_, j) :: rest => max (depth j) (depthMembers rest)

end

/-! ### The first pass -/

mutual

/-- The tokens of a tree. -/
def tokens : Json → List Token
  | .array [] => [.openArray, .closeArray]
  | .array (j :: rest) => .openArray :: (tokens j ++ tokensItems rest)
  | .object [] => [.openObject, .closeObject]
  | .object ((name, j) :: rest) =>
    .openObject :: .scalar (.string name) :: .colon :: (tokens j ++ tokensMembers rest)
  | j => [.scalar j]

/-- The tokens behind an item: the other items, each behind a comma, and the closing bracket. -/
def tokensItems : List Json → List Token
  | [] => [.closeArray]
  | j :: rest => .comma :: (tokens j ++ tokensItems rest)

/-- The tokens behind a member. -/
def tokensMembers : List (String × Json) → List Token
  | [] => [.closeObject]
  | (name, j) :: rest =>
    .comma :: .scalar (.string name) :: .colon :: (tokens j ++ tokensMembers rest)

end

/-- What ends a word: a blank, a quote or punctuation. -/
def endsWord (c : Char) : Bool := isBlank c || c = '"' || (punctuation? c).isSome

/-- The text is empty or ends a word that stands in front of it. -/
def Delimited (s : List Char) : Prop := ∀ c ∈ s.head?, endsWord c = true

namespace Scan

variable {seen cs s : List Char} {c : Char}

/-- A character that completes no token. -/
theorem tokens?_silent {scan scan' : Scan} (h : step? scan c = some (scan', [])) (cs : List Char) :
    tokens? scan (c :: cs) = tokens? scan' cs := by
  rw [tokens?_cons, h]
  exact Option.map_id'

/-- A character that completes a token. -/
theorem tokens?_complete {scan scan' : Scan} {t : Token} (h : step? scan c = some (scan', [t]))
    (cs : List Char) : tokens? scan (c :: cs) = (tokens? scan' cs).map (t :: ·) := by
  rw [tokens?_cons, h]
  rfl

theorem tokens?_word_nil (seen : List Char) :
    tokens? (.word seen) [] = (wordValue? seen.reverse).map fun j => [.scalar j] := by
  simp only [tokens?]

theorem step?_word (seen : List Char) (c : Char) : step? (.word seen) c =
    if endsWord c then (wordValue? seen.reverse).bind fun j =>
      (start? c).map fun x => (x.1, .scalar j :: x.2)
    else some (.word (c :: seen), []) := rfl

/-- A word in front of what ends it is read as one scalar. -/
theorem tokens?_word (hcs : ∀ c ∈ cs, endsWord c = false) (hs : Delimited s) :
    tokens? (.word seen) (cs ++ s) =
      (wordValue? (seen.reverse ++ cs)).bind fun j =>
        (tokens? .between s).map (.scalar j :: ·) := by
  induction cs generalizing seen with
  | nil =>
    rw [List.nil_append, List.append_nil]
    cases s with
    | nil =>
      rw [tokens?_word_nil]
      cases wordValue? seen.reverse <;> rfl
    | cons c s =>
      have ends : endsWord c = true := hs c rfl
      rw [tokens?_cons, step?_word, if_pos ends, tokens?_cons]
      cases wordValue? seen.reverse with
      | none => rfl
      | some j =>
        show ((start? c).map _).bind _ = ((start? c).bind _).map _
        cases start? c with
        | none => rfl
        | some x => exact (Option.map_map (Token.scalar j :: ·) (x.2 ++ ·) _).symm
  | cons c cs ih =>
    obtain ⟨first, rest⟩ := List.forall_mem_cons.mp hcs
    have goes_on : step? (.word seen) c = some (.word (c :: seen), []) := by
      rw [step?_word, first, if_neg Bool.false_ne_true]
    rw [List.cons_append, tokens?_silent goes_on, ih rest, List.reverse_cons, List.append_assoc,
      List.singleton_append]

/-- What begins a word ends none. -/
theorem start?_of_not_endsWord (h : endsWord c = false) : start? c = some (.word [c], []) := by
  simp only [endsWord, Bool.or_eq_false_iff, decide_eq_false_iff_not] at h
  obtain ⟨⟨blank, quote⟩, punctuation⟩ := h
  rw [Option.isSome_eq_false_iff, Option.isNone_iff_eq_none] at punctuation
  rw [start?, blank, if_neg Bool.false_ne_true, if_neg quote, punctuation]

/-- **A word is read on its own.** -/
theorem tokens?_between_word (hne : cs ≠ []) (hcs : ∀ c ∈ cs, endsWord c = false)
    (hs : Delimited s) : tokens? .between (cs ++ s) =
      (wordValue? cs).bind fun j => (tokens? .between s).map (.scalar j :: ·) := by
  obtain ⟨c, cs, rfl⟩ := List.exists_cons_of_ne_nil hne
  obtain ⟨first, rest⟩ := List.forall_mem_cons.mp hcs
  have begins : step? .between c = some (.word [c], []) := start?_of_not_endsWord first
  rw [List.cons_append, tokens?_silent begins, tokens?_word rest hs]
  rfl

theorem step?_backslash (seen : List Char) :
    step? (.quoted seen) '\\' = some (.escape seen, []) := rfl

/-- The control characters that have no escape of their own are written by their code. -/
theorem tokens?_control {n : Nat} (hn : n < 32) (seen s : List Char) :
    tokens? (.quoted seen)
      (['\\', 'u', '0', '0', hexDigit (n / 16), hexDigit (n % 16)] ++ s) =
        tokens? (.quoted (Char.ofNat n :: seen)) s := by
  have ends : endUnit? seen none n = some (.quoted (Char.ofNat n :: seen)) := by
    rw [endUnit?, if_neg (by omega), if_neg (by omega)]
  have unit : step? (.escape seen) 'u' = some (.unit seen none 0 0, []) := rfl
  have first : step? (.unit seen none 0 0) '0' = some (.unit seen none 1 0, []) := rfl
  have second : step? (.unit seen none 1 0) '0' = some (.unit seen none 2 0, []) := rfl
  have third : step? (.unit seen none 2 0) (hexDigit (n / 16)) =
      some (.unit seen none 3 (n / 16), []) := by
    rw [step?, hexValue?_hexDigit (n / 16) (by omega)]
    simp
  have fourth : step? (.unit seen none 3 (n / 16)) (hexDigit (n % 16)) =
      some (.quoted (Char.ofNat n :: seen), []) := by
    rw [step?, hexValue?_hexDigit (n % 16) (by omega), Option.bind_some, if_pos rfl,
      Nat.div_add_mod, ends]
    rfl
  simp only [List.cons_append, List.nil_append]
  rw [tokens?_silent (step?_backslash seen), tokens?_silent unit, tokens?_silent first,
    tokens?_silent second, tokens?_silent third, tokens?_silent fourth]

/-- One character of a string is read. -/
theorem tokens?_escapeChar (c : Char) (seen s : List Char) :
    tokens? (.quoted seen) (escapeChar c ++ s) = tokens? (.quoted (c :: seen)) s := by
  have escaped (letter : Char) (h : step? (.escape seen) letter = some (.quoted (c :: seen), [])) :
      tokens? (.quoted seen) (['\\', letter] ++ s) = tokens? (.quoted (c :: seen)) s := by
    rw [List.cons_append, List.singleton_append, tokens?_silent (step?_backslash seen),
      tokens?_silent h]
  unfold escapeChar
  split
  case h_8 quote backslash _ _ _ _ _ =>
    split
    case isTrue control =>
      rw [tokens?_control control, Char.ofNat_toNat]
    case isFalse printable =>
      have goes_on : step? (.quoted seen) c = some (.quoted (c :: seen), []) := by
        rw [step?, if_neg quote, if_neg backslash, if_neg printable]
      rw [List.singleton_append, tokens?_silent goes_on]
  all_goals exact escaped _ rfl

theorem tokens?_quoted (cs seen s : List Char) :
    tokens? (.quoted seen) (cs.flatMap escapeChar ++ '"' :: s) =
      (tokens? .between s).map (.scalar (.string (String.ofList (seen.reverse ++ cs))) :: ·) := by
  induction cs generalizing seen with
  | nil =>
    have ends : step? (.quoted seen) '"' =
        some (.between, [.scalar (.string (String.ofList seen.reverse))]) := rfl
    rw [List.flatMap_nil, List.nil_append, List.append_nil, tokens?_complete ends]
  | cons c cs ih =>
    rw [List.flatMap_cons, List.append_assoc, tokens?_escapeChar, ih, List.reverse_cons,
      List.append_assoc, List.singleton_append]

/-- **A string is read as it was.** -/
theorem tokens?_quote (a : String) (s : List Char) :
    tokens? .between (quote a ++ s) = (tokens? .between s).map (.scalar (.string a) :: ·) := by
  have opens : step? .between '"' = some (.quoted [], []) := rfl
  rw [quote, List.cons_append, List.append_assoc, tokens?_silent opens, List.singleton_append,
    tokens?_quoted, List.reverse_nil, List.nil_append, String.ofList_toList]

/-- The text is read as these tokens or refused, if what follows ends a word. -/
def Reads (cs : List Char) (read : Option (List Token)) : Prop :=
  ∀ s, Delimited s →
    tokens? .between (cs ++ s) = read.bind fun ts => (tokens? .between s).map (ts ++ ·)

variable {ds : List Char} {read read' : Option (List Token)}

theorem Reads.punctuation {t : Token} (h : punctuation? c = some t) (h' : Reads cs read) :
    Reads (c :: cs) (read.map (t :: ·)) := by
  intro s hs
  have completes : step? .between c = some (.between, [t]) := by
    unfold punctuation? at h
    split at h <;> cases h <;> rfl
  rw [List.cons_append, tokens?_complete completes, h' s hs]
  cases read with
  | none => rfl
  | some ts => exact Option.map_map (t :: ·) (ts ++ ·) _

theorem Reads.quote (a : String) (h : Reads cs read) :
    Reads (quote a ++ cs) (read.map (.scalar (.string a) :: ·)) := by
  intro s hs
  rw [List.append_assoc, tokens?_quote, h s hs]
  cases read with
  | none => rfl
  | some ts => exact Option.map_map (Token.scalar (.string a) :: ·) (ts ++ ·) _

/-- Texts are read one after the other, if the second one ends a word. -/
theorem Reads.append (h : Reads cs read) (h' : Reads ds read')
    (hds : ∀ s, Delimited (ds ++ s)) :
    Reads (cs ++ ds) (read.bind fun ts => read'.map (ts ++ ·)) := by
  intro s hs
  rw [List.append_assoc, h _ (hds s), h' s hs]
  cases read with
  | none => rfl
  | some ts =>
    cases read' with
    | none => rfl
    | some us =>
      simp [Option.map_map, Function.comp_def]

theorem reads_nil : Reads [] (some []) := by
  intro s _
  exact Option.map_id'.symm

theorem not_isNumeral_of_endsWord (h : endsWord c = true) : isNumeral c = false := by
  simp only [endsWord, isBlank, Bool.or_eq_true, decide_eq_true_eq] at h
  rcases h with ((((rfl | rfl) | rfl) | rfl) | rfl) | h
  case inr =>
    unfold punctuation? at h
    split at h <;> first | rfl | cases h
  all_goals rfl

/-- Everything that is written without quotes is a word. -/
theorem isWord_text {j : Json} (hj : j.IsWord) (readable : j.isReadable = true) :
    print j ≠ [] ∧ ∀ c ∈ print j, endsWord c = false := by
  have number (hj : IsNumber j) : print j ≠ [] ∧ ∀ c ∈ print j, endsWord c = false := by
    obtain ⟨c, cs, text⟩ := print_number_eq_cons hj
    refine ⟨text ▸ List.cons_ne_nil c cs, fun d hd => ?_⟩
    cases ends : endsWord d with
    | false => rfl
    | true =>
      have numeral := isNumeral_of_mem_print hj hd
      rw [not_isNumeral_of_endsWord ends] at numeral
      cases numeral
  have keyword {cs : List Char} (h : (cs.all fun c => !endsWord c) = true) :
      ∀ c ∈ cs, endsWord c = false := by
    simpa using h
  cases j with
  | null => exact ⟨nofun, keyword rfl⟩
  | bool b => cases b <;> exact ⟨nofun, keyword rfl⟩
  | int i => exact number (.int i)
  | float x => exact number (.float readable)
  | _ => cases hj

theorem tokens_of_isWord {j : Json} (hj : j.IsWord) : j.tokens = [.scalar j] := by
  cases j <;> first | rfl | cases hj

theorem reads_word {j : Json} (hj : j.IsWord) (readable : j.isReadable = true) :
    Reads (print j) ((wordValue? (print j)).map tokens) := by
  intro s hs
  obtain ⟨hne, hcs⟩ := isWord_text hj readable
  rw [tokens?_between_word hne hcs hs]
  cases read : wordValue? (print j) with
  | none => rfl
  | some j' =>
    show _ = (tokens? .between s).map (j'.tokens ++ ·)
    rw [tokens_of_isWord (isWord_of_word read)]
    rfl

/-- The comma and the closing bracket end a word. -/
theorem delimited_restOf {α : Type} {close : Char} (text : List α → List Char)
    (hclose : endsWord close = true) (items : List α) (s : List Char) :
    Delimited (restOf close text items ++ s) := by
  intro c hc
  cases items with
  | nil =>
    obtain rfl := Option.mem_some_iff.mp hc
    exact hclose
  | cons =>
    obtain rfl := Option.mem_some_iff.mp hc
    rfl

theorem reads_items {j : Json} {rest : List Json} (first : Reads (print j) ((reread j).map tokens))
    (others : Reads (restOf ']' printItems rest) ((rereadItems rest).map tokensItems)) :
    Reads (printItems (j :: rest)) ((reread j).bind fun j' =>
      (rereadItems rest).map fun rest' => j'.tokens ++ tokensItems rest') := by
  have parts := first.append others (delimited_restOf _ rfl rest)
  rw [← printItems_cons] at parts
  convert parts using 1
  cases reread j <;> cases rereadItems rest <;> rfl

theorem reads_members (name : String) {j : Json} {rest : List (String × Json)}
    (first : Reads (print j) ((reread j).map tokens))
    (others : Reads (restOf '\x7d' printMembers rest) ((rereadMembers rest).map tokensMembers)) :
    Reads (printMembers ((name, j) :: rest)) ((reread j).bind fun j' =>
      (rereadMembers rest).map fun rest' =>
        .scalar (.string name) :: .colon :: (j'.tokens ++ tokensMembers rest')) := by
  have parts := first.append others (delimited_restOf _ rfl rest)
  have member := Reads.quote name (Reads.punctuation (c := ':') rfl parts)
  rw [← printMembers_cons (name, j)] at member
  convert member using 1
  cases reread j <;> cases rereadMembers rest <;> rfl

mutual

/-- **The text of a tree is read as the tokens of what becomes of it.** -/
theorem reads_print (j : Json) (h : j.isReadable = true) :
    Reads (print j) ((reread j).map Json.tokens) := by
  match j with
  | .null => exact reads_word trivial h
  | .bool _ => exact reads_word trivial h
  | .int _ => exact reads_word trivial h
  | .float _ => exact reads_word trivial h
  | .single _ => cases h
  | .string a =>
    have alone := Reads.quote a reads_nil
    rwa [List.append_nil] at alone
  | .array [] => exact .punctuation rfl (.punctuation rfl reads_nil)
  | .array (j :: rest) =>
    obtain ⟨first, others⟩ := Bool.and_eq_true_iff.mp h
    have items := reads_items (reads_print j first) (reads_restItems rest others)
    show Reads ('[' :: printItems (j :: rest)) _
    convert items.punctuation (c := '[') rfl using 1
    rw [reread, rereadItems]
    cases reread j <;> cases rereadItems rest <;> rfl
  | .object [] => exact .punctuation rfl (.punctuation rfl reads_nil)
  | .object ((name, j) :: rest) =>
    obtain ⟨first, others⟩ := Bool.and_eq_true_iff.mp h
    have members := reads_members name (reads_print j first) (reads_restMembers rest others)
    show Reads ('\x7b' :: printMembers ((name, j) :: rest)) _
    convert members.punctuation (c := '\x7b') rfl using 1
    rw [reread, rereadMembers]
    cases reread j <;> cases rereadMembers rest <;> rfl

/-- What stands behind an item. -/
theorem reads_restItems (items : List Json) (h : areReadable items = true) :
    Reads (restOf ']' printItems items) ((rereadItems items).map tokensItems) := by
  match items with
  | [] => exact .punctuation rfl reads_nil
  | j :: rest =>
    obtain ⟨first, others⟩ := Bool.and_eq_true_iff.mp h
    have items := reads_items (reads_print j first) (reads_restItems rest others)
    show Reads (',' :: printItems (j :: rest)) _
    convert items.punctuation (c := ',') rfl using 1
    rw [rereadItems]
    cases reread j <;> cases rereadItems rest <;> rfl

/-- What stands behind a member. -/
theorem reads_restMembers (members : List (String × Json)) (h : haveReadable members = true) :
    Reads (restOf '\x7d' printMembers members) ((rereadMembers members).map tokensMembers) := by
  match members with
  | [] => exact .punctuation rfl reads_nil
  | (name, j) :: rest =>
    obtain ⟨first, others⟩ := Bool.and_eq_true_iff.mp h
    have members := reads_members name (reads_print j first) (reads_restMembers rest others)
    show Reads (',' :: printMembers ((name, j) :: rest)) _
    convert members.punctuation (c := ',') rfl using 1
    rw [rereadMembers]
    cases reread j <;> cases rereadMembers rest <;> rfl

end

end Scan

/-! ### The second pass -/

namespace Build

variable {stack : List Frame}

theorem run?_cons (b : Build) (t : Token) (ts : List Token) :
    run? b (t :: ts) = (step? b t).bind fun b' => run? b' ts := rfl

/-- An array that may end begins with an item as any other value begins. -/
theorem run?_firstItem (j : Json) (stack : List Frame) (ts : List Token) :
    run? ⟨stack, .firstItem⟩ (j.tokens ++ ts) = run? ⟨stack, .value⟩ (j.tokens ++ ts) := by
  match j with
  | .null | .bool _ | .int _ | .float _ | .single _ | .string _ | .array [] | .array (_ :: _)
  | .object [] | .object (_ :: _) => rfl

theorem push?_of_lt {frame : Frame} {expect : Expect} (h : stack.length < maxDepth) :
    push? frame expect stack = some ⟨frame :: stack, expect⟩ :=
  if_pos h

theorem run?_openArray (h : stack.length < maxDepth) (ts : List Token) :
    run? ⟨stack, .value⟩ (.openArray :: ts) = run? ⟨.array [] :: stack, .firstItem⟩ ts := by
  have opened : step? ⟨stack, .value⟩ .openArray = some ⟨.array [] :: stack, .firstItem⟩ :=
    push?_of_lt h
  rw [run?_cons, opened, Option.bind_some]

theorem run?_openObject (h : stack.length < maxDepth) (ts : List Token) :
    run? ⟨stack, .value⟩ (.openObject :: ts) = run? ⟨.object [] "" :: stack, .firstName⟩ ts := by
  have opened : step? ⟨stack, .value⟩ .openObject = some ⟨.object [] "" :: stack, .firstName⟩ :=
    push?_of_lt h
  rw [run?_cons, opened, Option.bind_some]

mutual

/-- **The tokens of a tree complete it**, if it is not too deep. -/
theorem run?_tokens (j : Json) (stack : List Frame) (h : stack.length + depth j ≤ maxDepth)
    (ts : List Token) : run? ⟨stack, .value⟩ (j.tokens ++ ts) = run? (complete j stack) ts := by
  match j with
  | .null | .bool _ | .int _ | .float _ | .single _ | .string _ => rfl
  | .array [] =>
    have room : stack.length < maxDepth := h
    exact run?_openArray room _
  -- the first item stands behind the bracket, and all others behind a comma
  | .array (j :: rest) =>
    rw [depth, depthItems] at h
    rw [tokens, List.cons_append, run?_openArray (by omega), List.append_assoc, run?_firstItem,
      run?_tokens j _ (by rw [List.length_cons]; omega)]
    exact run?_tokensItems rest stack [j] (by omega) ts
  | .object [] =>
    have room : stack.length < maxDepth := h
    exact run?_openObject room _
  | .object ((name, j) :: rest) =>
    rw [depth, depthMembers] at h
    rw [tokens, List.cons_append, run?_openObject (by omega), List.cons_append, List.cons_append,
      List.append_assoc]
    show run? ⟨.object [] name :: stack, .value⟩ _ = _
    rw [run?_tokens j _ (by rw [List.length_cons]; omega)]
    exact run?_tokensMembers rest stack [(name, j)] name (by omega) ts

/-- The items behind those that an array holds already. -/
theorem run?_tokensItems (items : List Json) (stack : List Frame) (seen : List Json)
    (h : stack.length + 1 + depthItems items ≤ maxDepth) (ts : List Token) :
    run? ⟨.array seen :: stack, .separator⟩ (tokensItems items ++ ts) =
      run? (complete (.array (seen.reverse ++ items)) stack) ts := by
  match items with
  | [] =>
    rw [List.append_nil]
    rfl
  | j :: rest =>
    rw [depthItems] at h
    rw [tokensItems, List.cons_append, List.append_assoc]
    show run? ⟨.array seen :: stack, .value⟩ _ = _
    rw [run?_tokens j _ (by rw [List.length_cons]; omega)]
    have others := run?_tokensItems rest stack (j :: seen) (by omega) ts
    rwa [List.reverse_cons, List.append_assoc] at others

/-- The members behind those that an object holds already. -/
theorem run?_tokensMembers (members : List (String × Json)) (stack : List Frame)
    (seen : List (String × Json)) (last : String)
    (h : stack.length + 1 + depthMembers members ≤ maxDepth) (ts : List Token) :
    run? ⟨.object seen last :: stack, .separator⟩ (tokensMembers members ++ ts) =
      run? (complete (.object (seen.reverse ++ members)) stack) ts := by
  match members with
  | [] =>
    rw [List.append_nil]
    rfl
  | (name, j) :: rest =>
    rw [depthMembers] at h
    rw [tokensMembers, List.cons_append, List.cons_append, List.cons_append, List.append_assoc]
    show run? ⟨.object seen name :: stack, .value⟩ _ = _
    rw [run?_tokens j _ (by rw [List.length_cons]; omega)]
    have others := run?_tokensMembers rest stack ((name, j) :: seen) name (by omega) ts
    rwa [List.reverse_cons, List.append_assoc] at others

end

end Build

/-! ### Both passes -/

mutual

theorem depth_of_reread {j j' : Json} (h : reread j = some j') : depth j' = depth j := by
  match j with
  | .null | .bool _ | .int _ | .float _ | .single _ =>
    have word := isWord_of_word h
    cases j' <;> first | rfl | cases word
  | .string s =>
    cases h
    rfl
  | .array items =>
    obtain ⟨items', read, rfl⟩ := Option.map_eq_some_iff.mp h
    exact congrArg (· + 1) (depthItems_of_reread read)
  | .object members =>
    obtain ⟨members', read, rfl⟩ := Option.map_eq_some_iff.mp h
    exact congrArg (· + 1) (depthMembers_of_reread read)

theorem depthItems_of_reread {items items' : List Json} (h : rereadItems items = some items') :
    depthItems items' = depthItems items := by
  match items with
  | [] =>
    cases h
    rfl
  | j :: rest =>
    obtain ⟨j', first, h⟩ := Option.bind_eq_some_iff.mp h
    obtain ⟨rest', others, h⟩ := Option.bind_eq_some_iff.mp h
    cases h
    rw [depthItems, depthItems, depth_of_reread first, depthItems_of_reread others]

theorem depthMembers_of_reread {members members' : List (String × Json)}
    (h : rereadMembers members = some members') : depthMembers members' = depthMembers members := by
  match members with
  | [] =>
    cases h
    rfl
  | (name, j) :: rest =>
    obtain ⟨j', first, h⟩ := Option.bind_eq_some_iff.mp h
    obtain ⟨rest', others, h⟩ := Option.bind_eq_some_iff.mp h
    cases h
    rw [depthMembers, depthMembers, depth_of_reread first, depthMembers_of_reread others]

end

/-- **The text of a tree is read scalar by scalar**, if the tree is not too deep. -/
theorem read?_render {j : Json} (readable : j.isReadable = true) (h : j.depth ≤ Build.maxDepth) :
    read? j.render = reread j := by
  have nothing : Delimited [] := nofun
  have tokens := Scan.reads_print j readable [] nothing
  rw [List.append_nil] at tokens
  rw [read?, render, String.toList_ofList, tokens]
  cases read : reread j with
  | none => rfl
  | some j' =>
    have shallow : ([] : List Frame).length + j'.depth ≤ Build.maxDepth := by
      rwa [depth_of_reread read, List.length_nil, Nat.zero_add]
    exact Build.run?_tokens j' [] shallow []

end Json

end DocQuery
