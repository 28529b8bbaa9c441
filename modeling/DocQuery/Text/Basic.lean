/-!
# Cutting text

* `DocQuery.isSpace` – white space, in the sense of Unicode;
* `DocQuery.trim`, `DocQuery.splitAtChar`, `DocQuery.words`, `DocQuery.splitSpace` – the pieces of a
  text, as lists of characters;
* `DocQuery.lowerAscii` – lower case for the letters of ASCII, other characters as they are.
-/

namespace DocQuery

/-- White space: the characters with the property of that name in Unicode. -/
def isSpace (c : Char) : Bool :=
  let n := c.toNat
  (9 ≤ n && n ≤ 13) || n = 0x20 || n = 0x85 || n = 0xA0 || n = 0x1680 ||
    (0x2000 ≤ n && n ≤ 0x200A) || n = 0x2028 || n = 0x2029 || n = 0x202F || n = 0x205F || n = 0x3000

/-- Drops white space in front. -/
def trimStart (cs : List Char) : List Char := cs.dropWhile isSpace

/-- Drops white space at the end. -/
def trimEnd (cs : List Char) : List Char := (cs.reverse.dropWhile isSpace).reverse

/-- Drops white space at both ends. -/
def trim (cs : List Char) : List Char := trimEnd (trimStart cs)

/-- `trim` on a string. -/
def trimString (s : String) : String := String.ofList (trim s.toList)

/-- The pieces between the occurrences of a character. -/
def splitAtChar (sep : Char) : List Char → List (List Char)
  | [] => [[]]
  | c :: cs =>
    if c = sep then [] :: splitAtChar sep cs
    else match splitAtChar sep cs with
      | [] => [[c]]
      | piece :: rest => (c :: piece) :: rest

/-- The pieces between runs of characters with a property, without empty pieces. -/
def pieces (isSeparator : Char → Bool) (cs : List Char) : List (List Char) :=
  (cs.foldr
    (fun c (ps : List (List Char)) =>
      if isSeparator c then [] :: ps
      else match ps with
        | [] => [[c]]
        | p :: rest => (c :: p) :: rest)
    [[]]).filter fun p => !p.isEmpty

/-- The pieces between runs of white space. -/
def words (cs : List Char) : List (List Char) := pieces isSpace cs

/-- Cuts at the first white space, which is dropped; none if there is no white space. -/
def splitSpace (cs : List Char) : Option (List Char × List Char) :=
  match cs.dropWhile (fun c => !isSpace c) with
  | [] => none
  | _ :: rest => some (cs.takeWhile (fun c => !isSpace c), rest)

/-- Lower case for the letters of ASCII. -/
def lowerAscii (cs : List Char) : List Char := cs.map Char.toLower

/-- Strings with a separator between. -/
def joinWith (sep : String) (parts : List String) : String := sep.intercalate parts

end DocQuery
