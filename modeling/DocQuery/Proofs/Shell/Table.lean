import DocQuery.Discovery.Attribute
import DocQuery.Shell.Table
import Mathlib.Data.List.Forall2

/-!
# Tables are aligned

A column is as wide as the longest of its texts, its name included, but has at most forty
characters. What is longer is cut, so that every text takes up exactly the width of its column, and
all lines of a table have their bars in the same places.

* `Table.columnWidth` – the width of a column, which is the width that the rows widen it to
  (`Table.widths_eq`);
* `Table.Shows` – what a column shows of a text, and `Table.shows_fit`, that the text made to fit is
  that;
* `Table.ruled` – pieces of text with bars around them. Borders and rows are such lines
  (`Table.exists_ruled_border`, `Table.row_eq_ruled`), and `Table.drop_ruled` says where their bars
  stand;
* `Table.Aligned` – lines that are an aligned table of some documents;
* `Table.lines_aligned` – **every table of documents is aligned**, whatever stands in it.

Only a table without columns would not be: its borders have two bars, and its rows have one. No
table is printed without the column of the ids.
-/

namespace DocQuery

namespace Table

variable {names : List String} {docs : List Document} {ws : List Nat} {w i : Nat}

/-! ### Widths -/

/-- The greatest length of some texts. -/
def longest (texts : List (List Char)) : Nat := texts.foldr (fun text n => max text.length n) 0

theorem longest_cons (text : List Char) (texts : List (List Char)) :
    longest (text :: texts) = max text.length (longest texts) := rfl

theorem length_le_longest {text : List Char} {texts : List (List Char)} (h : text ∈ texts) :
    text.length ≤ longest texts := by
  induction texts with
  | nil => cases h
  | cons other texts ih =>
    rw [longest_cons]
    rcases List.mem_cons.mp h with rfl | h
    · exact Nat.le_max_left _ _
    · exact Nat.le_trans (ih h) (Nat.le_max_right _ _)

/-- The cells of a column. -/
def column (docs : List Document) (name : String) : List (List Char) :=
  docs.map fun d => cellText (d.get? name)

/-- The width of a column: that of the longest text in it, but not more than the greatest width. -/
def columnWidth (docs : List Document) (name : String) : Nat :=
  min (longest (name.toList :: column docs name)) maxWidth

/-- The widths of some columns. -/
def columnWidths (names : List String) (docs : List Document) : List Nat :=
  names.map (columnWidth docs)

/-- Every text of a column fits, unless the column has the greatest width. -/
theorem fits_or_columnWidth_eq {text : List Char} {name : String}
    (h : text ∈ name.toList :: column docs name) :
    text.length ≤ columnWidth docs name ∨ columnWidth docs name = maxWidth := by
  have hle := length_le_longest h
  rw [columnWidth]
  omega

theorem widen_map (width : String → Nat) (text : String → List Char) :
    widen (names.map width) (names.map text) =
      names.map fun name => min (max (width name) (text name).length) maxWidth := by
  rw [widen, List.zipWith_map, List.zipWith_self]

/-- Rows widen columns of any widths to the longest cells. -/
theorem foldl_widen (d : Document) (docs : List Document) (width : String → Nat) :
    ((d :: docs).map fun d => names.map fun name => cellText (d.get? name)).foldl widen
        (names.map width) =
      names.map fun name =>
        min (max (width name) (longest (column (d :: docs) name))) maxWidth := by
  induction docs generalizing d width with
  | nil =>
    rw [List.map_singleton, List.foldl_cons, List.foldl_nil, widen_map]
    refine List.map_congr_left fun name _ => ?_
    rw [column, List.map_singleton, longest_cons, longest, List.foldr_nil, Nat.max_zero]
  | cons d' docs ih =>
    rw [List.map_cons, List.foldl_cons, widen_map, ih]
    refine List.map_congr_left fun name _ => ?_
    -- a width that was cut already is cut once more at the end
    have hlongest : longest (column (d :: d' :: docs) name) =
        max (cellText (d.get? name)).length (longest (column (d' :: docs) name)) := rfl
    rw [hlongest]
    omega

/-- **The widths of the columns** of a table with rows. -/
theorem widths_eq (hdocs : docs ≠ []) :
    widths (names.map String.toList) ((docs.map (cells names)).map (·.map cellText)) =
      columnWidths names docs := by
  obtain ⟨d, docs, rfl⟩ := List.exists_cons_of_ne_nil hdocs
  have hrows : ((d :: docs).map (cells names)).map (·.map cellText) =
      (d :: docs).map fun d => names.map fun name => cellText (d.get? name) := by
    simp only [List.map_map, Function.comp_def, cells]
  rw [widths, hrows, List.map_map, foldl_widen]
  rfl

/-! ### Texts in columns -/

/-- What a column of the given width shows of a text: as many characters as the column is wide,
which are the whole text and blanks if the text fits, and otherwise its beginning and an
ellipsis. -/
structure Shows (w : Nat) (text shown : List Char) : Prop where
  length : shown.length = w
  whole : text.length ≤ w → ∃ n, shown = text ++ List.replicate n ' '
  cut : w < text.length → shown = text.take (w - 1) ++ ['…']

/-- An ellipsis needs a column of at least one character. -/
theorem shows_fit {text : List Char} (h : text.length ≤ w ∨ 0 < w) : Shows w text (fit w text) := by
  by_cases hfits : text.length ≤ w
  · have hwhole : fit w text = text ++ List.replicate (w - text.length) ' ' := by
      rw [fit, truncate, if_pos hfits, Style.pad]
    refine ⟨?_, fun _ => ⟨_, hwhole⟩, fun hlong => absurd hfits (Nat.not_le.mpr hlong)⟩
    rw [hwhole, List.length_append, List.length_replicate]
    omega
  · -- what is cut fills the column, so that no blanks follow the ellipsis
    have hlength : (text.take (w - 1) ++ ['…']).length = w := by
      rw [List.length_append, List.length_take, List.length_singleton]
      omega
    have hcut : fit w text = text.take (w - 1) ++ ['…'] := by
      rw [fit, truncate, if_neg hfits, Style.pad, hlength, Nat.sub_self, List.replicate_zero,
        List.append_nil]
    exact ⟨hcut ▸ hlength, fun hle => absurd hle hfits, fun _ => hcut⟩

/-- Every text of a column is shown in it. -/
theorem shows_fit_columnWidth {text : List Char} {name : String}
    (h : text ∈ name.toList :: column docs name) :
    Shows (columnWidth docs name) text (fit (columnWidth docs name) text) := by
  refine shows_fit ((fits_or_columnWidth_eq h).imp_right fun hwidth => ?_)
  rw [hwidth]
  decide

/-! ### Ruled lines -/

/-- A line of pieces, with a bar in front of them and one behind each of them. -/
def ruled (first : Char) (pieces : List (List Char × Char)) : List Char :=
  first :: pieces.flatMap fun p => p.1 ++ [p.2]

theorem ruled_cons (first : Char) (p : List Char × Char) (pieces : List (List Char × Char)) :
    ruled first (p :: pieces) = first :: p.1 ++ ruled p.2 pieces := by
  simp [ruled]

/-- The pieces fill columns of the given widths, and have room for a blank at either end. -/
def Fills (ws : List Nat) (pieces : List (List Char × Char)) : Prop :=
  List.Forall₂ (fun w p => p.1.length = w + 2) ws pieces

/-- The places of the bars: in front of all columns, and behind each column with its blanks. -/
def barAt : List Nat → Nat → Nat
  | w :: ws, i + 1 => w + 3 + barAt ws i
  | _, _ => 0

theorem barAt_succ (w : Nat) (ws : List Nat) (i : Nat) :
    barAt (w :: ws) (i + 1) = w + 3 + barAt ws i := rfl

/-- What a line shows in a column, between the blanks at its ends. -/
def field (ws : List Nat) (i : Nat) (line : String) : List Char :=
  (line.toList.drop (barAt ws i + 2)).take (ws[i]?.getD 0)

section Ruled

variable (first : Char) {pieces : List (List Char × Char)}

/-- **Pieces that fill the columns leave the bars in their places.** -/
theorem drop_ruled (h : Fills ws pieces) (hi : i ≤ ws.length) :
    ∃ bar ∈ first :: pieces.map Prod.snd,
      (ruled first pieces).drop (barAt ws i) = ruled bar (pieces.drop i) := by
  induction h generalizing first i with
  | nil =>
    obtain rfl : i = 0 := Nat.le_zero.mp hi
    exact ⟨first, List.mem_cons_self, rfl⟩
  | @cons w p ws pieces hp _ ih =>
    cases i with
    | zero => exact ⟨first, List.mem_cons_self, rfl⟩
    | succ i =>
      obtain ⟨bar, hbar, hdrop⟩ := ih p.2 (Nat.le_of_succ_le_succ hi)
      have hpiece : (first :: p.1).length = w + 3 := by rw [List.length_cons, hp]
      refine ⟨bar, List.mem_cons_of_mem first hbar, ?_⟩
      rw [barAt_succ, ← List.drop_drop, ruled_cons, List.drop_left' hpiece, hdrop,
        List.drop_succ_cons]

theorem length_ruled (h : Fills ws pieces) :
    (ruled first pieces).length = barAt ws ws.length + 1 := by
  obtain ⟨bar, -, hdrop⟩ := drop_ruled first h (Nat.le_refl ws.length)
  have hend : (ruled bar (pieces.drop ws.length)).length = 1 := by
    rw [List.drop_of_length_le (Nat.le_of_eq h.length_eq.symm)]
    rfl
  rw [← hdrop, List.length_drop] at hend
  omega

theorem getElem?_ruled (h : Fills ws pieces) (hi : i ≤ ws.length) :
    ∃ bar ∈ first :: pieces.map Prod.snd, (ruled first pieces)[barAt ws i]? = some bar := by
  obtain ⟨bar, hbar, hdrop⟩ := drop_ruled first h hi
  refine ⟨bar, hbar, ?_⟩
  rw [← List.head?_drop, hdrop]
  rfl

/-- What stands in a piece between blanks is what the line shows in its column. -/
theorem field_ruled (h : Fills ws pieces) {shown : List Char} {bar : Char}
    (hp : pieces[i]? = some (' ' :: (shown ++ [' ']), bar)) :
    field ws i (String.ofList (ruled first pieces)) = shown := by
  obtain ⟨hi, hget⟩ := List.getElem?_eq_some_iff.mp hp
  have hws : i < ws.length := h.length_eq.symm ▸ hi
  have hwidth : ws[i]?.getD 0 = shown.length := by
    have hlength := h.get hws hi
    rw [List.get_eq_getElem, List.get_eq_getElem, hget] at hlength
    rw [List.getElem?_eq_getElem hws, Option.getD_some]
    simp only [List.length_cons, List.length_append, List.length_nil] at hlength
    omega
  obtain ⟨front, -, hdrop⟩ := drop_ruled first h (Nat.le_of_lt hws)
  have hshown : (ruled first pieces).drop (barAt ws i + 2) =
      shown ++ ([' '] ++ ruled bar (pieces.drop (i + 1))) := by
    rw [← List.drop_drop, hdrop, List.drop_eq_getElem_cons hi, hget, ruled_cons]
    simp
  rw [field, String.toList_ofList, hshown, hwidth, List.take_left]

end Ruled

/-! ### Borders and rows -/

/-- A border has its bars around stretches of a horizontal line. -/
theorem exists_ruled_border (left middle right : Char) (hws : ws ≠ []) :
    ∃ pieces, border left middle right ws = ruled left pieces ∧ Fills ws pieces ∧
      ∀ p ∈ pieces, p.2 = middle ∨ p.2 = right := by
  induction ws generalizing left with
  | nil => exact absurd rfl hws
  | cons w ws ih =>
    have hdashes : (List.replicate (w + 2) '─').length = w + 2 := List.length_replicate
    cases ws with
    | nil =>
      refine ⟨[(List.replicate (w + 2) '─', right)], ?_, List.Forall₂.cons hdashes .nil, ?_⟩
      · rw [border, List.map_singleton, List.intercalate_singleton, ruled, List.flatMap_singleton]
      · rintro p hp
        rw [List.mem_singleton.mp hp]
        exact Or.inr rfl
    | cons w' ws =>
      -- behind the first column the border goes on like one that begins with a middle bar
      obtain ⟨pieces, hborder, hfills, hbars⟩ := ih middle (List.cons_ne_nil w' ws)
      refine ⟨(List.replicate (w + 2) '─', middle) :: pieces, ?_, List.Forall₂.cons hdashes hfills,
        List.forall_mem_cons.mpr ⟨Or.inl rfl, hbars⟩⟩
      rw [ruled_cons, ← hborder, border, border, List.map_cons, List.map_cons,
        List.intercalate_cons_cons]
      simp

/-- The pieces of a row: a text for each column. -/
def rowPieces (names : List String) (docs : List Document) (text : String → List Char) :
    List (List Char × Char) :=
  names.map fun name => (' ' :: (fit (columnWidth docs name) (text name) ++ [' ']), '│')

/-- Without color a style leaves a text as it is. -/
theorem paint_false (s : Style) (text : List Char) : s.paint false text = text := by
  rw [Style.paint, Style.paintWide, Style.shows, Bool.false_and, if_neg Bool.false_ne_true,
    Style.pad, Nat.zero_sub, List.replicate_zero, List.append_nil]

theorem row_eq_ruled (style : String → Style) (text : String → List Char) :
    row false (names.map fun name => (columnWidth docs name, style name, text name)) =
      ruled '│' (rowPieces names docs text) := by
  simp only [row, ruled, rowPieces, List.flatMap_map, paint_false, List.cons_append,
    List.append_assoc, List.nil_append]

section Rows

variable {text : String → List Char}
  (htext : ∀ name ∈ names, text name ∈ name.toList :: column docs name)

include htext

theorem fills_rowPieces : Fills (columnWidths names docs) (rowPieces names docs text) := by
  rw [Fills, columnWidths, rowPieces, List.forall₂_map_left_iff, List.forall₂_map_right_iff,
    List.forall₂_same]
  intro name hname
  have hlength := (shows_fit_columnWidth (htext name hname)).length
  rw [List.length_cons, List.length_append, hlength, List.length_singleton]

/-- **A row shows its texts**, each in its column. -/
theorem shows_field {name : String} (hname : names[i]? = some name) :
    Shows (columnWidth docs name) (text name)
      (field (columnWidths names docs) i
        (String.ofList (ruled '│' (rowPieces names docs text)))) := by
  have hpiece : (rowPieces names docs text)[i]? =
      some (' ' :: (fit (columnWidth docs name) (text name) ++ [' ']), '│') := by
    rw [rowPieces, List.getElem?_map, hname, Option.map_some]
  rw [field_ruled '│' (fills_rowPieces htext) hpiece]
  exact shows_fit_columnWidth (htext name (List.mem_of_getElem? hname))

end Rows

/-! ### Whole tables -/

/-- The bars of borders and rows. -/
def bars : List Char := ['│', '┌', '┬', '┐', '├', '┼', '┤', '└', '┴', '┘']

/-- The line has its bars around columns of the given widths, and ends with the last of them. -/
structure IsRuled (ws : List Nat) (line : String) : Prop where
  length : line.length = barAt ws ws.length + 1
  bar : ∀ i ≤ ws.length, ∃ c ∈ bars, line.toList[barAt ws i]? = some c

/-- The line shows a text in each column. -/
def ShowsTexts (names : List String) (docs : List Document) (text : String → List Char)
    (line : String) : Prop :=
  ∀ i name, names[i]? = some name →
    Shows (columnWidth docs name) (text name) (field (columnWidths names docs) i line)

/-- **The lines are an aligned table** of the documents: they have as many characters as each other,
and their bars stand in the same places, around columns of at most forty characters. Between
borders they show the names of the columns and the cells of each document. -/
structure Aligned (names : List String) (docs : List Document) (lines : List String) : Prop where
  length_eq : ∃ n, ∀ line ∈ lines, line.length = n
  ruled : ∀ line ∈ lines, IsRuled (columnWidths names docs) line
  width_le : ∀ w ∈ columnWidths names docs, w ≤ 40
  shows : ∃ top header middle rows bottom,
    lines = [top, header, middle] ++ rows ++ [bottom] ∧
    ShowsTexts names docs String.toList header ∧
    List.Forall₂ (fun d line => ShowsTexts names docs (fun name => cellText (d.get? name)) line)
      docs rows

theorem isRuled_ruled {first : Char} {pieces : List (List Char × Char)} (h : Fills ws pieces)
    (hbars : ∀ bar ∈ first :: pieces.map Prod.snd, bar ∈ bars) :
    IsRuled ws (String.ofList (ruled first pieces)) := by
  refine ⟨by rw [String.length_ofList, length_ruled first h], fun i hi => ?_⟩
  obtain ⟨bar, hbar, hget⟩ := getElem?_ruled first h hi
  exact ⟨bar, hbars bar hbar, by rw [String.toList_ofList, hget]⟩

theorem isRuled_border {left middle right : Char} (hws : ws ≠ []) (hleft : left ∈ bars)
    (hmiddle : middle ∈ bars) (hright : right ∈ bars) :
    IsRuled ws (String.ofList (border left middle right ws)) := by
  obtain ⟨pieces, hborder, hfills, hbars⟩ := exists_ruled_border left middle right hws
  rw [hborder]
  refine isRuled_ruled hfills (List.forall_mem_cons.mpr ⟨hleft, List.forall_mem_map.mpr ?_⟩)
  intro p hp
  rcases hbars p hp with hbar | hbar <;> rwa [hbar]

theorem isRuled_row {text : String → List Char}
    (htext : ∀ name ∈ names, text name ∈ name.toList :: column docs name) :
    IsRuled (columnWidths names docs)
      (String.ofList (ruled '│' (rowPieces names docs text))) := by
  have hbar : '│' ∈ bars := by decide
  refine isRuled_ruled (fills_rowPieces htext)
    (List.forall_mem_cons.mpr ⟨hbar, List.forall_mem_map.mpr ?_⟩)
  exact List.forall_mem_map.mpr fun _ _ => hbar

/-- The lines of a table with rows. -/
theorem lines_eq (hdocs : docs ≠ []) :
    lines false names docs =
      ([border '┌' '┬' '┐' (columnWidths names docs),
        ruled '│' (rowPieces names docs String.toList),
        border '├' '┼' '┤' (columnWidths names docs)] ++
        docs.map (fun d => ruled '│' (rowPieces names docs fun name => cellText (d.get? name))) ++
        [border '└' '┴' '┘' (columnWidths names docs)]).map String.ofList := by
  have hheader : row false (List.zipWith (fun w name => (w, Style.boldCyan, name))
      (columnWidths names docs) (names.map String.toList)) =
      ruled '│' (rowPieces names docs String.toList) := by
    rw [columnWidths, List.zipWith_map, List.zipWith_self, row_eq_ruled fun _ => Style.boldCyan]
  have hrow (d : Document) : row false (List.zipWith (fun w c => (w, cellStyle c, cellText c))
      (columnWidths names docs) (cells names d)) =
      ruled '│' (rowPieces names docs fun name => cellText (d.get? name)) := by
    rw [columnWidths, cells, List.zipWith_map, List.zipWith_self,
      row_eq_ruled fun name => cellStyle (d.get? name)]
  simp only [lines, widths_eq hdocs, hheader]
  simp only [List.map_map, Function.comp_def, hrow]

/-- A table with rows and columns is aligned. -/
theorem aligned_of_ne_nil (hnames : names ≠ []) (hdocs : docs ≠ []) :
    Aligned names docs (lines false names docs) := by
  have hws : columnWidths names docs ≠ [] := by simpa [columnWidths] using hnames
  have hheader : ∀ name ∈ names, name.toList ∈ name.toList :: column docs name := fun _ _ =>
    List.mem_cons_self
  have hrow (d : Document) (hd : d ∈ docs) :
      ∀ name ∈ names, cellText (d.get? name) ∈ name.toList :: column docs name := fun _ _ =>
    List.mem_cons_of_mem _ (List.mem_map.mpr ⟨d, hd, rfl⟩)
  have hruled : ∀ line ∈ lines false names docs, IsRuled (columnWidths names docs) line := by
    rw [lines_eq hdocs, List.forall_mem_map]
    simp only [List.forall_mem_append, List.forall_mem_cons, List.forall_mem_map]
    exact ⟨⟨⟨isRuled_border hws (by decide) (by decide) (by decide), isRuled_row hheader,
        isRuled_border hws (by decide) (by decide) (by decide), List.forall_mem_nil _⟩,
      fun d hd => isRuled_row (hrow d hd)⟩,
      isRuled_border hws (by decide) (by decide) (by decide), List.forall_mem_nil _⟩
  refine ⟨⟨_, fun line hline => (hruled line hline).length⟩, hruled, ?_, ?_⟩
  · exact List.forall_mem_map.mpr fun name _ => Nat.min_le_right _ maxWidth
  · rw [lines_eq hdocs, List.map_append, List.map_append]
    refine ⟨_, _, _, _, _, rfl, fun i name hname => shows_field hheader hname, ?_⟩
    rw [List.map_map, List.forall₂_map_right_iff, List.forall₂_same]
    exact fun d hd i name hname => shows_field (hrow d hd) hname

/-- The column of the ids is always visible. -/
theorem visibleColumns_ne_nil (attributes : List Attribute) (limit : Nat) :
    visibleColumns attributes limit ≠ [] := by
  obtain ⟨n, hn⟩ := Nat.exists_eq_add_of_le' (Nat.le_max_right limit 1)
  rw [visibleColumns, hn, List.take_succ_cons]
  exact List.cons_ne_nil _ _

/-- **Every table of documents is aligned**: with any columns, and so for any attributes that are
known of the documents. -/
theorem lines_aligned {docs : List Document} (hdocs : docs ≠ []) :
    (∀ names, names ≠ [] → Aligned names docs (lines false names docs)) ∧
      ∀ attributes limit,
        Aligned (visibleColumns attributes limit) docs
          (lines false (visibleColumns attributes limit) docs) :=
  ⟨fun _ hnames => aligned_of_ne_nil hnames hdocs,
    fun attributes limit => aligned_of_ne_nil (visibleColumns_ne_nil attributes limit) hdocs⟩

/-- Documents with an empty cell, one that is too long for its column and one that is missing. -/
def notes : List Document :=
  [{ Document.ofId (.string "é") with fields := [("note", .string "")] },
    { Document.ofId (.int 7) with
      fields := [("note", .string "forty-one characters do not fit in a cell")] },
    Document.ofId .null]

theorem lines_aligned_notes :
    notes ≠ [] ∧ Aligned ["id", "note"] notes (lines false ["id", "note"] notes) ∧
      Aligned (visibleColumns [] 6) notes (lines false (visibleColumns [] 6) notes) := by
  have hnotes : notes ≠ [] := List.cons_ne_nil _ _
  exact ⟨hnotes, (lines_aligned hnotes).1 _ (List.cons_ne_nil _ _), (lines_aligned hnotes).2 [] 6⟩

example : lines false ["id", "note"] notes =
    ["┌──────┬──────────────────────────────────────────┐",
      "│ id   │ note                                     │",
      "├──────┼──────────────────────────────────────────┤",
      "│ é    │                                          │",
      "│ 7    │ forty-one characters do not fit in a ce… │",
      "│ NULL │ NULL                                     │",
      "└──────┴──────────────────────────────────────────┘"] := by
  cbv

end Table

end DocQuery
