import ParseView.Proofs.TableGeometry

/-! The measured width of a column is the width of its widest cell, so it does not matter in which
order the rows come: borders and header of a table look the same for every order of its tokens. -/

namespace ParseView

open Picture

namespace ColumnWidths

def cellWidths [TextWidth] (rows : List Row) (column : Nat) : List Nat :=
  rows.map fun row => displayWidth (row.getD column "")

theorem getElem?_grow [TextWidth] (widths : ColumnWidths) (row : Row) (column : Nat) :
    (widths.grow row)[column]? =
      widths[column]?.map fun width => max width (displayWidth (row.getD column "")) := by
  induction widths, row using ColumnWidths.grow.induct generalizing column with
  | case1 width widths cell cells ih =>
      cases column with
      | zero => simp [grow]
      | succ column => simpa [grow] using ih column
  | case2 widths => simp [grow]
  | case3 cell cells => simp [grow]

theorem getElem?_foldl_grow [TextWidth] (widths : ColumnWidths) (rows : List Row) (column : Nat) :
    (rows.foldl ColumnWidths.grow widths)[column]? =
      widths[column]?.map fun width => (cellWidths rows column).foldl max width := by
  induction rows generalizing widths with
  | nil => simp [cellWidths]
  | cons row rest ih =>
      rw [List.foldl_cons, ih, getElem?_grow, Option.map_map]
      rfl

theorem getElem?_ofRows [TextWidth] (header : Row) (rows : List Row) {column : Nat}
    (inside : column < header.length) :
    (ofRows header rows)[column]? = (cellWidths (header :: rows) column).max? := by
  have first : (ofHeader header)[column]? = some (displayWidth (header.getD column "")) := by
    simp [ofHeader, inside]
  have cells : cellWidths (header :: rows) column =
      displayWidth (header.getD column "") :: cellWidths rows column := rfl
  rw [ofRows, getElem?_foldl_grow, first, cells, List.max?_cons']
  rfl

theorem forall₂_le_grow [TextWidth] (widths : ColumnWidths) (row : Row) :
    List.Forall₂ (· ≤ ·) widths (widths.grow row) := by
  induction widths, row using ColumnWidths.grow.induct with
  | case1 width widths cell cells ih => exact .cons (Nat.le_max_left _ _) ih
  | case2 widths => simp [grow, List.forall₂_same]
  | case3 cell cells => exact .nil

theorem cellWidths_zero [TextWidth] (rows : List Row) :
    cellWidths rows 0 =
      (rows.map List.head?).map fun cell => displayWidth (cell.getD "") := by
  rw [cellWidths, List.map_map]
  refine List.map_congr_left fun row _ => ?_
  cases row <;> simp

theorem cellWidths_succ [TextWidth] (rows : List Row) (column : Nat) :
    cellWidths rows (column + 1) = cellWidths (rows.map List.tail) column := by
  rw [cellWidths, cellWidths, List.map_map]
  refine List.map_congr_left fun row _ => ?_
  cases row <;> simp

theorem max?_eq_of_mem_iff {first second : List Nat}
    (same : ∀ number, number ∈ first ↔ number ∈ second) : first.max? = second.max? := by
  ext number
  simp [List.max?_eq_some_iff, same]

/-- What measuring a header and rows with the same number of cells gives. -/
structure Exact [TextWidth] (header : Row) (rows : List Row) : Prop where
  columns : (ofRows header rows).length = header.length
  widest : ∀ column < header.length,
    (ofRows header rows)[column]? = (cellWidths (header :: rows) column).max?
  widens : ∀ earlier row later, rows = earlier ++ row :: later →
    List.Forall₂ (· ≤ ·) (ofRows header earlier) (ofRows header (earlier ++ [row]))
  fits : ∀ row ∈ header :: rows, (ofRows header rows).Fits row
  attained : ∀ (column width : Nat), (ofRows header rows)[column]? = some width →
    ∃ row ∈ header :: rows, ∃ cell : String, row[column]? = some cell ∧ displayWidth cell = width
  unordered : ∀ others, (∀ row, row ∈ others ↔ row ∈ rows) →
    ofRows header others = ofRows header rows

section Measuring

variable {header : Row} {rows : List Row} (even : ∀ row ∈ rows, row.length = header.length)
include even

theorem length_ofRows [TextWidth] : (ofRows header rows).length = header.length :=
  (ofRows_fits header rows even header (by simp)).length_eq.symm

theorem exists_widest_cell [TextWidth] (column width : Nat)
    (measured : (ofRows header rows)[column]? = some width) :
    ∃ row ∈ header :: rows, ∃ cell : String, row[column]? = some cell ∧
      displayWidth cell = width := by
  have inside : column < header.length := by
    rw [← length_ofRows even]
    exact (List.getElem?_eq_some_iff.mp measured).1
  rw [getElem?_ofRows header rows inside, List.max?_eq_some_iff] at measured
  obtain ⟨row, member, attained⟩ := List.mem_map.mp measured.1
  have wide : row.length = header.length := by
    rcases List.mem_cons.mp member with rfl | later
    · rfl
    · exact even row later
  refine ⟨row, member, row.getD column "", ?_, attained⟩
  simp [List.getD_eq_getElem?_getD, wide, inside]

theorem ofRows_congr [TextWidth] {others : List Row}
    (othersEven : ∀ row ∈ others, row.length = header.length)
    (same : ∀ column width, width ∈ cellWidths others column ↔ width ∈ cellWidths rows column) :
    ofRows header others = ofRows header rows := by
  apply List.ext_getElem?
  intro column
  by_cases inside : column < header.length
  · rw [getElem?_ofRows header others inside, getElem?_ofRows header rows inside]
    apply max?_eq_of_mem_iff
    intro width
    rw [cellWidths, cellWidths, List.map_cons, List.map_cons, List.mem_cons, List.mem_cons]
    exact or_congr_right (same column width)
  · rw [List.getElem?_eq_none (by rw [length_ofRows othersEven]; omega),
      List.getElem?_eq_none (by rw [length_ofRows even]; omega)]

theorem exact_ofRows [TextWidth] : Exact header rows where
  columns := length_ofRows even
  widest column inside := getElem?_ofRows header rows inside
  widens earlier row later _ := by
    rw [ofRows, ofRows, List.foldl_append]
    exact forall₂_le_grow _ row
  fits := ofRows_fits header rows even
  attained := exists_widest_cell even
  unordered others same := by
    apply ofRows_congr even fun row member => even row ((same row).mp member)
    simp [cellWidths, same]

end Measuring

end ColumnWidths

namespace TokenTable

section Rows

variable (table : TokenTable)

theorem rows_cons (first : Nat) (token : Token) (rest : List Token) :
    table.rows first (token :: rest) = table.row first token :: table.rows (first + 1) rest := by
  simp [rows]

theorem map_head?_rows (first : Nat) (tokens : List Token) :
    (table.rows first tokens).map List.head? =
      (List.range' first tokens.length).map fun index => some (toString index) := by
  induction tokens generalizing first with
  | nil => rfl
  | cons token rest ih =>
      rw [rows_cons, List.map_cons, ih, List.length_cons, List.range'_succ, List.map_cons]
      rfl

theorem map_tail_rows (first : Nat) (tokens : List Token) :
    (table.rows first tokens).map List.tail = tokens.map fun token => (table.row 0 token).tail := by
  induction tokens generalizing first with
  | nil => rfl
  | cons token rest ih =>
      rw [rows_cons, List.map_cons, ih, List.map_cons]
      rfl

theorem cellWidths_rows_zero [TextWidth] (first : Nat) (tokens : List Token) :
    ColumnWidths.cellWidths (table.rows first tokens) 0 =
      (List.range' first tokens.length).map fun index => displayWidth (toString index) := by
  rw [ColumnWidths.cellWidths_zero, map_head?_rows, List.map_map]
  rfl

variable {table} {tokens others : List Token} (moved : tokens.Perm others)
include moved

theorem cellWidths_rows_perm [TextWidth] (column : Nat) :
    (ColumnWidths.cellWidths (table.rows 1 others) column).Perm
      (ColumnWidths.cellWidths (table.rows 1 tokens) column) := by
  cases column with
  | zero => rw [cellWidths_rows_zero, cellWidths_rows_zero, moved.length_eq]
  | succ column =>
      rw [ColumnWidths.cellWidths_succ, ColumnWidths.cellWidths_succ, map_tail_rows, map_tail_rows]
      exact (moved.symm.map _).map _

theorem widths_eq_of_perm [TextWidth] : table.widths others = table.widths tokens := by
  have even (stream : List Token) : ∀ row ∈ table.rows 1 stream,
      row.length = table.header.length := by
    intro row member
    rw [table.length_of_mem_rows stream row (by simp [member]), length_header]
  exact ColumnWidths.ofRows_congr (even tokens) (even others)
    fun column _ => (cellWidths_rows_perm moved column).mem_iff

end Rows

def drawnLines [TextWidth] (glyphs : Glyphs) (table : TokenTable) (tokens : List Token) : List
    (List Char) :=
  (table.picture tokens).lines.map (characters glyphs.stroke)

/-- What the printed tables of two lists of tokens have in common. -/
structure SharesFrame [TextWidth] (glyphs : Glyphs) (table : TokenTable)
    (tokens others : List Token) : Prop where
  printed : ∀ stream ∈ [tokens, others], (table.draw glyphs stream).toList =
    (table.drawnLines glyphs stream).flatMap fun line => line ++ ['\n']
  frame : ∃ top header divider bottom rows otherRows,
    table.drawnLines glyphs tokens = top :: header :: divider :: rows ++ [bottom] ∧
      table.drawnLines glyphs others = top :: header :: divider :: otherRows ++ [bottom] ∧
      rows.length = tokens.length ∧ otherRows.length = tokens.length
  indices : ∀ stream ∈ [tokens, others], (table.rows 1 stream).map List.head? =
    (List.range' 1 tokens.length).map fun index => some (toString index)
  moved : ((table.rows 1 others).map List.tail).Perm ((table.rows 1 tokens).map List.tail)

theorem toList_draw_eq [TextWidth] (glyphs : Glyphs) (table : TokenTable) (tokens : List Token) :
    (table.draw glyphs tokens).toList =
      (table.drawnLines glyphs tokens).flatMap fun line => line ++ ['\n'] := by
  rw [draw, toList_draw, drawnLines, lines_picture, picture_eq_ofLines, characters_ofLines,
    List.flatMap_map]

theorem exists_drawnLines_eq [TextWidth] (glyphs : Glyphs) (table : TokenTable)
    (tokens : List Token) {widths : ColumnWidths} (measured : table.widths tokens = widths) :
    ∃ rows, rows.length = tokens.length ∧ table.drawnLines glyphs tokens =
      characters glyphs.stroke (ruleLine .top widths) ::
        characters glyphs.stroke (rowLine 0 widths table.header) ::
        characters glyphs.stroke (ruleLine .header widths) :: rows ++
        [characters glyphs.stroke (ruleLine .bottom widths)] := by
  refine ⟨((table.rows 1 tokens).map (rowLine numericColumns widths)).map
    (characters glyphs.stroke), by simp [rows], ?_⟩
  rw [drawnLines, lines_picture, lines, measured]
  simp

theorem sharesFrame_of_perm [TextWidth] (glyphs : Glyphs) (table : TokenTable)
    {tokens others : List Token}
    (moved : tokens.Perm others) : SharesFrame glyphs table tokens others where
  printed stream _ := toList_draw_eq glyphs table stream
  frame := by
    obtain ⟨rows, count, drawn⟩ := exists_drawnLines_eq glyphs table tokens rfl
    obtain ⟨otherRows, otherCount, otherDrawn⟩ :=
      exists_drawnLines_eq glyphs table others (widths_eq_of_perm moved)
    exact ⟨_, _, _, _, rows, otherRows, drawn, otherDrawn, count,
      otherCount.trans moved.length_eq.symm⟩
  indices stream member := by
    have count : stream.length = tokens.length := by
      rcases List.mem_pair.mp member with rfl | rfl
      · rfl
      · exact moved.length_eq.symm
    rw [map_head?_rows, count]
  moved := by
    rw [map_tail_rows, map_tail_rows]
    exact moved.symm.map _

end TokenTable

/-- Every column is as wide as its widest cell, whatever the order of the rows. So a table of the
same tokens in another order is printed with the same borders and the same header. -/
theorem widths_measure_widest_cells [TextWidth] :
    (∀ header rows, (∀ row ∈ rows, row.length = header.length) →
        ColumnWidths.Exact header rows) ∧
      ∀ (glyphs : Glyphs) (table : TokenTable) (tokens others : List Token),
        tokens.Perm others → TokenTable.SharesFrame glyphs table tokens others :=
  ⟨fun _ _ even => ColumnWidths.exact_ofRows even,
    fun glyphs table _ _ moved => TokenTable.sharesFrame_of_perm glyphs table moved⟩

section

open scoped OneColumnEach

theorem widths_measure_widest_cells_swapped :
    let rows : List Row := [["1", "id"], ["10", "item"]]
    let first : Token := ⟨1, 0, 1, 0, "item"⟩
    let second : Token := ⟨1, 1, 120, 1, "\t\t"⟩
    (∀ row ∈ rows, row.length = ["#", ""].length) ∧ ColumnWidths.Exact ["#", ""] rows ∧
      [first, second].Perm [second, first] ∧
      TokenTable.SharesFrame .unicode ⟨.standard, { symbolic := [none, some "ID"] }⟩
        [first, second] [second, first] := by
  intro rows first second
  obtain ⟨exact, framed⟩ := widths_measure_widest_cells
  have even : ∀ row ∈ rows, row.length = ["#", ""].length := by decide
  have swapped : [first, second].Perm [second, first] := List.Perm.swap second first []
  exact ⟨even, exact _ rows even, swapped, framed _ _ _ _ swapped⟩

end

end ParseView
