import Mathlib.Algebra.GroupWithZero.Nat
import ParseView.Proofs.ColumnWidths
import ParseView.Proofs.Escaping
import ParseView.Proofs.Lines
import ParseView.Token.Table

/-! The drawing of a table line by line: fields side by side between strokes, one field for each
column, as wide as the column on every line. -/

namespace ParseView

open Picture

/-- Fields side by side, with a stroke at either end and one between neighbours. -/
def fenced (left inner right : Stroke) (fields : List (Picture Stroke)) : Picture Stroke :=
  .glyph left :: [Piece.glyph inner].intercalate fields ++ [.glyph right]

theorem fenced_singleton (left inner right : Stroke) (field : Picture Stroke) :
    fenced left inner right [field] = .glyph left :: field ++ [.glyph right] := by
  simp [fenced]

theorem fenced_cons_cons (left inner right : Stroke) (field next : Picture Stroke)
    (rest : List (Picture Stroke)) :
    fenced left inner right (field :: next :: rest) =
      .glyph left :: field ++ fenced inner inner right (next :: rest) := by
  simp [fenced, List.intercalate_cons_cons]

theorem width_fenced [TextWidth] (left inner right : Stroke) (fields : List (Picture Stroke))
    (nonempty : fields ≠ []) :
    width (fenced left inner right fields) = 1 + ((fields.map width).map (· + 1)).sum := by
  induction fields generalizing left with
  | nil => exact absurd rfl nonempty
  | cons field rest ih =>
      cases rest with
      | nil => simp [fenced_singleton, Piece.width]
      | cons next rest =>
          rw [fenced_cons_cons, width_append, ih inner (by simp)]
          simp [Piece.width]
          omega

namespace Piece

def isSeparator : Piece Stroke → Bool
  | glyph (.rule _ .horizontal) => false
  | glyph _ => true
  | _ => false

end Piece

def separatorColumns [TextWidth] : Nat → Picture Stroke → List Nat
  | _, [] => []
  | column, piece :: rest =>
      if piece.isSeparator then column :: separatorColumns (column + piece.width) rest
      else separatorColumns (column + piece.width) rest

def separatorPositions (column : Nat) (widths : ColumnWidths) : List Nat :=
  widths.scanl (fun position width => position + width + 1) column

theorem separatorColumns_append [TextWidth] (column : Nat) (first second : Picture Stroke) :
    separatorColumns column (first ++ second) =
      separatorColumns column first ++ separatorColumns (column + width first) second := by
  induction first generalizing column with
  | nil => rfl
  | cons piece rest ih =>
      simp only [List.cons_append, separatorColumns, ih, width_cons, Nat.add_assoc]
      split <;> rfl

theorem separatorColumns_field [TextWidth] (column : Nat) (field : Picture Stroke)
    (plain : ∀ piece ∈ field, piece.isSeparator = false) : separatorColumns column field = [] := by
  induction field generalizing column with
  | nil => rfl
  | cons piece rest ih =>
      rw [separatorColumns, plain piece (by simp)]
      exact ih _ fun other member => plain other (by simp [member])

theorem separatorColumns_fenced [TextWidth] (left inner right : Stroke)
    (fields : List (Picture Stroke)) (column : Nat) (nonempty : fields ≠ [])
    (separators : ∀ stroke ∈ [left, inner, right], (Piece.glyph stroke).isSeparator = true)
    (plain : ∀ field ∈ fields, ∀ piece ∈ field, piece.isSeparator = false) :
    separatorColumns column (fenced left inner right fields) =
      separatorPositions column (fields.map width) := by
  -- The stroke after a field is the left end of the line that the other fields make up.
  have leftmost := separators left (by simp)
  have rightmost := separators right (by simp)
  induction fields generalizing left column with
  | nil => exact absurd rfl nonempty
  | cons field rest ih =>
      have none := separatorColumns_field (column + 1) field (plain field (by simp))
      cases rest with
      | nil =>
          simp [fenced_singleton, separatorColumns, separatorColumns_append, leftmost, rightmost,
            none, separatorPositions, Piece.width, Nat.add_right_comm]
      | cons next rest =>
          have later := ih inner (column + 1 + width field) (by simp)
            (by simpa using ⟨separators inner (by simp), rightmost⟩)
            (fun other member => plain other (by simp [member])) (separators inner (by simp))
          rw [fenced_cons_cons, List.cons_append, separatorColumns, leftmost,
            separatorColumns_append]
          simp only [Piece.width, none, later, if_true, List.nil_append]
          simp [separatorPositions, Nat.add_right_comm]

def cellFields [TextWidth] (rightAligned : Nat) : Nat → Row → ColumnWidths → List (Picture Stroke)
  | index, cell :: cells, width :: widths =>
      TokenTable.cellPieces (index < rightAligned) width cell ::
        cellFields rightAligned (index + 1) cells widths
  | _, [], _ => []
  | _, _ :: _, [] => []

theorem length_cellFields [TextWidth] (rightAligned index : Nat) {widths : ColumnWidths} {row : Row}
    (fits : widths.Fits row) :
    (cellFields rightAligned index row widths).length = widths.length := by
  induction fits generalizing index with
  | nil => rfl
  | cons _ _ ih => simp [cellFields, ih]

theorem getElem?_cellFields [TextWidth] (rightAligned index : Nat) (row : Row)
    (widths : ColumnWidths) (column width : Nat) (cell : String)
    (measured : widths[column]? = some width) (filled : row[column]? = some cell) :
    (cellFields rightAligned index row widths)[column]? =
      some (TokenTable.cellPieces (index + column < rightAligned) width cell) := by
  induction column generalizing index row widths with
  | zero =>
      cases row with
      | nil => simp at filled
      | cons first cells =>
          cases widths with
          | nil => simp at measured
          | cons wide widths => simp_all [cellFields]
  | succ column ih =>
      cases row with
      | nil => simp at filled
      | cons first cells =>
          cases widths with
          | nil => simp at measured
          | cons wide widths =>
              rw [cellFields, List.getElem?_cons_succ,
                ih (index + 1) cells widths (by simpa using measured) (by simpa using filled),
                Nat.add_right_comm, Nat.add_assoc]

theorem width_cellPieces [TextWidth] (alignRight : Bool) {columnWidth : Nat} {cell : String}
    (fits : displayWidth cell ≤ columnWidth) :
    width (TokenTable.cellPieces alignRight columnWidth cell) = columnWidth := by
  cases alignRight with
  | false =>
      simp [TokenTable.cellPieces, Piece.width]
      omega
  | true =>
      simp [TokenTable.cellPieces, Piece.width]
      omega

theorem map_width_cellFields [TextWidth] (rightAligned index : Nat) {widths : ColumnWidths}
    {row : Row} (fits : widths.Fits row) :
    (cellFields rightAligned index row widths).map width = widths := by
  induction fits generalizing index with
  | nil => rfl
  | cons here _ ih => simp [cellFields, width_cellPieces _ here, ih]

theorem cellsPieces_eq [TextWidth] (rightAligned index : Nat) {widths : ColumnWidths} {row : Row}
    (fits : widths.Fits row) (nonempty : row ≠ []) :
    TokenTable.cellsPieces rightAligned index row widths =
      [Piece.glyph Stroke.innerVertical].intercalate (cellFields rightAligned index row widths) ++
        [.glyph .outerVertical] := by
  induction fits generalizing index with
  | nil => exact absurd rfl nonempty
  | cons _ later ih =>
      cases later with
      | nil => simp [TokenTable.cellsPieces, cellFields]
      | cons here later =>
          rw [TokenTable.cellsPieces, ih (index + 1) (by simp)]
          simp [cellFields, List.intercalate_cons_cons]

def rowLine [TextWidth] (rightAligned : Nat) (widths : ColumnWidths) (row : Row) : Picture Stroke :=
  fenced .outerVertical .innerVertical .outerVertical (cellFields rightAligned 0 row widths)

def ruleLine (line : Rule) (widths : ColumnWidths) : Picture Stroke :=
  fenced (.rule line .left) (.rule line .division) (.rule line .right)
    (widths.map fun width => List.replicate width (.glyph (.rule line .horizontal)))

theorem borderPieces_eq (line : Rule) (widths : ColumnWidths) :
    TokenTable.borderPieces line widths = ruleLine line widths ++ [.newline] := by
  simp [TokenTable.borderPieces, ruleLine, fenced]

theorem rowPieces_eq [TextWidth] (rightAligned : Nat) {widths : ColumnWidths} {row : Row}
    (fits : widths.Fits row) (nonempty : row ≠ []) :
    TokenTable.rowPieces rightAligned widths row =
      rowLine rightAligned widths row ++ [.newline] := by
  simp [TokenTable.rowPieces, cellsPieces_eq rightAligned 0 fits nonempty, rowLine, fenced]

theorem map_width_rules [TextWidth] (line : Rule) (widths : ColumnWidths) :
    (widths.map fun width => List.replicate width
      (Piece.glyph (Stroke.rule line .horizontal))).map width = widths := by
  rw [List.map_map]
  exact List.map_id'' (fun columnWidth => width_replicate_glyph columnWidth _) widths

theorem exists_cell_of_mem_cellFields [TextWidth] {rightAligned index : Nat} {row : Row}
    {widths : ColumnWidths} {field : Picture Stroke}
    (member : field ∈ cellFields rightAligned index row widths) :
    ∃ cell ∈ row, ∀ piece ∈ field, piece = .text cell ∨ ∃ count, piece = .blank count := by
  induction row generalizing index widths with
  | nil => simp [cellFields] at member
  | cons cell cells ih =>
      cases widths with
      | nil => simp [cellFields] at member
      | cons width widths =>
          rcases List.mem_cons.mp member with rfl | later
          · refine ⟨cell, by simp, ?_⟩
            intro piece inside
            rw [TokenTable.cellPieces] at inside
            split at inside <;> simp at inside <;> tauto
          · obtain ⟨other, among, pieces⟩ := ih later
            exact ⟨other, by simp [among], pieces⟩

section

variable [TextWidth] (rightAligned : Nat) {widths : ColumnWidths} {row : Row}
  (fits : widths.Fits row) (nonempty : row ≠ [])
include fits nonempty

theorem cellFields_ne_nil : cellFields rightAligned 0 row widths ≠ [] := by
  rw [← List.length_pos_iff, length_cellFields rightAligned 0 fits, ← fits.length_eq,
    List.length_pos_iff]
  exact nonempty

theorem width_rowLine :
    width (rowLine rightAligned widths row) = 1 + (widths.map (· + 1)).sum := by
  rw [rowLine, width_fenced _ _ _ _ (cellFields_ne_nil rightAligned fits nonempty),
    map_width_cellFields rightAligned 0 fits]

theorem separatorColumns_rowLine (column : Nat) :
    separatorColumns column (rowLine rightAligned widths row) =
      separatorPositions column widths := by
  rw [rowLine, separatorColumns_fenced _ _ _ _ _ (cellFields_ne_nil rightAligned fits nonempty),
    map_width_cellFields rightAligned 0 fits]
  · simp [Piece.isSeparator]
  · intro field member piece inside
    obtain ⟨cell, _, pieces⟩ := exists_cell_of_mem_cellFields member
    rcases pieces piece inside with rfl | ⟨count, rfl⟩ <;> rfl

end

section

variable [TextWidth] (line : Rule) {widths : ColumnWidths} (nonempty : widths ≠ [])
include nonempty

theorem width_ruleLine : width (ruleLine line widths) = 1 + (widths.map (· + 1)).sum := by
  rw [ruleLine, width_fenced _ _ _ _ (by simpa using nonempty), map_width_rules]

theorem separatorColumns_ruleLine (column : Nat) :
    separatorColumns column (ruleLine line widths) = separatorPositions column widths := by
  rw [ruleLine, separatorColumns_fenced _ _ _ _ _ (by simpa using nonempty), map_width_rules]
  · simp [Piece.isSeparator]
  · intro field member piece inside
    obtain ⟨width, _, rfl⟩ := List.mem_map.mp member
    rw [List.eq_of_mem_replicate inside]
    rfl

end

open OneColumnEach in
example : separatorColumns 0 (ruleLine .top [1, 3]) = [0, 2, 6] := by decide

section Pieces

variable (Allowed : Piece Stroke → Prop) (strokes : ∀ stroke, Allowed (.glyph stroke))
include strokes

theorem forall_piece_fenced (left inner right : Stroke) (fields : List (Picture Stroke))
    (each : ∀ field ∈ fields, ∀ piece ∈ field, Allowed piece) :
    ∀ piece ∈ fenced left inner right fields, Allowed piece := by
  induction fields generalizing left with
  | nil => simp [fenced, strokes]
  | cons field rest ih =>
      have here := each field (by simp)
      cases rest with
      | nil => simpa [fenced_singleton, strokes, or_imp, forall_and] using here
      | cons next rest =>
          have later := ih inner fun other member => each other (by simp [member])
          intro piece member
          rw [fenced_cons_cons, List.cons_append, List.mem_cons, List.mem_append] at member
          rcases member with rfl | inside | inside
          · exact strokes left
          · exact here piece inside
          · exact later piece inside

theorem forall_piece_ruleLine (line : Rule) (widths : ColumnWidths) :
    ∀ piece ∈ ruleLine line widths, Allowed piece := by
  apply forall_piece_fenced Allowed strokes
  intro field member piece inside
  obtain ⟨width, _, rfl⟩ := List.mem_map.mp member
  rw [List.eq_of_mem_replicate inside]
  exact strokes _

theorem forall_piece_rowLine [TextWidth] (blanks : ∀ count, Allowed (.blank count))
    (rightAligned : Nat)
    (widths : ColumnWidths) (row : Row) (texts : ∀ cell ∈ row, Allowed (.text cell)) :
    ∀ piece ∈ rowLine rightAligned widths row, Allowed piece := by
  apply forall_piece_fenced Allowed strokes
  intro field member piece inside
  obtain ⟨cell, among, pieces⟩ := exists_cell_of_mem_cellFields member
  rcases pieces piece inside with rfl | ⟨count, rfl⟩
  · exact texts cell among
  · exact blanks count

end Pieces

end ParseView
