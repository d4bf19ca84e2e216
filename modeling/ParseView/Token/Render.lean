import ParseView.Token.Table

/-! Writing the drawing of a token stream row by row. A write that fails ends it. -/

namespace ParseView.TokenTable

open Picture

section Writing

variable [TextWidth] {m : Type → Type} [Monad m] (put : String → m Unit) (fill : Stroke → Char)

def writeCells (rightAligned : Nat) : Nat → Row → ColumnWidths → m Unit
  | index, cell :: cells, width :: widths => do
      writeTo put fill (cellPieces (index < rightAligned) width cell)
      writeTo put fill [.glyph (if cells.isEmpty then .outerVertical else .innerVertical)]
      writeCells rightAligned (index + 1) cells widths
  | _, [], _ => pure ()
  | _, _ :: _, [] => pure ()

def writeRow (rightAligned : Nat) (widths : ColumnWidths) (row : Row) : m Unit := do
  writeTo put fill [.glyph .outerVertical]
  writeCells put fill rightAligned 0 row widths
  writeTo put fill [.newline]

/-- Writes the whole drawing. Every column is measured before anything is written. -/
def render (glyphs : Glyphs) (table : TokenTable) (tokens : List Token) : m Unit := do
  let rows := table.rows 1 tokens
  let widths := ColumnWidths.ofRows table.header rows
  writeTo put glyphs.stroke (borderPieces .top widths)
  writeRow put glyphs.stroke 0 widths table.header
  writeTo put glyphs.stroke (borderPieces .header widths)
  rows.forM (writeRow put glyphs.stroke numericColumns widths)
  writeTo put glyphs.stroke (borderPieces .bottom widths)

variable [LawfulMonad m]

theorem writeCells_eq (rightAligned index : Nat) (cells : Row) (widths : ColumnWidths) :
    writeCells put fill rightAligned index cells widths =
      writeTo put fill (cellsPieces rightAligned index cells widths) := by
  induction cells generalizing index widths with
  | nil => rfl
  | cons cell cells ih =>
      cases widths with
      | nil => rfl
      | cons width widths => simp [writeCells, cellsPieces, ih, writeTo_append]

theorem writeRow_eq (rightAligned : Nat) (widths : ColumnWidths) (row : Row) :
    writeRow put fill rightAligned widths row =
      writeTo put fill (rowPieces rightAligned widths row) := by
  simp [writeRow, rowPieces, writeCells_eq, writeTo_append]

/-- What is written is the picture, piece by piece. -/
theorem render_eq (glyphs : Glyphs) (table : TokenTable) (tokens : List Token) :
    table.render put glyphs tokens = (table.picture tokens).writeTo put glyphs.stroke := by
  have rows (widths : ColumnWidths) (rows : List Row) :
      rows.forM (writeRow put glyphs.stroke numericColumns widths) =
        writeTo put glyphs.stroke (rows.flatMap (rowPieces numericColumns widths)) := by
    rw [funext (writeRow_eq put glyphs.stroke numericColumns widths), writeTo_flatMap]
  simp only [render, picture, writeTo_append, writeRow_eq, rows, bind_assoc]

end Writing

end ParseView.TokenTable
