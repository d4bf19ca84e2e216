import ParseView.Glyphs
import ParseView.Picture
import ParseView.Text.Escaped
import ParseView.Token.Basic
import ParseView.Token.Channels
import ParseView.Token.Vocabulary

/-! The drawing of a token stream as a table with one column per channel. -/

namespace ParseView

variable [TextWidth]

abbrev Row := List String

abbrev ColumnWidths := List Nat

namespace ColumnWidths

def ofHeader (header : Row) : ColumnWidths :=
  header.map displayWidth

/-- Widens columns to fit a row. A column that the row does not reach keeps its width. -/
def grow : ColumnWidths → Row → ColumnWidths
  | width :: widths, cell :: cells => max width (displayWidth cell) :: grow widths cells
  | widths, [] => widths
  | [], _ :: _ => []

def ofRows (header : Row) (rows : List Row) : ColumnWidths :=
  rows.foldl grow (ofHeader header)

end ColumnWidths

structure TokenTable where
  channels : Channels
  vocabulary : Vocabulary

namespace TokenTable

/-- Index, line and column come first, and are aligned on the right in the rows of tokens. -/
def numericColumns : Nat := 3

def header (table : TokenTable) : Row :=
  ["#", "lin", "col"] ++ table.channels.names ++ ["text"]

def channelCells (table : TokenTable) (token : Token) : Row :=
  (List.range table.channels.count).map fun column =>
    if table.channels.column token.channel = some column then
      table.vocabulary.displayName token.kind
    else
      ""

/-- The text is left out where the name of the kind already spells it. -/
def textCell (table : TokenTable) (token : Token) : String :=
  if table.vocabulary.hasLiteral token.kind then "" else escape token.text

def row (table : TokenTable) (index : Nat) (token : Token) : Row :=
  [toString index, toString token.line.toNat, toString token.column.toNat] ++
    table.channelCells token ++ [table.textCell token]

def rows (table : TokenTable) (first : Nat) (tokens : List Token) : List Row :=
  (tokens.zipIdx first).map fun (token, index) => table.row index token

def borderPieces (line : Rule) (widths : ColumnWidths) : Picture Stroke :=
  let horizontals := widths.map fun width => List.replicate width (.glyph (.rule line .horizontal))
  .glyph (.rule line .left) ::
    [Piece.glyph (.rule line .division)].intercalate horizontals ++
    [.glyph (.rule line .right), .newline]

def cellPieces (alignRight : Bool) (width : Nat) (cell : String) : Picture Stroke :=
  let fill := .blank (width - displayWidth cell)
  if alignRight then [fill, .text cell] else [.text cell, fill]

def cellsPieces (rightAligned : Nat) : Nat → Row → ColumnWidths → Picture Stroke
  | index, cell :: cells, width :: widths =>
      cellPieces (index < rightAligned) width cell ++
        .glyph (if cells.isEmpty then .outerVertical else .innerVertical) ::
        cellsPieces rightAligned (index + 1) cells widths
  | _, [], _ => []
  | _, _ :: _, [] => []

def rowPieces (rightAligned : Nat) (widths : ColumnWidths) (row : Row) : Picture Stroke :=
  .glyph .outerVertical :: cellsPieces rightAligned 0 row widths ++ [.newline]

/-- Top border, header, divider, one row per token, bottom border. -/
def picture (table : TokenTable) (tokens : List Token) : Picture Stroke :=
  let rows := table.rows 1 tokens
  let widths := ColumnWidths.ofRows table.header rows
  borderPieces .top widths ++ rowPieces 0 widths table.header ++ borderPieces .header widths ++
    rows.flatMap (rowPieces numericColumns widths) ++ borderPieces .bottom widths

def draw (glyphs : Glyphs) (table : TokenTable) (tokens : List Token) : String :=
  (table.picture tokens).draw glyphs.stroke

end TokenTable

end ParseView
