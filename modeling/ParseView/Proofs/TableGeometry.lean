import ParseView.Proofs.TableLines

/-! The geometry of a table drawing: every line has a field for each column, all lines are equally
wide, and their separators stand under each other. -/

namespace ParseView

open Picture

/-- The line holds every cell of the row in a field of its own, filled up with blanks to the width
of its column: on the left in the first `rightAligned` columns, on the right in all others. -/
def ShowsRow [TextWidth] (rightAligned : Nat) (widths : ColumnWidths) (row : Row)
    (line : Picture Stroke) : Prop :=
  ∃ fields, line = fenced .outerVertical .innerVertical .outerVertical fields ∧
    fields.length = widths.length ∧ row.length = widths.length ∧
    ∀ column width cell, widths[column]? = some width → row[column]? = some cell →
      ∃ fill, displayWidth cell + fill = width ∧
        fields[column]? = some (if column < rightAligned then [.blank fill, .text cell]
          else [.text cell, .blank fill])

theorem showsRow_rowLine [TextWidth] (rightAligned : Nat) {widths : ColumnWidths} {row : Row}
    (fits : widths.Fits row) :
    ShowsRow rightAligned widths row (rowLine rightAligned widths row) := by
  refine ⟨_, rfl, length_cellFields rightAligned 0 fits, fits.length_eq, ?_⟩
  intro column width cell measured filled
  have field := getElem?_cellFields rightAligned 0 row widths column width cell measured filled
  have room := fits.displayWidth_le measured filled
  refine ⟨width - displayWidth cell, by omega, ?_⟩
  rw [field]
  simp [TokenTable.cellPieces]

namespace Glyphs

def SingleLineStrokes (glyphs : Glyphs) : Prop :=
  ∀ stroke, glyphs.stroke stroke ≠ '\n'

theorem unicode_singleLineStrokes : unicode.SingleLineStrokes := by
  intro stroke
  cases stroke with
  | rule line part => cases line <;> cases part <;> decide
  | outerVertical => decide
  | innerVertical => decide

theorem ascii_singleLineStrokes : ascii.SingleLineStrokes := by
  intro stroke
  cases stroke with
  | rule line part => cases line <;> cases part <;> decide
  | outerVertical => decide
  | innerVertical => decide

end Glyphs

namespace TokenTable

def widths [TextWidth] (table : TokenTable) (tokens : List Token) : ColumnWidths :=
  ColumnWidths.ofRows table.header (table.rows 1 tokens)

theorem length_header (table : TokenTable) : table.header.length = table.channels.count + 4 := by
  simp [header, Channels.count]

theorem length_row (table : TokenTable) (index : Nat) (token : Token) :
    (table.row index token).length = table.channels.count + 4 := by
  simp [row, channelCells]

theorem exists_token_of_mem_rows {table : TokenTable} {first : Nat} {tokens : List Token}
    {row : Row} (member : row ∈ table.rows first tokens) :
    ∃ index, ∃ token ∈ tokens, row = table.row index token := by
  obtain ⟨⟨token, index⟩, among, rfl⟩ := List.mem_map.mp member
  exact ⟨index, token, List.fst_mem_of_mem_zipIdx among, rfl⟩

theorem isDigit_of_mem_toString {number : Nat} {character : Char}
    (member : character ∈ (toString number).toList) : character.isDigit = true := by
  rw [Nat.toString_eq_repr, Nat.toList_repr] at member
  exact Nat.isDigit_of_mem_toDigits (by decide) (by decide) member

section

variable (table : TokenTable) (tokens : List Token)

theorem length_of_mem_rows : ∀ row ∈ table.header :: table.rows 1 tokens,
    row.length = table.channels.count + 4 := by
  intro row member
  rcases List.mem_cons.mp member with rfl | later
  · exact table.length_header
  · obtain ⟨index, token, _, rfl⟩ := exists_token_of_mem_rows later
    exact table.length_row index token

theorem widths_fits [TextWidth] : ∀ row ∈ table.header :: table.rows 1 tokens,
    (table.widths tokens).Fits row := by
  apply ColumnWidths.ofRows_fits
  intro row member
  rw [table.length_header]
  exact table.length_of_mem_rows tokens row (by simp [member])

theorem length_widths [TextWidth] : (table.widths tokens).length = table.channels.count + 4 := by
  rw [← (table.widths_fits tokens table.header (by simp)).length_eq, table.length_header]

theorem ne_nil_of_mem_rows : ∀ row ∈ table.header :: table.rows 1 tokens, row ≠ [] := by
  intro row member none
  have length := table.length_of_mem_rows tokens row member
  simp [none] at length

theorem widths_ne_nil [TextWidth] : table.widths tokens ≠ [] := by
  intro none
  have length := table.length_widths tokens
  simp [none] at length

def lines [TextWidth] : List (Picture Stroke) :=
  ruleLine .top (table.widths tokens) :: rowLine 0 (table.widths tokens) table.header ::
    ruleLine .header (table.widths tokens) ::
    (table.rows 1 tokens).map (rowLine numericColumns (table.widths tokens)) ++
    [ruleLine .bottom (table.widths tokens)]

theorem flatMap_rowPieces_eq_ofLines [TextWidth] (rows : List Row)
    (shown : ∀ row ∈ rows, (table.widths tokens).Fits row ∧ row ≠ []) :
    rows.flatMap (rowPieces numericColumns (table.widths tokens)) =
      ofLines (rows.map (rowLine numericColumns (table.widths tokens))) := by
  induction rows with
  | nil => rfl
  | cons row rest ih =>
      obtain ⟨fits, nonempty⟩ := shown row (by simp)
      rw [List.flatMap_cons, rowPieces_eq _ fits nonempty,
        ih fun other member => shown other (by simp [member])]
      simp

theorem picture_eq_ofLines [TextWidth] : table.picture tokens = ofLines (table.lines tokens) := by
  have fits := table.widths_fits tokens
  have nonempty := table.ne_nil_of_mem_rows tokens
  have rows := table.flatMap_rowPieces_eq_ofLines tokens (table.rows 1 tokens)
    fun row member => ⟨fits row (by simp [member]), nonempty row (by simp [member])⟩
  have head := rowPieces_eq 0 (fits table.header (by simp)) (nonempty table.header (by simp))
  rw [widths] at rows head
  rw [picture]
  simp only [rows, head, borderPieces_eq]
  simp [lines, widths]

theorem forall_line [TextWidth] (Holds : Picture Stroke → Prop)
    (rules : ∀ line, Holds (ruleLine line (table.widths tokens)))
    (rows : ∀ rightAligned, ∀ row ∈ table.header :: table.rows 1 tokens,
      Holds (rowLine rightAligned (table.widths tokens) row)) :
    ∀ line ∈ table.lines tokens, Holds line := by
  intro line member
  simp only [lines, List.cons_append, List.mem_cons, List.mem_append, List.mem_map,
    List.not_mem_nil, or_false] at member
  rcases member with rfl | rfl | rfl | ⟨row, among, rfl⟩ | rfl
  · exact rules .top
  · exact rows 0 table.header (by simp)
  · exact rules .header
  · exact rows numericColumns row (by simp [among])
  · exact rules .bottom

theorem forall_piece_lines [TextWidth] (Allowed : Piece Stroke → Prop)
    (strokes : ∀ stroke, Allowed (.glyph stroke)) (blanks : ∀ count, Allowed (.blank count))
    (texts : ∀ row ∈ table.header :: table.rows 1 tokens, ∀ cell ∈ row, Allowed (.text cell)) :
    ∀ line ∈ table.lines tokens, ∀ piece ∈ line, Allowed piece :=
  table.forall_line tokens _
    (fun line => forall_piece_ruleLine Allowed strokes line _)
    (fun rightAligned row member =>
      forall_piece_rowLine Allowed strokes blanks rightAligned _ row (texts row member))

theorem lines_picture [TextWidth] : (table.picture tokens).lines = table.lines tokens := by
  rw [picture_eq_ofLines, lines_ofLines]
  intro line member inside
  exact table.forall_piece_lines tokens (fun piece => piece ≠ .newline) (by simp) (by simp)
    (by simp) line member _ inside rfl

theorem width_of_mem_lines [TextWidth] : ∀ line ∈ table.lines tokens,
    width line = 1 + ((table.widths tokens).map (· + 1)).sum :=
  table.forall_line tokens _
    (fun line => width_ruleLine line (table.widths_ne_nil tokens))
    (fun rightAligned row member => width_rowLine rightAligned
      (table.widths_fits tokens row member) (table.ne_nil_of_mem_rows tokens row member))

theorem separatorColumns_of_mem_lines [TextWidth] : ∀ line ∈ table.lines tokens,
    separatorColumns 0 line = separatorPositions 0 (table.widths tokens) :=
  table.forall_line tokens _
    (fun line => separatorColumns_ruleLine line (table.widths_ne_nil tokens) 0)
    (fun rightAligned row member => separatorColumns_rowLine rightAligned
      (table.widths_fits tokens row member) (table.ne_nil_of_mem_rows tokens row member) 0)

/-- How the lines of a drawn table relate to its columns and rows. -/
structure Geometry [TextWidth] : Prop where
  ended : ofLines (table.picture tokens).lines = table.picture tokens
  count : (table.picture tokens).lines.length = tokens.length + 4
  columns : (table.widths tokens).length = table.channels.count + 4
  cells : ∀ row ∈ table.header :: table.rows 1 tokens, row.length = table.channels.count + 4
  order : ∃ head data, (table.picture tokens).lines =
      ruleLine .top (table.widths tokens) :: head :: ruleLine .header (table.widths tokens) ::
        data ++ [ruleLine .bottom (table.widths tokens)] ∧
    ShowsRow 0 (table.widths tokens) table.header head ∧
    List.Forall₂ (ShowsRow numericColumns (table.widths tokens)) (table.rows 1 tokens) data
  width : ∀ line ∈ (table.picture tokens).lines,
    width line = 1 + ((table.widths tokens).map (· + 1)).sum
  separators : ∀ line ∈ (table.picture tokens).lines,
    separatorColumns 0 line = separatorPositions 0 (table.widths tokens)

def names : List String :=
  table.channels.names ++ (table.vocabulary.symbolic ++ table.vocabulary.literal).filterMap id

theorem displayName_mem_names (kind : UInt32) :
    table.vocabulary.displayName kind ∈ table.names ∨
      table.vocabulary.displayName kind = toString kind.toNat := by
  have listed {entries : List (Option String)} {name : String}
      (found : Vocabulary.nameIn entries kind = some name) : some name ∈ entries := by
    rw [Vocabulary.nameIn, Option.join_eq_some_iff] at found
    exact List.mem_of_getElem? found
  rw [Vocabulary.displayName]
  split
  · rename_i name _ found
    left
    simp [names, listed found]
  · rename_i name _ found
    left
    simp [names, listed found]
  · exact .inr rfl

theorem forall_cell (Holds : String → Prop)
    (fixed : ∀ text ∈ ["#", "lin", "col", "text", ""], Holds text)
    (numbers : ∀ number : Nat, Holds (toString number)) (named : ∀ name ∈ table.names, Holds name)
    (escaped : ∀ token ∈ tokens, table.vocabulary.hasLiteral token.kind = false →
      Holds (escape token.text)) :
    ∀ row ∈ table.header :: table.rows 1 tokens, ∀ cell ∈ row, Holds cell := by
  have blank := fixed "" (by simp)
  intro row member cell inside
  rcases List.mem_cons.mp member with rfl | later
  · simp only [header, List.mem_append, List.mem_cons, List.not_mem_nil, or_false] at inside
    rcases inside with ((rfl | rfl | rfl) | name) | rfl
    · exact fixed _ (by simp)
    · exact fixed _ (by simp)
    · exact fixed _ (by simp)
    · exact named cell (by simp [names, name])
    · exact fixed _ (by simp)
  · obtain ⟨index, token, among, rfl⟩ := exists_token_of_mem_rows later
    simp only [TokenTable.row, channelCells, List.mem_append, List.mem_cons, List.mem_map,
      List.not_mem_nil, or_false] at inside
    rcases inside with ((rfl | rfl | rfl) | ⟨column, _, rfl⟩) | rfl
    · exact numbers index
    · exact numbers _
    · exact numbers _
    · split
      · rcases table.displayName_mem_names token.kind with name | number
        · exact named _ name
        · exact number ▸ numbers _
      · exact blank
    · rw [textCell]
      split
      next => exact blank
      next unspelled => exact escaped token among (Bool.eq_false_iff.mpr unspelled)

theorem geometry_picture [TextWidth] : Geometry table tokens where
  ended := by rw [lines_picture, picture_eq_ofLines]
  count := by simp [lines_picture, lines, rows]
  columns := table.length_widths tokens
  cells := table.length_of_mem_rows tokens
  order := by
    have fits := table.widths_fits tokens
    refine ⟨rowLine 0 (table.widths tokens) table.header, _, table.lines_picture tokens,
      showsRow_rowLine 0 (fits table.header (by simp)), ?_⟩
    rw [List.forall₂_map_right_iff, List.forall₂_same]
    exact fun row member => showsRow_rowLine numericColumns (fits row (by simp [member]))
  width := by
    rw [lines_picture]
    exact table.width_of_mem_lines tokens
  separators := by
    rw [lines_picture]
    exact table.separatorColumns_of_mem_lines tokens

def SingleLine : Prop :=
  ∀ name ∈ table.names, '\n' ∉ name.toList

instance : Decidable table.SingleLine :=
  inferInstanceAs (Decidable (∀ name ∈ table.names, '\n' ∉ name.toList))

theorem newline_not_mem_lines [TextWidth] {glyphs : Glyphs}
    (plainStrokes : glyphs.SingleLineStrokes) (plain : table.SingleLine) :
    ∀ line ∈ table.lines tokens, '\n' ∉ characters glyphs.stroke line := by
  have cells := table.forall_cell tokens (fun cell => '\n' ∉ cell.toList) (by decide)
    (fun number member => by simpa using isDigit_of_mem_toString member) plain
    (fun token _ _ => newline_not_mem_escape token.text)
  have pieces := table.forall_piece_lines tokens
    (fun piece => '\n' ∉ piece.characters glyphs.stroke)
    (fun stroke => by simpa [Piece.characters] using (plainStrokes stroke).symm)
    (fun count => by simp [Piece.characters]) cells
  intro line member inside
  obtain ⟨piece, among, here⟩ := List.mem_flatMap.mp inside
  exact pieces line member piece among here

theorem count_newline_table [TextWidth] {glyphs : Glyphs} (plainStrokes : glyphs.SingleLineStrokes)
    (plain : table.SingleLine) :
    (draw glyphs table tokens).toList.count '\n' = tokens.length + 4 := by
  have geometry := table.geometry_picture tokens
  rw [draw, toList_draw, ← geometry.ended, count_newline_ofLines, geometry.count]
  rw [lines_picture]
  exact table.newline_not_mem_lines tokens plainStrokes plain

end

/-- Every drawn table has its geometry. Where the names of its channels and token kinds stand on
one line, so does every row, whatever the texts of the tokens are. -/
theorem geometry_draw [TextWidth] (glyphs : Glyphs) (table : TokenTable) (tokens : List Token) :
    Geometry table tokens ∧
      (glyphs.SingleLineStrokes → table.SingleLine →
        (draw glyphs table tokens).toList.count '\n' = tokens.length + 4) := by
  refine ⟨table.geometry_picture tokens, ?_⟩
  intro plainStrokes plain
  exact table.count_newline_table tokens plainStrokes plain

section

open scoped OneColumnEach

theorem geometry_draw_newline :
    let table : TokenTable := ⟨.standard, { symbolic := [none, some "NL"] }⟩
    let tokens : List Token := [⟨1, 1, 3, 0, "\n"⟩]
    Geometry table tokens ∧ Glyphs.unicode.SingleLineStrokes ∧ table.SingleLine ∧
      (draw .unicode table tokens).toList.count '\n' = 5 := by
  intro table tokens
  have plain : table.SingleLine := by decide
  obtain ⟨geometry, lineEnds⟩ := geometry_draw .unicode table tokens
  exact ⟨geometry, Glyphs.unicode_singleLineStrokes, plain,
    lineEnds Glyphs.unicode_singleLineStrokes plain⟩

end

end TokenTable

end ParseView
