import ParseView.Proofs.GlyphPlaces

/-! Which characters of a drawn table come from the texts of its tokens. -/

namespace ParseView

open Picture

theorem mem_intercalate_of_mem {α : Type} {separator text : List α} {texts : List (List α)}
    {item : α} (among : text ∈ texts) (inside : item ∈ text) :
    item ∈ separator.intercalate texts := by
  induction texts with
  | nil => simp at among
  | cons first rest ih =>
      cases rest with
      | nil =>
          rw [List.mem_singleton.mp among] at inside
          simpa using inside
      | cons next rest =>
          rw [List.intercalate_cons_cons, List.mem_append]
          rcases List.mem_cons.mp among with rfl | later
          · exact .inl (List.mem_append_left _ inside)
          · exact .inr (ih later)

theorem mem_fenced {left inner right : Stroke} {field : Picture Stroke}
    {fields : List (Picture Stroke)} {piece : Piece Stroke} (among : field ∈ fields)
    (inside : piece ∈ field) : piece ∈ fenced left inner right fields := by
  rw [fenced, List.cons_append, List.mem_cons, List.mem_append]
  exact .inr (.inl (mem_intercalate_of_mem among inside))

theorem exists_field_of_mem [TextWidth] (rightAligned index : Nat) {widths : ColumnWidths}
    {row : Row} (fits : widths.Fits row) {cell : String} (member : cell ∈ row) :
    ∃ field ∈ cellFields rightAligned index row widths, .text cell ∈ field := by
  induction fits generalizing index with
  | nil => simp at member
  | @cons width first widths cells _ _ ih =>
      rcases List.mem_cons.mp member with rfl | later
      · refine ⟨_, List.mem_cons_self, ?_⟩
        rw [TokenTable.cellPieces]
        split <;> simp
      · obtain ⟨field, among, inside⟩ := ih (index + 1) later
        exact ⟨field, List.mem_cons_of_mem _ among, inside⟩

theorem text_mem_rowLine [TextWidth] (rightAligned : Nat) {widths : ColumnWidths} {row : Row}
    (fits : widths.Fits row) {cell : String} (member : cell ∈ row) :
    .text cell ∈ rowLine rightAligned widths row := by
  obtain ⟨field, among, inside⟩ := exists_field_of_mem rightAligned 0 fits member
  exact mem_fenced among inside

namespace TokenTable

variable {table : TokenTable} {tokens : List Token} {character : Char}

theorem text_mem_picture [TextWidth] {row : Row} (drawn : row ∈ table.header :: table.rows 1 tokens)
    {cell : String} (member : cell ∈ row) : .text cell ∈ table.picture tokens := by
  have fits := table.widths_fits tokens row drawn
  have line : ∃ rightAligned,
      rowLine rightAligned (table.widths tokens) row ∈ table.lines tokens := by
    rcases List.mem_cons.mp drawn with rfl | later
    · exact ⟨0, by simp [lines]⟩
    · refine ⟨numericColumns, ?_⟩
      simp only [lines, List.cons_append, List.mem_cons, List.mem_append]
      exact .inr (.inr (.inr (.inl (List.mem_map_of_mem later))))
  obtain ⟨rightAligned, among⟩ := line
  rw [picture_eq_ofLines, ofLines, List.mem_flatMap]
  exact ⟨_, among, List.mem_append_left _ (text_mem_rowLine rightAligned fits member)⟩

theorem mem_draw_of_mem_cell [TextWidth] (glyphs : Glyphs) {row : Row}
    (drawn : row ∈ table.header :: table.rows 1 tokens) {cell : String} (member : cell ∈ row)
    (inside : character ∈ cell.toList) : character ∈ (table.draw glyphs tokens).toList := by
  rw [draw, toList_draw]
  exact List.mem_flatMap.mpr ⟨_, text_mem_picture drawn member, inside⟩

theorem stroke_or_inscribed_of_mem_draw [TextWidth] {glyphs : Glyphs}
    (member : character ∈ (table.draw glyphs tokens).toList) :
    (∃ stroke, glyphs.stroke stroke = character) ∨ table.Inscribed tokens character := by
  rw [draw, toList_draw, characters_eq_map_fill] at member
  obtain ⟨place, among, rfl⟩ := List.mem_map.mp member
  cases place with
  | fixed character =>
      exact .inr (known_of_mem_places (brings_picture table tokens) among)
  | glyph stroke => exact .inl ⟨stroke, rfl⟩

theorem mem_draw_of_mem_escape [TextWidth] (glyphs : Glyphs) {token : Token}
    (among : token ∈ tokens) (unspelled : table.vocabulary.hasLiteral token.kind = false)
    (inside : character ∈ (escape token.text).toList) :
    character ∈ (table.draw glyphs tokens).toList := by
  obtain ⟨index, bound, rfl⟩ := List.getElem_of_mem among
  have drawn : table.row (index + 1) tokens[index] ∈ table.rows 1 tokens := by
    refine List.mem_map.mpr ⟨(tokens[index], index + 1), ?_, rfl⟩
    rw [List.mem_zipIdx_iff_le_and_getElem?_sub]
    simp [bound]
  have shown : table.textCell tokens[index] ∈ table.row (index + 1) tokens[index] := by simp [row]
  refine mem_draw_of_mem_cell glyphs (List.mem_cons_of_mem _ drawn) shown ?_
  rwa [textCell, unspelled]

/-- A character that no stroke, no name, no line end and no printable ASCII text brings along is
drawn just if it is in the escaped text of a token whose kind has no literal spelling. -/
theorem mem_draw_iff_of_not_isNarrow [TextWidth] {glyphs : Glyphs} (wide : ¬IsNarrow character)
    (inner : character ≠ '\n') (unused : ∀ stroke, glyphs.stroke stroke ≠ character)
    (unnamed : ∀ name ∈ table.names, character ∉ name.toList) :
    character ∈ (table.draw glyphs tokens).toList ↔
      ∃ token ∈ tokens, table.vocabulary.hasLiteral token.kind = false ∧
        character ∈ (escape token.text).toList := by
  constructor
  · intro member
    by_contra unescaped
    have narrow : ∀ text ∈ ["#", "lin", "col", "text", ""],
        text.toList.all (fun character => decide (IsNarrow character)) = true := by decide
    have fixed : ∀ text ∈ ["#", "lin", "col", "text", ""], character ∉ text.toList :=
      fun text among inside =>
        wide (of_decide_eq_true (List.all_eq_true.mp (narrow text among) character inside))
    have numbers (number : Nat) : character ∉ (toString number).toList :=
      fun inside => wide (isNarrow_of_isDigit (isDigit_of_mem_toString inside))
    have cells := table.forall_cell tokens (fun cell => character ∉ cell.toList) fixed numbers
      unnamed fun token among unspelled inside => unescaped ⟨token, among, unspelled, inside⟩
    rcases stroke_or_inscribed_of_mem_draw member with ⟨stroke, same⟩ | rfl | rfl | own
    · exact unused stroke same
    · exact wide (by decide)
    · exact inner rfl
    · obtain ⟨row, drawn, cell, shown, inside⟩ := own
      exact cells row drawn cell shown inside
  · rintro ⟨token, among, unspelled, inside⟩
    exact mem_draw_of_mem_escape glyphs among unspelled inside

end TokenTable

end ParseView
