import Mathlib.Data.String.Defs
import ParseView.Proofs.EscapedCharacters
import ParseView.Proofs.TextCells

/-! Drawings with the ASCII glyphs. Trees with ASCII captions are drawn in ASCII. In a table the
texts of the tokens are escaped first, and escaping has two signs that are not ASCII. -/

namespace ParseView

open Picture

def IsAscii (text : String) : Prop :=
  ∀ character ∈ text.toList, character.isAscii = true

instance (text : String) : Decidable (IsAscii text) :=
  show Decidable (∀ character ∈ text.toList, character.isAscii = true) from
    List.decidableBAll _ _

theorem isAscii_of_isNarrow {character : Char} (narrow : IsNarrow character) :
    character.isAscii = true := by
  have small := narrow.2
  rw [Char.isAscii, decide_eq_true_eq]
  omega

def escapeSigns : List Char := [spaceMarker, '×']

theorem not_isAscii_of_mem_escapeSigns {sign : Char} (member : sign ∈ escapeSigns) :
    sign.isAscii = false := by
  simp only [escapeSigns, List.mem_cons, List.not_mem_nil, or_false] at member
  rcases member with rfl | rfl <;> decide

theorem isAscii_or_sign_of_mem_escape {text : String} (ascii : IsAscii text) :
    ∀ character ∈ (escape text).toList, character.isAscii = true ∨ character ∈ escapeSigns := by
  intro character member
  rw [toList_escape] at member
  rcases mem_escapeChars member with ⟨original, among, written⟩ | rfl | rfl | rfl | digit
  · left
    by_cases letter : character ∈ escapeLetters
    · exact isAscii_of_isNarrow (isNarrow_of_mem_escapeLetters letter)
    · exact eq_of_mem_escapeChar written letter ▸ ascii original among
  · exact .inr (by decide)
  · exact .inl (by decide)
  · exact .inr (by decide)
  · exact .inl (isAscii_of_isNarrow (isNarrow_of_isDigit digit))

namespace Glyphs

theorem isAscii_connector (connector : Connector) :
    (ascii.connector connector).isAscii = true := by
  cases connector <;> decide

theorem isAscii_stroke (stroke : Stroke) : (ascii.stroke stroke).isAscii = true := by
  cases stroke with
  | rule line part => cases line <;> cases part <;> decide
  | outerVertical => decide
  | innerVertical => decide

end Glyphs

theorem Tree.isAscii_draw [TextWidth] (style : TreeStyle) {root : Tree}
    (ascii : ∀ caption ∈ root.captions, IsAscii caption) : IsAscii (root.draw .ascii style) := by
  intro character member
  rw [draw, toList_draw, characters_eq_map_fill] at member
  obtain ⟨place, among, rfl⟩ := List.mem_map.mp member
  cases place with
  | glyph connector => exact Glyphs.isAscii_connector connector
  | fixed character =>
      rcases known_of_mem_places (brings_picture style root) among with
        rfl | rfl | ⟨caption, drawn, inside⟩ | ⟨_, _, _, position, _, inside⟩
      · decide
      · decide
      · exact ascii caption drawn character inside
      · exact isAscii_of_isNarrow (Gutter.isNarrow_of_mem_positionText _ position character inside)

namespace TokenTable

variable {table : TokenTable} {tokens : List Token}

theorem isAscii_or_sign_of_mem_draw [TextWidth] (named : ∀ name ∈ table.names, IsAscii name)
    (ascii : ∀ token ∈ tokens, IsAscii token.text) :
    ∀ character ∈ (table.draw .ascii tokens).toList,
      character.isAscii = true ∨ character ∈ escapeSigns := by
  have fixed : ∀ text ∈ ["#", "lin", "col", "text", ""], IsAscii text := by decide
  have cells := table.forall_cell tokens
    (fun cell => ∀ character ∈ cell.toList, character.isAscii = true ∨ character ∈ escapeSigns)
    (fun text among character inside => .inl (fixed text among character inside))
    (fun _ _ inside =>
      .inl (isAscii_of_isNarrow (isNarrow_of_isDigit (isDigit_of_mem_toString inside))))
    (fun name among character inside => .inl (named name among character inside))
    (fun token among _ => isAscii_or_sign_of_mem_escape (ascii token among))
  intro character member
  rcases stroke_or_inscribed_of_mem_draw member with ⟨stroke, rfl⟩ | rfl | rfl | own
  · exact .inl (Glyphs.isAscii_stroke stroke)
  · exact .inl (by decide)
  · exact .inl (by decide)
  · obtain ⟨row, drawn, cell, shown, inside⟩ := own
    exact cells row drawn cell shown character inside

theorem sign_mem_draw_iff [TextWidth] (named : ∀ name ∈ table.names, IsAscii name) {sign : Char}
    (member : sign ∈ escapeSigns) :
    sign ∈ (table.draw .ascii tokens).toList ↔
      ∃ token ∈ tokens, table.vocabulary.hasLiteral token.kind = false ∧
        sign ∈ (escape token.text).toList := by
  have wide := not_isAscii_of_mem_escapeSigns member
  have other {known : Char} (ascii : known.isAscii = true) : known ≠ sign := by
    rintro rfl
    rw [ascii] at wide
    exact nomatch wide
  apply mem_draw_iff_of_not_isNarrow
  · exact fun narrow => other (isAscii_of_isNarrow narrow) rfl
  · exact (other (by decide)).symm
  · exact fun stroke => other (Glyphs.isAscii_stroke stroke)
  · exact fun name among inside => other (named name among sign inside) rfl

end TokenTable

/-- A tree with ASCII captions is drawn in ASCII. A table with ASCII names and texts is drawn in
ASCII but for the signs of escaping: it holds a visible space just if some shown text begins or
ends in a space, and a times sign just if some shown text is written as a count. -/
theorem ascii_drawings [TextWidth] :
    (∀ (style : TreeStyle) (root : Tree), (∀ caption ∈ root.captions, IsAscii caption) →
      IsAscii (root.draw .ascii style)) ∧
    ∀ (table : TokenTable) (tokens : List Token), (∀ name ∈ table.names, IsAscii name) →
      (∀ token ∈ tokens, IsAscii token.text) →
      (∀ character ∈ (table.draw .ascii tokens).toList,
        character.isAscii = true ∨ character = spaceMarker ∨ character = '×') ∧
      (spaceMarker ∈ (table.draw .ascii tokens).toList ↔
        ∃ token ∈ tokens, table.vocabulary.hasLiteral token.kind = false ∧
          HasOuterSpace token.text.toList) ∧
      ('×' ∈ (table.draw .ascii tokens).toList ↔
        ∃ token ∈ tokens, table.vocabulary.hasLiteral token.kind = false ∧
          EscapesToRun token.text.toList) := by
  refine ⟨fun style _ => Tree.isAscii_draw style, ?_⟩
  intro table tokens named ascii
  have signless {sign : Char} (member : sign ∈ escapeSigns) {token : Token}
      (among : token ∈ tokens) : sign ∉ token.text.toList := by
    intro inside
    have wide := not_isAscii_of_mem_escapeSigns member
    rw [ascii token among sign inside] at wide
    exact nomatch wide
  have marker : spaceMarker ∈ escapeSigns := by decide
  have times : '×' ∈ escapeSigns := by decide
  refine ⟨?_, ?_, ?_⟩
  · simpa [escapeSigns] using TokenTable.isAscii_or_sign_of_mem_draw named ascii
  · rw [TokenTable.sign_mem_draw_iff named marker]
    refine exists_congr fun token => and_congr_right fun among => and_congr_right fun _ => ?_
    rw [toList_escape, spaceMarker_mem_escapeChars_iff (signless marker among)]
  · rw [TokenTable.sign_mem_draw_iff named times]
    refine exists_congr fun token => and_congr_right fun among => and_congr_right fun _ => ?_
    rw [toList_escape, times_mem_escapeChars_iff (signless marker among) (signless times among)]

section

open scoped OneColumnEach

theorem ascii_drawings_signs :
    let root := Tree.node "s" [.leaf ⟨"x", none⟩]
    let table : TokenTable := ⟨.standard, {}⟩
    let tokens : List Token := [⟨1, 0, 1, 0, " a"⟩, ⟨1, 0, 1, 2, "-----"⟩]
    (∀ caption ∈ root.captions, IsAscii caption) ∧ IsAscii (root.draw .ascii ⟨.never, true⟩) ∧
      (∀ name ∈ table.names, IsAscii name) ∧ (∀ token ∈ tokens, IsAscii token.text) ∧
      spaceMarker ∈ (table.draw .ascii tokens).toList ∧
      '×' ∈ (table.draw .ascii tokens).toList := by
  intro root table tokens
  have captions : ∀ caption ∈ root.captions, IsAscii caption := by decide
  have names : ∀ name ∈ table.names, IsAscii name := by decide
  have texts : ∀ token ∈ tokens, IsAscii token.text := by decide
  have outer : HasOuterSpace " a".toList := by decide
  have run : EscapesToRun "-----".toList := .inl ⟨'-', 5, by decide, by decide, by decide⟩
  obtain ⟨trees, tables⟩ := ascii_drawings
  obtain ⟨_, marked, counted⟩ := tables table tokens names texts
  refine ⟨captions, trees ⟨.never, true⟩ root captions, names, texts, ?_, ?_⟩
  · exact marked.mpr ⟨_, List.mem_cons_self, rfl, outer⟩
  · exact counted.mpr ⟨_, List.mem_cons_of_mem _ List.mem_cons_self, rfl, run⟩

/-- With ASCII glyphs, names and texts a table need not be ASCII. -/
theorem ascii_table_not_ascii :
    let table : TokenTable := ⟨.standard, {}⟩
    let tokens : List Token := [⟨1, 0, 1, 0, " a"⟩]
    (∀ name ∈ table.names, IsAscii name) ∧ (∀ token ∈ tokens, IsAscii token.text) ∧
      ¬IsAscii (table.draw .ascii tokens) := by
  intro table tokens
  refine ⟨by decide, by decide, ?_⟩
  intro ascii
  have marked : spaceMarker ∈ (table.draw .ascii tokens).toList :=
    TokenTable.mem_draw_of_mem_escape .ascii List.mem_cons_self rfl (by decide)
  exact absurd (ascii spaceMarker marked) (by decide)

end

end ParseView
