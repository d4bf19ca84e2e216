import ParseView.Proofs.EscapedCharacters
import ParseView.Proofs.TextCells

/-! The control characters of a drawn table: its line ends, and those in the texts of the tokens
that escaping has no shorthand for. -/

namespace ParseView

namespace Glyphs

def PrintedStrokes (glyphs : Glyphs) : Prop :=
  ∀ stroke, ¬IsControl (glyphs.stroke stroke)

theorem unicode_printedStrokes : unicode.PrintedStrokes := by
  intro stroke
  cases stroke with
  | rule line part => cases line <;> cases part <;> decide
  | outerVertical => decide
  | innerVertical => decide

theorem ascii_printedStrokes : ascii.PrintedStrokes := by
  intro stroke
  cases stroke with
  | rule line part => cases line <;> cases part <;> decide
  | outerVertical => decide
  | innerVertical => decide

end Glyphs

namespace TokenTable

def Printed (table : TokenTable) : Prop :=
  ∀ name ∈ table.names, ∀ character ∈ name.toList, ¬IsControl character

instance (table : TokenTable) : Decidable table.Printed :=
  have (name : String) : Decidable (∀ character ∈ name.toList, ¬IsControl character) :=
    List.decidableBAll _ _
  inferInstanceAs
    (Decidable (∀ name ∈ table.names, ∀ character ∈ name.toList, ¬IsControl character))

variable {glyphs : Glyphs} {table : TokenTable} {tokens : List Token}

theorem control_mem_draw_iff [TextWidth] (strokes : glyphs.PrintedStrokes) (names : table.Printed)
    {character : Char} (control : IsControl character) (inner : character ≠ '\n') :
    character ∈ (table.draw glyphs tokens).toList ↔
      ∃ token ∈ tokens, table.vocabulary.hasLiteral token.kind = false ∧
        character ∈ token.text.toList ∧ character ∉ shorthandCharacters := by
  have unused : ∀ stroke, glyphs.stroke stroke ≠ character := by
    rintro stroke rfl
    exact strokes stroke control
  have unnamed : ∀ name ∈ table.names, character ∉ name.toList :=
    fun name among inside => names name among character inside control
  rw [mem_draw_iff_of_not_isNarrow (not_isNarrow_of_isControl control) inner unused unnamed]
  refine exists_congr fun token => and_congr_right fun _ => and_congr_right fun _ => ?_
  rw [toList_escape, control_mem_escapeChars_iff control]

end TokenTable

/-- A table with printed glyphs and names has one line end for each of its lines. Any other control
character is in it just if it is in a shown text and has no shorthand. -/
theorem control_characters_of_tables [TextWidth] (glyphs : Glyphs) (table : TokenTable)
    (tokens : List Token) (strokes : glyphs.PrintedStrokes) (names : table.Printed) :
    (table.draw glyphs tokens).toList.count '\n' = tokens.length + 4 ∧
      ∀ character, IsControl character → character ≠ '\n' →
        (character ∈ (table.draw glyphs tokens).toList ↔
          ∃ token ∈ tokens, table.vocabulary.hasLiteral token.kind = false ∧
            character ∈ token.text.toList ∧ character ∉ shorthandCharacters) := by
  have lineEnd : IsControl '\n' := by decide
  constructor
  · apply TokenTable.count_newline_table
    · exact fun stroke same => strokes stroke (same ▸ lineEnd)
    · exact fun name among inside => names name among '\n' inside lineEnd
  · exact fun character control inner => TokenTable.control_mem_draw_iff strokes names control inner

section

open scoped OneColumnEach

theorem control_characters_of_tables_bell :
    let table : TokenTable := ⟨.standard, {}⟩
    let tokens : List Token := [⟨1, 0, 1, 0, "a\tb"⟩, ⟨1, 0, 1, 3, "\x07"⟩]
    Glyphs.unicode.PrintedStrokes ∧ table.Printed ∧
      (table.draw .unicode tokens).toList.count '\n' = 6 ∧
      '\x07' ∈ (table.draw .unicode tokens).toList ∧
      '\t' ∉ (table.draw .unicode tokens).toList := by
  intro table tokens
  have names : table.Printed := by decide
  obtain ⟨lineEnds, others⟩ :=
    control_characters_of_tables .unicode table tokens Glyphs.unicode_printedStrokes names
  refine ⟨Glyphs.unicode_printedStrokes, names, lineEnds, ?_, ?_⟩
  · exact (others '\x07' (by decide) (by decide)).mpr
      ⟨_, List.mem_cons_of_mem _ List.mem_cons_self, rfl, by decide, by decide⟩
  · intro tab
    obtain ⟨_, _, _, _, unescaped⟩ := (others '\t' (by decide) (by decide)).mp tab
    exact unescaped (by decide)

/-- An escape character in the text of a token reaches the table. -/
theorem table_with_control_character :
    let table : TokenTable := ⟨.standard, {}⟩
    let tokens : List Token := [⟨1, 0, 1, 0, "\x1b"⟩]
    table.Printed ∧ IsControl '\x1b' ∧ '\x1b' ≠ '\n' ∧
      '\x1b' ∈ (table.draw .ascii tokens).toList := by
  intro table tokens
  refine ⟨by decide, by decide, by decide, ?_⟩
  exact TokenTable.mem_draw_of_mem_escape .ascii List.mem_cons_self rfl (by decide)

end

end ParseView
