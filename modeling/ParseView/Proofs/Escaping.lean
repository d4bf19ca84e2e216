import ParseView.Text.Escaped

/-! Escaped text stands on one line. -/

namespace ParseView

def shorthandCharacters : List Char :=
  ['\x08', '\x0c', '\n', '\r', '\t']

theorem not_mem_shorthand_of_mem_escapeChar {original written : Char}
    (member : written ∈ escapeChar original) : written ∉ shorthandCharacters := by
  unfold escapeChar at member
  split at member
  case h_7 => simp_all [shorthandCharacters]
  all_goals
    simp only [List.mem_cons, List.not_mem_nil, or_false] at member
    rcases member with rfl | rfl <;> decide

theorem mem_markLeading {character : Char} {characters : List Char}
    (member : character ∈ markLeading characters) :
    character = spaceMarker ∨ character ∈ characters := by
  induction characters with
  | nil => exact .inr member
  | cons first rest ih =>
      rw [markLeading] at member
      split at member
      · rcases List.mem_cons.mp member with rfl | later
        · exact .inl rfl
        · exact (ih later).imp_right (List.mem_cons_of_mem first)
      · exact .inr member

theorem mem_markTrailing {character : Char} {characters : List Char}
    (member : character ∈ markTrailing characters) :
    character = spaceMarker ∨ character ∈ characters := by
  rw [markTrailing, List.mem_reverse] at member
  simpa using mem_markLeading member

theorem mem_of_repeated?_eq_some {characters : List Char} {repeatedChar : Char} {count : Nat}
    (found : repeated? characters = some (repeatedChar, count)) : repeatedChar ∈ characters := by
  cases characters with
  | nil => simp [repeated?] at found
  | cons first rest =>
      rw [repeated?] at found
      split at found
      · simp_all
      · simp at found

theorem mem_escapeChars {character : Char} {characters : List Char}
    (member : character ∈ escapeChars characters) :
    (∃ original ∈ characters, character ∈ escapeChar original) ∨ character = spaceMarker ∨
      character = ' ' ∨ character = '×' ∨ character.isDigit = true := by
  have marked {written : Char} (inside : written ∈ markLeading (characters.flatMap escapeChar)) :
      (∃ original ∈ characters, written ∈ escapeChar original) ∨ written = spaceMarker := by
    rcases mem_markLeading inside with marker | kept
    · exact .inr marker
    · exact .inl (List.mem_flatMap.mp kept)
  rw [escapeChars] at member
  split at member
  · rename_i repeatedChar count found
    simp only [List.mem_cons] at member
    rcases member with rfl | rfl | rfl | rfl | digit
    · exact (marked (mem_of_repeated?_eq_some found)).imp_right .inl
    · exact .inr (.inr (.inl rfl))
    · exact .inr (.inr (.inr (.inl rfl)))
    · exact .inr (.inr (.inl rfl))
    · exact .inr (.inr (.inr (.inr
        (Nat.isDigit_of_mem_toDigits (by decide) (by decide) digit))))
  · rcases mem_markTrailing member with marker | kept
    · exact .inr (.inl marker)
    · exact (marked kept).imp_right .inl

theorem not_mem_shorthand_of_isDigit {character : Char} (digit : character.isDigit = true) :
    character ∉ shorthandCharacters := by
  intro member
  simp only [shorthandCharacters, List.mem_cons, List.not_mem_nil, or_false] at member
  rcases member with rfl | rfl | rfl | rfl | rfl <;> simp at digit

/-- No text is written with a control character that has a shorthand. -/
theorem shorthand_not_mem_escape (text : String) :
    ∀ character ∈ (escape text).toList, character ∉ shorthandCharacters := by
  intro character member
  rw [toList_escape] at member
  rcases mem_escapeChars member with ⟨original, _, written⟩ | rfl | rfl | rfl | digit
  · exact not_mem_shorthand_of_mem_escapeChar written
  · decide
  · decide
  · decide
  · exact not_mem_shorthand_of_isDigit digit

theorem newline_not_mem_escape (text : String) : '\n' ∉ (escape text).toList :=
  fun member => shorthand_not_mem_escape text '\n' member (by decide)

end ParseView
