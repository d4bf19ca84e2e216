import ParseView.Proofs.Unescaping

/-! What every escaped text looks like, which texts are written as they stand, and which texts a
second escaping leaves alone. -/

namespace ParseView

def escapedCharacters : List Char := '\\' :: shorthandCharacters

/-- Nothing in the text calls for escaping. -/
structure IsPlain (characters : List Char) : Prop where
  unescaped : ∀ character ∈ characters, character ∉ escapedCharacters
  leading : characters.head? ≠ some ' '
  trailing : characters.getLast? ≠ some ' '
  varied : ¬IsRun characters

section Marking

variable {characters : List Char}

theorem head?_markLeading : (markLeading characters).head? ≠ some ' ' := by
  cases characters with
  | nil => simp [markLeading]
  | cons first rest =>
      rw [markLeading]
      split
      next => simp [spaceMarker]
      next plain => simpa using plain

theorem markLeading_eq_self (leading : characters.head? ≠ some ' ') :
    markLeading characters = characters := by
  cases characters with
  | nil => rfl
  | cons first rest =>
      have visible : first ≠ ' ' := by simpa using leading
      rw [markLeading, if_neg visible]

theorem getLast?_markTrailing : (markTrailing characters).getLast? ≠ some ' ' := by
  rw [markTrailing, List.getLast?_reverse]
  exact head?_markLeading

theorem markTrailing_eq_self (trailing : characters.getLast? ≠ some ' ') :
    markTrailing characters = characters := by
  rw [markTrailing, markLeading_eq_self (by rwa [List.head?_reverse]), List.reverse_reverse]

theorem IsRun.of_map_unmark {written : List Char}
    (same : written.map unmark = characters.map unmark) (unmarked : spaceMarker ∉ characters)
    (run : IsRun written) : IsRun characters := by
  obtain ⟨character, count, enough, rfl⟩ := run
  refine ⟨unmark character, count, enough, ?_⟩
  calc
    characters = characters.map unmark := (map_unmark_of_not_mem unmarked).symm
    _ = (List.replicate count character).map unmark := same.symm
    _ = List.replicate count (unmark character) := List.map_replicate

theorem IsRun.of_marked (unmarked : spaceMarker ∉ characters)
    (run : IsRun (markTrailing (markLeading characters))) : IsRun characters := by
  refine run.of_map_unmark ?_ unmarked
  rw [map_unmark_markTrailing, map_unmark_markLeading]

theorem markLeading_replicate_space (count : Nat) :
    markLeading (List.replicate count ' ') = List.replicate count spaceMarker := by
  induction count with
  | zero => rfl
  | succ count ih => rw [List.replicate_succ, markLeading, if_pos rfl, ih, List.replicate_succ]

theorem IsRun.markLeading (run : IsRun characters) : IsRun (markLeading characters) := by
  obtain ⟨character, count, enough, rfl⟩ := run
  by_cases space : character = ' '
  · exact ⟨spaceMarker, count, enough, space ▸ markLeading_replicate_space count⟩
  · refine ⟨character, count, enough, markLeading_eq_self ?_⟩
    rw [List.head?_replicate]
    split <;> simp [space]

end Marking

section Marked

variable {written original : List Char}

theorem Marks.head? (marked : List.Forall₂ Marks written original)
    (leading : original.head? ≠ some ' ') : written.head? ≠ some ' ' := by
  cases marked with
  | nil => exact leading
  | cons same _ =>
      rcases same with rfl | ⟨rfl, _⟩
      · exact leading
      · simp [spaceMarker]

theorem mem_of_marks (marked : List.Forall₂ Marks written original) {character : Char}
    (member : character ∈ original) (visible : character ≠ ' ') : character ∈ written := by
  induction marked with
  | nil => exact member
  | cons same _ ih =>
      rcases List.mem_cons.mp member with rfl | later
      · rcases same with rfl | ⟨_, space⟩
        · exact List.mem_cons_self
        · exact absurd space visible
      · exact List.mem_cons_of_mem _ (ih later)

end Marked

section Edges

variable {repeatedChar : Char} {count : Nat}

theorem getLast?_countedRun : (countedRun repeatedChar count).getLast? ≠ some ' ' := by
  intro space
  have digits : (Nat.toDigits 10 count).getLast? = some ' ' := by
    cases shown : Nat.toDigits 10 count with
    | nil => exact absurd shown Nat.toDigits_ne_nil
    | cons first rest => simpa [countedRun, shown, List.getLast?_cons_cons] using space
  exact not_mem_toDigits (by decide) count (List.mem_of_getLast? digits)

theorem not_isRun_countedRun : ¬IsRun (countedRun repeatedChar count) := by
  rintro ⟨character, length, _, same⟩
  have only {inner : Char} (member : inner ∈ countedRun repeatedChar count) : inner = character :=
    List.eq_of_mem_replicate (same ▸ member)
  have blank : ' ' = character := only (by simp [countedRun])
  have times : '×' = character := only (by simp [countedRun])
  exact absurd (blank.trans times.symm) (by decide)

theorem ne_space_of_markLeading {characters : List Char} (enough : 5 ≤ count)
    (run : markLeading characters = List.replicate count repeatedChar) : repeatedChar ≠ ' ' := by
  rintro rfl
  have leading : (markLeading characters).head? ≠ some ' ' := head?_markLeading
  rw [run, List.head?_replicate, if_neg (by omega)] at leading
  exact leading rfl

end Edges

theorem head?_escapeChars (characters : List Char) : (escapeChars characters).head? ≠ some ' ' := by
  rcases escapeChars_forms characters with
    ⟨repeatedChar, count, enough, run, written⟩ | ⟨_, written⟩
  · simpa [written, countedRun] using ne_space_of_markLeading enough run
  · rw [written]
    exact Marks.head? (forall₂_markTrailing _) head?_markLeading

theorem getLast?_escapeChars (characters : List Char) :
    (escapeChars characters).getLast? ≠ some ' ' := by
  rcases escapeChars_forms characters with ⟨repeatedChar, count, _, _, written⟩ | ⟨_, written⟩
  · rw [written]
    exact getLast?_countedRun
  · rw [written]
    exact getLast?_markTrailing

section Characters

variable {character : Char}

theorem escapeChar_of_not_mem (plain : character ∉ escapedCharacters) :
    escapeChar character = [character] := by
  unfold escapeChar
  split
  case h_7 => rfl
  all_goals exact absurd (by decide) plain

theorem exists_letter_of_mem (escaped : character ∈ escapedCharacters) :
    ∃ letter, escapeChar character = ['\\', letter] := by
  simp only [escapedCharacters, shorthandCharacters, List.mem_cons, List.not_mem_nil,
    or_false] at escaped
  rcases escaped with rfl | rfl | rfl | rfl | rfl | rfl <;> exact ⟨_, rfl⟩

variable {characters : List Char}

theorem flatMap_escapeChar_eq_self
    (plain : ∀ character ∈ characters, character ∉ escapedCharacters) :
    characters.flatMap escapeChar = characters := by
  induction characters with
  | nil => rfl
  | cons first rest ih =>
      rw [List.flatMap_cons, escapeChar_of_not_mem (plain first (by simp)),
        ih fun other member => plain other (by simp [member])]
      rfl

theorem length_le_flatMap_escapeChar (characters : List Char) :
    characters.length ≤ (characters.flatMap escapeChar).length := by
  induction characters with
  | nil => simp
  | cons first rest ih =>
      have here : 1 ≤ (escapeChar first).length := by
        by_cases escaped : first ∈ escapedCharacters
        · obtain ⟨letter, shown⟩ := exists_letter_of_mem escaped
          simp [shown]
        · simp [escapeChar_of_not_mem escaped]
      simp only [List.flatMap_cons, List.length_append, List.length_cons]
      omega

theorem length_lt_flatMap_escapeChar (member : character ∈ characters)
    (escaped : character ∈ escapedCharacters) :
    characters.length < (characters.flatMap escapeChar).length := by
  obtain ⟨before, after, rfl⟩ := List.append_of_mem member
  obtain ⟨letter, shown⟩ := exists_letter_of_mem escaped
  have ahead := length_le_flatMap_escapeChar before
  have behind := length_le_flatMap_escapeChar after
  simp only [List.flatMap_append, List.flatMap_cons, shown, List.length_append, List.length_cons,
    List.length_nil]
  omega

end Characters

section FixedPoints

variable {characters : List Char}

theorem escapeChars_of_isPlain (plain : IsPlain characters) :
    escapeChars characters = characters := by
  have unescaped := flatMap_escapeChar_eq_self plain.unescaped
  have unmarked := markLeading_eq_self plain.leading
  rcases escapeChars_forms characters with ⟨repeatedChar, count, enough, run, _⟩ | ⟨_, written⟩
  · rw [unescaped, unmarked] at run
    exact absurd ⟨repeatedChar, count, enough, run⟩ plain.varied
  · rw [written, unescaped, unmarked, markTrailing_eq_self plain.trailing]

theorem countedRun_ne_of_markLeading {repeatedChar : Char} {count : Nat}
    (run : markLeading (characters.flatMap escapeChar) = List.replicate count repeatedChar) :
    countedRun repeatedChar count ≠ characters := by
  rintro rfl
  have only {character : Char} (member : character ∈ countedRun repeatedChar count)
      (plain : character ∉ escapedCharacters) : unmark character = unmark repeatedChar := by
    have shown : character ∈ (countedRun repeatedChar count).flatMap escapeChar :=
      List.mem_flatMap.mpr ⟨character, member, by simp [escapeChar_of_not_mem plain]⟩
    have among := List.mem_map_of_mem (f := unmark) shown
    rw [← map_unmark_markLeading, run, List.map_replicate] at among
    exact List.eq_of_mem_replicate among
  have blank : unmark ' ' = unmark repeatedChar := only (by simp [countedRun]) (by decide)
  have times : unmark '×' = unmark repeatedChar := only (by simp [countedRun]) (by decide)
  exact absurd (blank.trans times.symm) (by decide)

theorem isPlain_of_escapeChars_eq (same : escapeChars characters = characters) :
    IsPlain characters := by
  have leading := head?_escapeChars characters
  have trailing := getLast?_escapeChars characters
  rw [same] at leading trailing
  rcases escapeChars_forms characters with
    ⟨repeatedChar, count, _, run, written⟩ | ⟨varied, written⟩
  · exact absurd (written.symm.trans same) (countedRun_ne_of_markLeading run)
  · have unescaped : ∀ character ∈ characters, character ∉ escapedCharacters := by
      intro character member escaped
      have longer := length_lt_flatMap_escapeChar member escaped
      have markedTrailing := (forall₂_markTrailing
        (markLeading (characters.flatMap escapeChar))).length_eq
      have markedLeading := (forall₂_markLeading (characters.flatMap escapeChar)).length_eq
      rw [← written, same] at markedTrailing
      omega
    refine ⟨unescaped, leading, trailing, fun run => ?_⟩
    rw [flatMap_escapeChar_eq_self unescaped] at varied
    exact varied run.markLeading

theorem escapeChars_eq_self_iff : escapeChars characters = characters ↔ IsPlain characters :=
  ⟨isPlain_of_escapeChars_eq, escapeChars_of_isPlain⟩

theorem mem_escapeChars_of_mem_marked {character : Char}
    (shown : character ∈ markLeading (characters.flatMap escapeChar)) (visible : character ≠ ' ') :
    character ∈ escapeChars characters := by
  rcases escapeChars_forms characters with ⟨repeatedChar, count, _, run, written⟩ | ⟨_, written⟩
  · rw [run] at shown
    rw [written, List.eq_of_mem_replicate shown]
    exact List.mem_cons_self
  · rw [written]
    exact mem_of_marks (forall₂_markTrailing _) shown visible

theorem backslash_mem_escapeChars {character : Char} (member : character ∈ characters)
    (escaped : character ∈ escapedCharacters) : '\\' ∈ escapeChars characters := by
  obtain ⟨letter, pair⟩ := exists_letter_of_mem escaped
  refine mem_escapeChars_of_mem_marked (mem_of_marks (forall₂_markLeading _) ?_ (by decide))
    (by decide)
  exact List.mem_flatMap.mpr ⟨character, member, by simp [pair]⟩

theorem unescaped_escapeChars
    (plain : ∀ character ∈ characters, character ∉ escapedCharacters) :
    ∀ character ∈ escapeChars characters, character ∉ escapedCharacters := by
  intro character member
  rcases mem_escapeChars member with ⟨original, among, written⟩ | rfl | rfl | rfl | digit
  · rw [escapeChar_of_not_mem (plain original among), List.mem_singleton] at written
    exact written ▸ plain original among
  · decide
  · decide
  · decide
  · rw [escapedCharacters, List.mem_cons, not_or]
    refine ⟨?_, not_mem_shorthand_of_isDigit digit⟩
    rintro rfl
    exact absurd digit (by decide)

theorem isPlain_escapeChars (unmarked : spaceMarker ∉ characters)
    (plain : ∀ character ∈ characters, character ∉ escapedCharacters) :
    IsPlain (escapeChars characters) := by
  refine ⟨unescaped_escapeChars plain, head?_escapeChars characters,
    getLast?_escapeChars characters, ?_⟩
  rcases escapeChars_forms characters with ⟨_, _, _, _, written⟩ | ⟨varied, written⟩
  · rw [written]
    exact not_isRun_countedRun
  · rw [flatMap_escapeChar_eq_self plain] at varied written
    rw [written]
    exact fun run => varied (run.of_marked unmarked).markLeading

theorem escapeChars_escapeChars_iff (unmarked : spaceMarker ∉ characters) :
    escapeChars (escapeChars characters) = escapeChars characters ↔
      ∀ character ∈ characters, character ∉ escapedCharacters := by
  rw [escapeChars_eq_self_iff]
  constructor
  · intro plain character member escaped
    exact plain.unescaped _ (backslash_mem_escapeChars member escaped) (by decide)
  · exact isPlain_escapeChars unmarked

end FixedPoints

/-- Escaped texts stand on one line, with no space at either end, and just the plain texts are
written as they stand. Where a text holds no visible space of its own, a second escaping changes
nothing just if the first one wrote nothing by a backslash. -/
theorem escape_normal_forms (text : String) :
    (∀ character ∈ (escape text).toList, character ∉ shorthandCharacters) ∧
      (escape text).toList.head? ≠ some ' ' ∧ (escape text).toList.getLast? ≠ some ' ' ∧
      (escape text = text ↔ IsPlain text.toList) ∧
      (spaceMarker ∉ text.toList → (escape (escape text) = escape text ↔
        ∀ character ∈ text.toList, character ∉ escapedCharacters)) := by
  refine ⟨shorthand_not_mem_escape text, ?_, ?_, ?_, ?_⟩
  · rw [toList_escape]
    exact head?_escapeChars text.toList
  · rw [toList_escape]
    exact getLast?_escapeChars text.toList
  · rw [← String.toList_inj, toList_escape, escapeChars_eq_self_iff]
  · intro unmarked
    rw [← String.toList_inj, toList_escape, toList_escape, escapeChars_escapeChars_iff unmarked]

theorem escape_normal_forms_spaces :
    spaceMarker ∉ "     ".toList ∧ escape "     " = "⍽ × 5" ∧
      escape (escape "     ") = escape "     " := by
  obtain ⟨_, _, _, _, twice⟩ := escape_normal_forms "     "
  have unmarked : spaceMarker ∉ "     ".toList := by decide
  have unescaped : ∀ character ∈ "     ".toList, character ∉ escapedCharacters := by
    simp [escapedCharacters, shorthandCharacters]
  exact ⟨unmarked, by decide, (twice unmarked).mpr unescaped⟩

example : escape (escape "a\\b") ≠ escape "a\\b" := by decide

end ParseView
