import Mathlib.Data.List.Induction
import ParseView.Proofs.EscapeFixedPoints
import ParseView.Text.Width

/-! The characters of an escaped text that the text itself does not hold: when there are visible
spaces in it, when it is a count, and which control characters are left. -/

namespace ParseView

/-- A text whose escaped form is a run of one character: five or more copies of one that is written
as it stands, or three or more backslashes, each of which is written as two. -/
def EscapesToRun (characters : List Char) : Prop :=
  (∃ character count, 5 ≤ count ∧ character ∉ escapedCharacters ∧
    characters = List.replicate count character) ∨
  ∃ count, 3 ≤ count ∧ characters = List.replicate count '\\'

def HasOuterSpace (characters : List Char) : Prop :=
  characters.head? = some ' ' ∨ characters.getLast? = some ' '

instance (characters : List Char) : Decidable (HasOuterSpace characters) :=
  inferInstanceAs (Decidable (characters.head? = some ' ' ∨ characters.getLast? = some ' '))

def IsControl (character : Char) : Prop :=
  character.toNat < 0x20 ∨ 0x7F ≤ character.toNat ∧ character.toNat < 0xA0

instance (character : Char) : Decidable (IsControl character) :=
  inferInstanceAs
    (Decidable (character.toNat < 0x20 ∨ 0x7F ≤ character.toNat ∧ character.toNat < 0xA0))

def escapeLetters : List Char := ['\\', 'b', 'f', 'n', 'r', 't']

theorem isNarrow_of_mem_escapeLetters {letter : Char} (member : letter ∈ escapeLetters) :
    IsNarrow letter := by
  simp only [escapeLetters, List.mem_cons, List.not_mem_nil, or_false] at member
  rcases member with rfl | rfl | rfl | rfl | rfl | rfl <;> decide

theorem not_isNarrow_of_isControl {character : Char} (control : IsControl character) :
    ¬IsNarrow character := by
  rw [IsControl] at control
  rw [IsNarrow]
  omega

theorem eq_of_mem_escapeChar {original written : Char} (member : written ∈ escapeChar original)
    (plain : written ∉ escapeLetters) : written = original := by
  unfold escapeChar at member
  split at member
  case h_7 => exact List.mem_singleton.mp member
  all_goals
    simp only [List.mem_cons, List.not_mem_nil, or_false] at member
    rcases member with rfl | rfl <;> exact absurd (by decide) plain

theorem mem_of_mem_flatMap_escapeChar {characters : List Char} {written : Char}
    (member : written ∈ characters.flatMap escapeChar) (plain : written ∉ escapeLetters) :
    written ∈ characters := by
  obtain ⟨original, among, shown⟩ := List.mem_flatMap.mp member
  exact eq_of_mem_escapeChar shown plain ▸ among

theorem exists_letter_of_mem_shorthand {character : Char}
    (short : character ∈ shorthandCharacters) :
    ∃ letter, letter ≠ '\\' ∧ escapeChar character = ['\\', letter] := by
  simp only [shorthandCharacters, List.mem_cons, List.not_mem_nil, or_false] at short
  rcases short with rfl | rfl | rfl | rfl | rfl <;> refine ⟨_, ?_, rfl⟩ <;> decide

section Runs

variable {characters : List Char}

theorem flatMap_escapeChar_replicate_backslash (count : Nat) :
    (List.replicate count '\\').flatMap escapeChar = List.replicate (2 * count) '\\' := by
  induction count with
  | zero => rfl
  | succ count ih =>
      have longer : 2 * (count + 1) = 2 * count + 1 + 1 := by omega
      rw [longer, List.replicate_succ, List.replicate_succ, List.replicate_succ, List.flatMap_cons,
        ih]
      rfl

theorem eq_backslash_of_mem {character : Char} (member : character ∈ characters)
    (only : ∀ written ∈ characters.flatMap escapeChar, written = '\\') : character = '\\' := by
  have shown : ∀ written ∈ escapeChar character, written = '\\' :=
    fun written inside => only written (List.mem_flatMap.mpr ⟨character, member, inside⟩)
  by_cases short : character ∈ shorthandCharacters
  · obtain ⟨letter, different, pair⟩ := exists_letter_of_mem_shorthand short
    exact absurd (shown letter (by simp [pair])) different
  · by_contra visible
    have plain : character ∉ escapedCharacters := by simp [escapedCharacters, visible, short]
    exact visible (shown character (by simp [escapeChar_of_not_mem plain]))

theorem escapesToRun_of_isRun (run : IsRun (characters.flatMap escapeChar)) :
    EscapesToRun characters := by
  obtain ⟨character, count, enough, run⟩ := run
  have only : ∀ written ∈ characters.flatMap escapeChar, written = character := by
    rw [run]
    exact fun written => List.eq_of_mem_replicate
  by_cases backslash : character = '\\'
  · subst backslash
    obtain ⟨length, rfl⟩ : ∃ length, characters = List.replicate length '\\' :=
      ⟨_, List.eq_replicate_of_mem fun original member => eq_backslash_of_mem member only⟩
    have lengths := congrArg List.length run
    rw [flatMap_escapeChar_replicate_backslash, List.length_replicate,
      List.length_replicate] at lengths
    exact .inr ⟨length, by omega, rfl⟩
  · have same : characters.flatMap escapeChar = characters :=
      flatMap_escapeChar_of_not_mem fun member => backslash (only _ member).symm
    have shown : character ∈ characters.flatMap escapeChar := by
      rw [run, List.mem_replicate]
      exact ⟨by omega, rfl⟩
    obtain ⟨original, _, written⟩ := List.mem_flatMap.mp shown
    have plain : character ∉ escapedCharacters := by
      rw [escapedCharacters, List.mem_cons, not_or]
      exact ⟨backslash, not_mem_shorthand_of_mem_escapeChar written⟩
    exact .inl ⟨character, count, enough, plain, same.symm.trans run⟩

theorem EscapesToRun.isRun (run : EscapesToRun characters) :
    IsRun (characters.flatMap escapeChar) := by
  rcases run with ⟨character, count, enough, plain, rfl⟩ | ⟨count, enough, rfl⟩
  · refine ⟨character, count, enough, flatMap_escapeChar_eq_self fun other member => ?_⟩
    exact List.eq_of_mem_replicate member ▸ plain
  · exact ⟨'\\', 2 * count, by omega, flatMap_escapeChar_replicate_backslash count⟩

theorem isRun_marked_iff (unmarked : spaceMarker ∉ characters) :
    IsRun (markLeading (characters.flatMap escapeChar)) ↔ EscapesToRun characters := by
  constructor
  · intro run
    exact escapesToRun_of_isRun
      (run.of_map_unmark (map_unmark_markLeading _) (spaceMarker_not_mem_flatMap unmarked))
  · exact fun run => run.isRun.markLeading

end Runs

section Signs

variable {characters : List Char}

theorem times_mem_escapeChars_iff (unmarked : spaceMarker ∉ characters)
    (timeless : '×' ∉ characters) : '×' ∈ escapeChars characters ↔ EscapesToRun characters := by
  rw [← isRun_marked_iff unmarked]
  rcases escapeChars_forms characters with
    ⟨repeatedChar, count, enough, run, written⟩ | ⟨varied, written⟩
  · refine iff_of_true ?_ ⟨repeatedChar, count, enough, run⟩
    simp [written, countedRun]
  · refine iff_of_false ?_ varied
    intro member
    rw [written] at member
    rcases mem_markTrailing member with marker | leading
    · exact absurd marker (by decide)
    · rcases mem_markLeading leading with marker | shown
      · exact absurd marker (by decide)
      · exact timeless (mem_of_mem_flatMap_escapeChar shown (by decide))

theorem head?_flatMap_escapeChar :
    (characters.flatMap escapeChar).head? = some ' ' ↔ characters.head? = some ' ' := by
  cases characters with
  | nil => rfl
  | cons first rest =>
      by_cases escaped : first ∈ escapedCharacters
      · obtain ⟨letter, shown⟩ := exists_letter_of_mem escaped
        have visible : first ≠ ' ' := by
          rintro rfl
          exact absurd escaped (by decide)
        simp [shown, visible]
      · simp [escapeChar_of_not_mem escaped]

theorem getLast?_flatMap_escapeChar :
    (characters.flatMap escapeChar).getLast? = some ' ' ↔ characters.getLast? = some ' ' := by
  cases characters using List.reverseRecOn with
  | nil => rfl
  | append_singleton rest last =>
      by_cases escaped : last ∈ escapedCharacters
      · obtain ⟨letter, shown⟩ := exists_letter_of_mem escaped
        have visible : last ≠ ' ' := by
          rintro rfl
          exact absurd escaped (by decide)
        have printed : letter ≠ ' ' := by
          rintro rfl
          exact visible (eq_of_mem_escapeChar (by simp [shown]) (by decide)).symm
        simp [shown, visible, printed]
      · simp [escapeChar_of_not_mem escaped]

theorem hasOuterSpace_flatMap_escapeChar :
    HasOuterSpace (characters.flatMap escapeChar) ↔ HasOuterSpace characters :=
  or_congr head?_flatMap_escapeChar getLast?_flatMap_escapeChar

theorem spaceMarker_mem_markLeading (leading : characters.head? = some ' ') :
    spaceMarker ∈ markLeading characters := by
  cases characters with
  | nil => simp at leading
  | cons first rest =>
      have blank : first = ' ' := by simpa using leading
      rw [markLeading, if_pos blank]
      exact List.mem_cons_self

theorem spaceMarker_mem_markTrailing (trailing : characters.getLast? = some ' ') :
    spaceMarker ∈ markTrailing characters := by
  rw [markTrailing, List.mem_reverse]
  exact spaceMarker_mem_markLeading (by rwa [List.head?_reverse])

theorem HasOuterSpace.markLeading (outer : HasOuterSpace characters) :
    spaceMarker ∈ markLeading characters ∨ (markLeading characters).getLast? = some ' ' := by
  by_cases leading : characters.head? = some ' '
  · exact .inl (spaceMarker_mem_markLeading leading)
  · right
    rw [markLeading_eq_self leading]
    exact outer.resolve_left leading

theorem HasOuterSpace.spaceMarker_mem (outer : HasOuterSpace characters) :
    spaceMarker ∈ escapeChars characters := by
  rcases (hasOuterSpace_flatMap_escapeChar.mpr outer).markLeading with shown | trailing
  · exact mem_escapeChars_of_mem_marked shown (by decide)
  · rcases escapeChars_forms characters with ⟨repeatedChar, count, enough, run, _⟩ | ⟨_, written⟩
    · -- A run that ends in a space begins with one too, but that one would be marked.
      rw [run, List.getLast?_replicate, if_neg (by omega)] at trailing
      exact absurd (Option.some.inj trailing) (ne_space_of_markLeading enough run)
    · rw [written]
      exact spaceMarker_mem_markTrailing trailing

theorem spaceMarker_not_mem_countedRun {repeatedChar : Char} (plain : repeatedChar ≠ spaceMarker)
    (count : Nat) : spaceMarker ∉ countedRun repeatedChar count := by
  have digits : spaceMarker ∉ Nat.toDigits 10 count := not_mem_toDigits (by decide) count
  have noBlank : spaceMarker ≠ ' ' := by decide
  have noTimes : spaceMarker ≠ '×' := by decide
  simp [countedRun, plain.symm, noBlank, noTimes, digits]

theorem spaceMarker_mem_escapeChars_iff (unmarked : spaceMarker ∉ characters) :
    spaceMarker ∈ escapeChars characters ↔ HasOuterSpace characters := by
  refine ⟨?_, HasOuterSpace.spaceMarker_mem⟩
  intro member
  by_contra inner
  rw [← hasOuterSpace_flatMap_escapeChar, HasOuterSpace, not_or] at inner
  have unmarkedEscape := spaceMarker_not_mem_flatMap unmarked
  rcases escapeChars_forms characters with
    ⟨repeatedChar, count, enough, run, written⟩ | ⟨_, written⟩
  · rw [markLeading_eq_self inner.1] at run
    rw [written] at member
    refine spaceMarker_not_mem_countedRun ?_ count member
    rintro rfl
    rw [run, List.mem_replicate] at unmarkedEscape
    exact unmarkedEscape ⟨by omega, rfl⟩
  · rw [written, markLeading_eq_self inner.1, markTrailing_eq_self inner.2] at member
    exact unmarkedEscape member

theorem mem_escapeChars_of_mem {character : Char} (member : character ∈ characters)
    (plain : character ∉ escapedCharacters) (visible : character ≠ ' ') :
    character ∈ escapeChars characters := by
  refine mem_escapeChars_of_mem_marked (mem_of_marks (forall₂_markLeading _) ?_ visible) visible
  exact List.mem_flatMap.mpr ⟨character, member, by simp [escapeChar_of_not_mem plain]⟩

/-- Control characters without a shorthand are written as they stand. -/
theorem control_mem_escapeChars_iff {character : Char} (control : IsControl character) :
    character ∈ escapeChars characters ↔
      character ∈ characters ∧ character ∉ shorthandCharacters := by
  have wide := not_isNarrow_of_isControl control
  have other {known : Char} (printed : ¬IsControl known) : character ≠ known := by
    rintro rfl
    exact printed control
  constructor
  · intro member
    rcases mem_escapeChars member with ⟨original, among, written⟩ | same | same | same | digit
    · obtain rfl := eq_of_mem_escapeChar written (mt isNarrow_of_mem_escapeLetters wide)
      exact ⟨among, not_mem_shorthand_of_mem_escapeChar written⟩
    · exact absurd same (other (by decide))
    · exact absurd same (other (by decide))
    · exact absurd same (other (by decide))
    · exact absurd (isNarrow_of_isDigit digit) wide
  · rintro ⟨member, unescaped⟩
    have visible : character ≠ '\\' := other (by decide)
    exact mem_escapeChars_of_mem member (by simp [escapedCharacters, visible, unescaped])
      (other (by decide))

end Signs

end ParseView
