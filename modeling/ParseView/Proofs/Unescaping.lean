import Mathlib.Data.List.Forall2
import ParseView.Proofs.Escaping

/-! Escaped text can be read back. Texts that hold the visible space themselves, or are spelled
like the count of a repeated character, are left out: they look like the escaped form of another
text. -/

namespace ParseView

def countedRun (repeatedChar : Char) (count : Nat) : List Char :=
  repeatedChar :: ' ' :: '×' :: ' ' :: Nat.toDigits 10 count

def SpellsRepeat (characters : List Char) : Prop :=
  ∃ repeatedChar count, 5 ≤ count ∧ characters = countedRun repeatedChar count

def IsRun (characters : List Char) : Prop :=
  ∃ character count, 5 ≤ count ∧ characters = List.replicate count character

def expandRepeat : List Char → List Char
  | repeatedChar :: ' ' :: '×' :: ' ' :: digits =>
      let count := Nat.ofDigitChars 10 digits 0
      if 5 ≤ count ∧ Nat.toDigits 10 count = digits then List.replicate count repeatedChar
      else repeatedChar :: ' ' :: '×' :: ' ' :: digits
  | other => other

def unmark (character : Char) : Char :=
  if character = spaceMarker then ' ' else character

def unescapeLetter : Char → Char
  | 'b' => '\x08'
  | 'f' => '\x0c'
  | 'n' => '\n'
  | 'r' => '\r'
  | 't' => '\t'
  | other => other

def unescapePairs : List Char → List Char
  | '\\' :: letter :: rest => unescapeLetter letter :: unescapePairs rest
  | first :: rest => first :: unescapePairs rest
  | [] => []

def unescapeChars (characters : List Char) : List Char :=
  unescapePairs ((expandRepeat characters).map unmark)

def unescape (text : String) : String :=
  String.ofList (unescapeChars text.toList)

theorem unescapePairs_cons {first : Char} (plain : first ≠ '\\') (rest : List Char) :
    unescapePairs (first :: rest) = first :: unescapePairs rest := by
  conv_lhs => unfold unescapePairs
  split
  · rename_i shown
    simp_all
  · simp_all
  · simp_all

theorem unescapePairs_escapeChar (original : Char) (rest : List Char) :
    unescapePairs (escapeChar original ++ rest) = original :: unescapePairs rest := by
  unfold escapeChar
  split
  case h_7 plain _ _ _ _ _ => exact unescapePairs_cons (fun same => plain same) rest
  all_goals rfl

theorem unescapePairs_flatMap_escapeChar (characters : List Char) :
    unescapePairs (characters.flatMap escapeChar) = characters := by
  induction characters with
  | nil => rfl
  | cons first rest ih => rw [List.flatMap_cons, unescapePairs_escapeChar, ih]

theorem unescapePairs_of_not_mem {characters : List Char} (plain : '\\' ∉ characters) :
    unescapePairs characters = characters := by
  induction characters with
  | nil => rfl
  | cons first rest ih =>
      rw [List.mem_cons, not_or] at plain
      rw [unescapePairs_cons (Ne.symm plain.1), ih plain.2]

theorem flatMap_escapeChar_of_not_mem {characters : List Char}
    (plain : '\\' ∉ characters.flatMap escapeChar) : characters.flatMap escapeChar = characters :=
  calc
    characters.flatMap escapeChar = unescapePairs (characters.flatMap escapeChar) :=
      (unescapePairs_of_not_mem plain).symm
    _ = characters := unescapePairs_flatMap_escapeChar characters

theorem expandRepeat_countedRun (repeatedChar : Char) {count : Nat} (enough : 5 ≤ count) :
    expandRepeat (countedRun repeatedChar count) = List.replicate count repeatedChar := by
  rw [countedRun, expandRepeat]
  simp [Nat.ofDigitChars_ten_toDigits, enough]

theorem expandRepeat_of_not_spellsRepeat {characters : List Char}
    (plain : ¬SpellsRepeat characters) : expandRepeat characters = characters := by
  unfold expandRepeat
  split
  · rename_i repeatedChar digits
    refine if_neg ?_
    rintro ⟨enough, canonical⟩
    refine plain ⟨repeatedChar, _, enough, ?_⟩
    rw [countedRun, canonical]
  · rfl

theorem unmark_spaceMarker : unmark spaceMarker = ' ' := by
  decide

theorem unmark_of_ne {character : Char} (plain : character ≠ spaceMarker) :
    unmark character = character :=
  if_neg plain

theorem map_unmark_of_not_mem {characters : List Char} (plain : spaceMarker ∉ characters) :
    characters.map unmark = characters := by
  have each : ∀ character ∈ characters, unmark character = id character := by
    intro character member
    refine unmark_of_ne ?_
    rintro rfl
    exact plain member
  rw [List.map_congr_left each, List.map_id]

def Marks (written original : Char) : Prop :=
  written = original ∨ written = spaceMarker ∧ original = ' '

theorem forall₂_markLeading (characters : List Char) :
    List.Forall₂ Marks (markLeading characters) characters := by
  induction characters with
  | nil => exact .nil
  | cons first rest ih =>
      rw [markLeading]
      by_cases space : first = ' '
      · rw [if_pos space]
        exact .cons (.inr ⟨rfl, space⟩) ih
      · rw [if_neg space]
        exact .cons (.inl rfl) (List.forall₂_same.mpr fun _ _ => .inl rfl)

theorem forall₂_markTrailing (characters : List Char) :
    List.Forall₂ Marks (markTrailing characters) characters := by
  have marked := forall₂_markLeading characters.reverse
  rwa [← List.forall₂_reverse_iff, List.reverse_reverse] at marked

theorem map_unmark_of_forall₂ {written original : List Char}
    (marked : List.Forall₂ Marks written original) : written.map unmark = original.map unmark := by
  induction marked with
  | nil => rfl
  | cons same _ ih =>
      rw [List.map_cons, List.map_cons, ih]
      rcases same with rfl | ⟨rfl, rfl⟩
      · rfl
      · rfl

theorem map_unmark_markLeading (characters : List Char) :
    (markLeading characters).map unmark = characters.map unmark :=
  map_unmark_of_forall₂ (forall₂_markLeading characters)

theorem map_unmark_markTrailing (characters : List Char) :
    (markTrailing characters).map unmark = characters.map unmark :=
  map_unmark_of_forall₂ (forall₂_markTrailing characters)

theorem eq_replicate_of_repeated? {characters : List Char} {repeatedChar : Char} {count : Nat}
    (found : repeated? characters = some (repeatedChar, count)) :
    5 ≤ count ∧ characters = List.replicate count repeatedChar := by
  cases characters with
  | nil => simp [repeated?] at found
  | cons first rest =>
      rw [repeated?] at found
      split at found
      · rename_i run
        simp only [Option.some.injEq, Prod.mk.injEq] at found
        rcases found with ⟨rfl, rfl⟩
        have others : rest = List.replicate rest.length first := by
          rw [List.eq_replicate_length]
          simpa using run.2
        refine ⟨run.1, ?_⟩
        rw [List.replicate_succ, ← others]
      · simp at found

theorem repeated?_isSome_of_isRun {characters : List Char} (run : IsRun characters) :
    (repeated? characters).isSome := by
  obtain ⟨character, count, enough, rfl⟩ := run
  cases count with
  | zero => omega
  | succ count => simpa [List.replicate_succ, repeated?, repeatThreshold] using enough

/-- A text is written as a count if it is a run once its leading spaces are marked, and with its
spaces marked at both ends otherwise. -/
theorem escapeChars_forms (characters : List Char) :
    (∃ repeatedChar count, 5 ≤ count ∧
        markLeading (characters.flatMap escapeChar) = List.replicate count repeatedChar ∧
        escapeChars characters = countedRun repeatedChar count) ∨
      ¬IsRun (markLeading (characters.flatMap escapeChar)) ∧
        escapeChars characters = markTrailing (markLeading (characters.flatMap escapeChar)) := by
  cases found : repeated? (markLeading (characters.flatMap escapeChar)) with
  | some run =>
      obtain ⟨repeatedChar, count⟩ := run
      obtain ⟨enough, same⟩ := eq_replicate_of_repeated? found
      refine .inl ⟨repeatedChar, count, enough, same, ?_⟩
      simp only [escapeChars, found]
      rfl
  | none =>
      refine .inr ⟨?_, ?_⟩
      · intro run
        simpa [found] using repeated?_isSome_of_isRun run
      · simp only [escapeChars, found]

theorem spaceMarker_not_mem_escapeChar {original : Char} (plain : original ≠ spaceMarker) :
    spaceMarker ∉ escapeChar original := by
  unfold escapeChar
  split
  case h_7 => simpa using Ne.symm plain
  all_goals decide

theorem spaceMarker_not_mem_flatMap {characters : List Char} (plain : spaceMarker ∉ characters) :
    spaceMarker ∉ characters.flatMap escapeChar := by
  intro member
  rcases List.mem_flatMap.mp member with ⟨original, among, written⟩
  refine spaceMarker_not_mem_escapeChar ?_ written
  rintro rfl
  exact plain among

theorem ne_backslash_of_lone {characters rest : List Char} {first : Char}
    (shown : characters.flatMap escapeChar = first :: ' ' :: rest) : first ≠ '\\' := by
  rintro rfl
  cases characters with
  | nil => simp at shown
  | cons original others =>
      rw [List.flatMap_cons] at shown
      unfold escapeChar at shown
      split at shown
      case h_7 plain _ _ _ _ _ => simp_all
      all_goals simp at shown

theorem not_mem_toDigits {character : Char} (other : character.isDigit = false) (number : Nat) :
    character ∉ Nat.toDigits 10 number := by
  intro member
  have digit := Nat.isDigit_of_mem_toDigits (by decide) (by decide) member
  rw [other] at digit
  exact Bool.false_ne_true digit

theorem map_unmark_digits (number : Nat) :
    (Nat.toDigits 10 number).map unmark = Nat.toDigits 10 number :=
  map_unmark_of_not_mem (not_mem_toDigits (by decide) number)

/-- A text that is written as it stands, but for its escapes and its visible spaces, is not
written like a count unless it is spelled like one. -/
theorem not_spellsRepeat_marked {characters : List Char} (unmarked : spaceMarker ∉ characters)
    (plain : ¬SpellsRepeat characters) :
    ¬SpellsRepeat (markTrailing (markLeading (characters.flatMap escapeChar))) := by
  rintro ⟨first, count, enough, written⟩
  have original : characters.flatMap escapeChar =
      unmark first :: ' ' :: '×' :: ' ' :: Nat.toDigits 10 count := by
    calc
      characters.flatMap escapeChar = (characters.flatMap escapeChar).map unmark :=
        (map_unmark_of_not_mem (spaceMarker_not_mem_flatMap unmarked)).symm
      _ = (countedRun first count).map unmark := by
        rw [← written, map_unmark_markTrailing, map_unmark_markLeading]
      _ = unmark first :: ' ' :: '×' :: ' ' :: Nat.toDigits 10 count := by
        simp only [countedRun, List.map_cons, map_unmark_digits]
        rfl
  by_cases space : unmark first = ' '
  · -- Of two spaces at the start the second would be marked too.
    have second : Marks ' ' spaceMarker := by
      have trailing := forall₂_markTrailing (markLeading (characters.flatMap escapeChar))
      rw [written, original, space, markLeading, if_pos rfl, markLeading, if_pos rfl] at trailing
      cases trailing with
      | cons _ later =>
          cases later with
          | cons second _ => exact second
    rcases second with same | ⟨same, _⟩ <;> exact absurd same (by decide)
  · have notBackslash := ne_backslash_of_lone original
    have noEscape : '\\' ∉ characters.flatMap escapeChar := by
      have digits : '\\' ∉ Nat.toDigits 10 count := not_mem_toDigits (by decide) count
      rw [original]
      simp [notBackslash.symm, digits]
    refine plain ⟨unmark first, count, enough, ?_⟩
    exact (flatMap_escapeChar_of_not_mem noEscape).symm.trans original

def Recoverable (text : String) : Prop :=
  spaceMarker ∉ text.toList ∧ ¬SpellsRepeat text.toList

theorem map_unmark_expandRepeat {characters : List Char} (unmarked : spaceMarker ∉ characters)
    (plain : ¬SpellsRepeat characters) :
    (expandRepeat (escapeChars characters)).map unmark = characters.flatMap escapeChar := by
  have unmarkedEscape := map_unmark_of_not_mem (spaceMarker_not_mem_flatMap unmarked)
  rcases escapeChars_forms characters with
    ⟨repeatedChar, count, enough, run, written⟩ | ⟨_, written⟩
  · rw [written, expandRepeat_countedRun repeatedChar enough, ← run, map_unmark_markLeading,
      unmarkedEscape]
  · rw [written, expandRepeat_of_not_spellsRepeat (not_spellsRepeat_marked unmarked plain),
      map_unmark_markTrailing, map_unmark_markLeading, unmarkedEscape]

theorem unescapeChars_escapeChars {characters : List Char} (unmarked : spaceMarker ∉ characters)
    (plain : ¬SpellsRepeat characters) : unescapeChars (escapeChars characters) = characters := by
  rw [unescapeChars, map_unmark_expandRepeat unmarked plain, unescapePairs_flatMap_escapeChar]

theorem unescape_recovers {text : String} (plain : Recoverable text) :
    unescape (escape text) = text := by
  rw [unescape, toList_escape, unescapeChars_escapeChars plain.1 plain.2, String.ofList_toList]

theorem unescapePairs_replicate_backslash (count : Nat) :
    unescapePairs (List.replicate (2 * count) '\\') = List.replicate count '\\' := by
  induction count with
  | zero => rfl
  | succ count ih =>
      have longer : 2 * (count + 1) = 2 * count + 1 + 1 := by omega
      rw [longer, List.replicate_succ, List.replicate_succ, unescapePairs, ih, List.replicate_succ]
      rfl

theorem unescape_counted_spaces {count : Nat} (enough : 5 ≤ count) :
    unescape (String.ofList (countedRun spaceMarker count)) =
      String.ofList (List.replicate count ' ') := by
  have spaces : '\\' ∉ List.replicate count ' ' := by
    intro member
    exact absurd (List.eq_of_mem_replicate member) (by decide)
  rw [unescape, String.toList_ofList, unescapeChars, expandRepeat_countedRun _ enough,
    List.map_replicate, unmark_spaceMarker, unescapePairs_of_not_mem spaces]

theorem unescape_counted_backslashes {count : Nat} (enough : 5 ≤ 2 * count) :
    unescape (String.ofList (countedRun '\\' (2 * count))) =
      String.ofList (List.replicate count '\\') := by
  have backslash : unmark '\\' = '\\' := by decide
  rw [unescape, String.toList_ofList, unescapeChars, expandRepeat_countedRun _ enough,
    List.map_replicate, backslash, unescapePairs_replicate_backslash]

/-- Escaping is undone by one decoder, so no two recoverable texts are written alike. -/
theorem escape_unambiguous :
    (∀ text, Recoverable text → unescape (escape text) = text) ∧
      (∀ first second, Recoverable first → Recoverable second → escape first = escape second →
        first = second) ∧
      (∀ count, 5 ≤ count → unescape (String.ofList (countedRun spaceMarker count)) =
        String.ofList (List.replicate count ' ')) ∧
      ∀ count, 5 ≤ 2 * count → unescape (String.ofList (countedRun '\\' (2 * count))) =
        String.ofList (List.replicate count '\\') := by
  refine ⟨fun text plain => unescape_recovers plain, ?_, fun count => unescape_counted_spaces,
    fun count => unescape_counted_backslashes⟩
  intro first second plainFirst plainSecond same
  calc
    first = unescape (escape first) := (unescape_recovers plainFirst).symm
    _ = unescape (escape second) := by rw [same]
    _ = second := unescape_recovers plainSecond

theorem escape_unambiguous_short_count :
    Recoverable "a × 4" ∧ unescape (escape "a × 4") = "a × 4" ∧
      (escape "a × 4" = escape "a × 4" → "a × 4" = "a × 4") ∧
      unescape "⍽ × 5" = "     " ∧ unescape "\\ × 6" = "\\\\\\" := by
  have plain : Recoverable "a × 4" := by
    refine ⟨by decide, ?_⟩
    rintro ⟨repeatedChar, count, enough, shown⟩
    have digits : Nat.toDigits 10 count = ['4'] := by
      simpa [countedRun] using (congrArg (List.drop 4) shown).symm
    have four : count = 4 := by
      rw [← Nat.ofDigitChars_ten_toDigits (n := count), digits]
      rfl
    omega
  obtain ⟨recovers, injective, spaces, backslashes⟩ := escape_unambiguous
  exact ⟨plain, recovers _ plain, injective _ _ plain plain, spaces 5 (by decide),
    backslashes 3 (by decide)⟩

/-- A text that is spelled like a count is written like the run that it names. -/
example : escape "aaaaa" = escape "a × 5" := by decide

end ParseView
