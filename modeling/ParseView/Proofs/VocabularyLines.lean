import Mathlib.Data.List.TakeWhile
import ParseView.Proofs.JsonTokens
import ParseView.Token.VocabularyFile

/-! What a line of a `.tokens` file says: the name and the kind that it joins, or the first check
that it fails. -/

namespace ParseView

section Trimming

theorem trimStart_append_of_blank {left : List Char} (blank : ∀ character ∈ left, isBlank character)
    (text : List Char) : trimStart (left ++ text) = trimStart text :=
  List.dropWhile_append_of_pos blank

theorem trimEnd_append_of_blank {right : List Char}
    (blank : ∀ character ∈ right, isBlank character) (text : List Char) :
    trimEnd (text ++ right) = trimEnd text := by
  rw [trimEnd, List.reverse_append, trimStart_append_of_blank (by simpa using blank), trimEnd]

theorem trimStart_of_blank {text : List Char} (blank : ∀ character ∈ text, isBlank character) :
    trimStart text = [] :=
  List.dropWhile_eq_nil_iff.mpr blank

theorem trim_surrounded {left right : List Char} (text : List Char)
    (before : ∀ character ∈ left, isBlank character)
    (after : ∀ character ∈ right, isBlank character) :
    trim (left ++ text ++ right) = trim text := by
  rw [trim, trim, List.append_assoc, trimStart_append_of_blank before]
  have parts : trimStart (text ++ right) =
      if (trimStart text).isEmpty then trimStart right else trimStart text ++ right :=
    List.dropWhile_append
  rw [parts]
  split
  next empty => rw [trimStart_of_blank after, List.isEmpty_iff.mp empty]
  next solid => exact trimEnd_append_of_blank after _

theorem trim_trimStart (text : List Char) : trim (trimStart text) = trim text := by
  have parts : text = text.takeWhile isBlank ++ trimStart text ++ [] := by
    simp [trimStart]
  conv => rhs; rw [parts]
  exact (trim_surrounded _ (fun character member => List.mem_takeWhile_imp member) (by simp)).symm

theorem trim_trimEnd (text : List Char) : trim (trimEnd text) = trim text := by
  have parts : text = [] ++ trimEnd text ++ (text.reverse.takeWhile isBlank).reverse := by
    simp [trimEnd, trimStart, ← List.reverse_append]
  conv => rhs; rw [parts]
  refine (trim_surrounded _ (by simp) ?_).symm
  intro character member
  exact List.mem_takeWhile_imp (List.mem_reverse.mp member)

theorem trim_append_cons {character : Char} (solid : isBlank character = false)
    (before after : List Char) :
    trim (before ++ character :: after) = trimStart before ++ character :: trimEnd after := by
  have starts (front back : List Char) :
      trimStart (front ++ character :: back) = trimStart front ++ character :: back := by
    simp only [trimStart, List.dropWhile_append, List.dropWhile_cons, solid]
    split
    next empty => simp [List.isEmpty_iff.mp empty]
    next => rfl
  rw [trim, starts, trimEnd, List.reverse_append, List.reverse_cons, List.append_assoc,
    List.singleton_append, starts]
  simp [trimEnd]

theorem mem_of_mem_trimStart {character : Char} {text : List Char}
    (member : character ∈ trimStart text) : character ∈ text :=
  (List.dropWhile_suffix isBlank).subset member

theorem mem_of_mem_trimEnd {character : Char} {text : List Char}
    (member : character ∈ trimEnd text) : character ∈ text := by
  rw [trimEnd, List.mem_reverse] at member
  exact List.mem_reverse.mp (mem_of_mem_trimStart member)

theorem mem_of_mem_trim {character : Char} {text : List Char} (member : character ∈ trim text) :
    character ∈ text :=
  mem_of_mem_trimStart (mem_of_mem_trimEnd member)

theorem isBlank_of_head?_trimStart {text : List Char} {first : Char}
    (starts : (trimStart text).head? = some first) : isBlank first = false := by
  have stops := List.head?_dropWhile_not isBlank text
  rw [trimStart] at starts
  rwa [starts] at stops

theorem trimEnd_prefix (text : List Char) : trimEnd text <+: text := by
  rw [trimEnd, ← List.reverse_suffix, List.reverse_reverse]
  exact List.dropWhile_suffix isBlank

theorem isBlank_of_head?_trim {text : List Char} {first : Char}
    (starts : (trim text).head? = some first) : isBlank first = false := by
  obtain ⟨rest, parts⟩ := trimEnd_prefix (trimStart text)
  have same : (trimStart text).head? = some first := by
    rw [← parts, ← trim, List.head?_append, starts, Option.some_or]
  exact isBlank_of_head?_trimStart same

theorem isBlank_of_getLast?_trim {text : List Char} {last : Char}
    (finishes : (trim text).getLast? = some last) : isBlank last = false := by
  rw [trim, trimEnd, List.getLast?_reverse] at finishes
  exact isBlank_of_head?_trimStart finishes

end Trimming

namespace VocabularyEntry

theorem splitAtLast_eq_none_iff (separator : Char) (line : List Char) :
    splitAtLast separator line = none ↔ separator ∉ line := by
  induction line with
  | nil => simp [splitAtLast]
  | cons first rest ih =>
      rw [splitAtLast]
      cases later : splitAtLast separator rest with
      | some parts =>
          have inside : separator ∈ rest := by simpa [later] using ih
          simp [inside]
      | none =>
          have absent := ih.mp later
          by_cases here : first = separator
          · simp [here]
          · simp [here, absent, Ne.symm here]

theorem splitAtLast_append_cons (separator : Char) (before : List Char) {after : List Char}
    (last : separator ∉ after) :
    splitAtLast separator (before ++ separator :: after) = some (before, after) := by
  induction before with
  | nil => simp [splitAtLast, (splitAtLast_eq_none_iff separator after).mpr last]
  | cons first rest ih => simp [splitAtLast, ih]

theorem eq_of_splitAtLast_eq_some {separator : Char} {line before after : List Char}
    (found : splitAtLast separator line = some (before, after)) :
    line = before ++ separator :: after ∧ separator ∉ after := by
  induction line generalizing before with
  | nil => simp [splitAtLast] at found
  | cons first rest ih =>
      rw [splitAtLast] at found
      cases later : splitAtLast separator rest with
      | some parts =>
          obtain ⟨front, back⟩ := parts
          simp only [later, Option.some.injEq, Prod.mk.injEq] at found
          obtain ⟨rfl, rfl⟩ := found
          obtain ⟨parts, last⟩ := ih later
          exact ⟨by simp [parts], last⟩
      | none =>
          simp only [later, Option.ite_none_right_eq_some, Option.some.injEq,
            Prod.mk.injEq] at found
          obtain ⟨rfl, rfl, rfl⟩ := found
          exact ⟨rfl, (splitAtLast_eq_none_iff first rest).mp later⟩

theorem splitAtLast_eq_some_iff (separator : Char) (line before after : List Char) :
    splitAtLast separator line = some (before, after) ↔
      line = before ++ separator :: after ∧ separator ∉ after := by
  constructor
  · exact eq_of_splitAtLast_eq_some
  · rintro ⟨rfl, last⟩
    exact splitAtLast_append_cons separator before last

/-- A text that stands for a kind: decimal digits, perhaps after a plus sign. -/
def SpellsKind (text : List Char) (kind : UInt32) : Prop :=
  ∃ digits, (text = digits ∨ text = '+' :: digits) ∧ digits ≠ [] ∧
    (∀ digit ∈ digits, digit.isDigit = true) ∧ Nat.ofDigitChars 10 digits 0 = kind.toNat

def unsigned : List Char → List Char
  | '+' :: digits => digits
  | digits => digits

/-- Why a text stands for no kind: nothing follows the sign, or there is a first character at
which the number cannot go on, since it is no digit or makes the number too large. -/
inductive MisspellsKind : List Char → KindFault → Prop where
  | empty : MisspellsKind [] .empty
  | loneSign : MisspellsKind ['+'] .invalidDigit
  | invalidDigit {text digits rest : List Char} {character : Char} :
      unsigned text = digits ++ character :: rest → (∀ digit ∈ digits, digit.isDigit = true) →
      Nat.ofDigitChars 10 digits 0 < UInt32.size → character.isDigit = false →
      MisspellsKind text .invalidDigit
  | tooLarge {text digits rest : List Char} {last : Char} :
      unsigned text = digits ++ last :: rest → (∀ digit ∈ digits, digit.isDigit = true) →
      Nat.ofDigitChars 10 digits 0 < UInt32.size → last.isDigit = true →
      UInt32.size ≤ Nat.ofDigitChars 10 (digits ++ [last]) 0 → MisspellsKind text .tooLarge

theorem kindAfter_cons (value : UInt32) (digit : Char) (rest : List Char) :
    kindAfter value (digit :: rest) =
      if digit.isDigit then
        if 10 * value.toNat + (digit.toNat - '0'.toNat) < UInt32.size then
          kindAfter (UInt32.ofNat (10 * value.toNat + (digit.toNat - '0'.toNat))) rest
        else .error .tooLarge
      else .error .invalidDigit := by
  rw [kindAfter, Nat.mul_comm]

theorem kindAfter_eq_ok_iff (value : UInt32) (digits : List Char) (kind : UInt32) :
    kindAfter value digits = .ok kind ↔
      (∀ digit ∈ digits, digit.isDigit = true) ∧
        Nat.ofDigitChars 10 digits value.toNat = kind.toNat := by
  induction digits generalizing value with
  | nil => simp [kindAfter, UInt32.toNat_inj]
  | cons digit rest ih =>
      rw [kindAfter_cons, Nat.ofDigitChars_cons]
      by_cases numeric : digit.isDigit = true
      · rw [if_pos numeric]
        split
        next fits =>
          rw [ih, UInt32.toNat_ofNat_of_lt' fits]
          simp [numeric]
        next large =>
          have bound := Json.le_ofDigitChars rest (10 * value.toNat + (digit.toNat - '0'.toNat))
          have small := kind.toNat_lt_size
          simp only [reduceCtorEq, false_iff, not_and]
          omega
      · simp [numeric]

theorem kindAfter_eq_error_iff (value : UInt32) (text : List Char) (fault : KindFault) :
    kindAfter value text = .error fault ↔
      ∃ digits character rest, text = digits ++ character :: rest ∧
        (∀ digit ∈ digits, digit.isDigit = true) ∧
        Nat.ofDigitChars 10 digits value.toNat < UInt32.size ∧
        (character.isDigit = false ∧ fault = .invalidDigit ∨
          character.isDigit = true ∧
            UInt32.size ≤ Nat.ofDigitChars 10 (digits ++ [character]) value.toNat ∧
            fault = .tooLarge) := by
  -- The number read so far is arbitrary: it grows with every digit that is passed.
  constructor
  · intro stopped
    induction text generalizing value with
    | nil => simp [kindAfter] at stopped
    | cons first rest ih =>
        rw [kindAfter_cons] at stopped
        split at stopped
        next numeric =>
          split at stopped
          next fits =>
            obtain ⟨digits, character, later, rfl, numbers, small, how⟩ := ih _ stopped
            rw [UInt32.toNat_ofNat_of_lt' fits] at small how
            exact ⟨first :: digits, character, later, rfl, by simpa [numeric] using numbers,
              small, how⟩
          next large =>
            cases stopped
            exact ⟨[], first, rest, rfl, by simp, value.toNat_lt_size,
              .inr ⟨numeric, by simpa [Nat.ofDigitChars_cons] using large, rfl⟩⟩
        next other =>
          cases stopped
          exact ⟨[], first, rest, rfl, by simp, value.toNat_lt_size,
            .inl ⟨by simpa using other, rfl⟩⟩
  · rintro ⟨digits, character, rest, rfl, numbers, small, how⟩
    induction digits generalizing value with
    | nil =>
        rw [List.nil_append, kindAfter_cons]
        rcases how with ⟨other, rfl⟩ | ⟨numeric, large, rfl⟩
        · simp [other]
        · rw [List.nil_append, Nat.ofDigitChars_cons, Nat.ofDigitChars_nil] at large
          rw [if_pos numeric, if_neg (Nat.not_lt.mpr large)]
    | cons first digits ih =>
        -- The whole number is below the bound, and so is every number on the way to it.
        rw [Nat.ofDigitChars_cons] at small
        have fits := Nat.lt_of_le_of_lt (Json.le_ofDigitChars digits _) small
        rw [List.cons_append, kindAfter_cons, if_pos (numbers first (by simp)), if_pos fits]
        apply ih
        · exact fun digit member => numbers digit (by simp [member])
        · rwa [UInt32.toNat_ofNat_of_lt' fits]
        · rwa [UInt32.toNat_ofNat_of_lt' fits]

theorem eq_unsigned_or (text : List Char) : text = unsigned text ∨ text = '+' :: unsigned text := by
  unfold unsigned
  split
  · exact .inr rfl
  · exact .inl rfl

theorem unsigned_of_digits {digits : List Char}
    (numbers : ∀ digit ∈ digits, digit.isDigit = true) : unsigned digits = digits := by
  unfold unsigned
  split
  · exact absurd (numbers '+' (by simp)) (by decide)
  · rfl

theorem spellsKind_iff (text : List Char) (kind : UInt32) :
    SpellsKind text kind ↔ unsigned text ≠ [] ∧
      (∀ digit ∈ unsigned text, digit.isDigit = true) ∧
      Nat.ofDigitChars 10 (unsigned text) 0 = kind.toNat := by
  constructor
  · rintro ⟨digits, rfl | rfl, spelled⟩
    · rwa [unsigned_of_digits spelled.2.1]
    · exact spelled
  · exact fun spelled => ⟨unsigned text, eq_unsigned_or text, spelled⟩

theorem readKind_eq (text : List Char) :
    readKind text =
      if text = [] then .error .empty
      else if unsigned text = [] then .error .invalidDigit
      else kindAfter 0 (unsigned text) := by
  unfold readKind
  split
  next => rfl
  next => rfl
  next digits lone =>
    have following : unsigned ('+' :: digits) = digits := rfl
    have solid : digits ≠ [] := by
      rintro rfl
      exact lone rfl
    rw [if_neg (by simp), following, if_neg solid]
  next nonempty _ signless =>
    have same : unsigned text = text := by
      rw [unsigned]
      exact signless
    rw [same, if_neg nonempty, if_neg nonempty]

theorem readKind_eq_ok_iff (text : List Char) (kind : UInt32) :
    readKind text = .ok kind ↔ SpellsKind text kind := by
  rw [readKind_eq, spellsKind_iff]
  by_cases empty : unsigned text = []
  · simp only [empty, ↓reduceIte, ne_eq, not_true_eq_false, false_and, iff_false]
    split <;> simp
  · have solid : text ≠ [] := by
      rintro rfl
      exact empty rfl
    rw [if_neg solid, if_neg empty, kindAfter_eq_ok_iff]
    simp [empty]

theorem readKind_eq_error_iff (text : List Char) (fault : KindFault) :
    readKind text = .error fault ↔ MisspellsKind text fault := by
  rw [readKind_eq]
  by_cases empty : unsigned text = []
  · constructor
    · intro stopped
      rcases eq_unsigned_or text with same | same <;> rw [empty] at same <;> subst same
      · cases stopped
        exact .empty
      · cases stopped
        exact .loneSign
    · intro why
      cases why with
      | empty => rfl
      | loneSign => rfl
      | invalidDigit parts | tooLarge parts => simp [empty] at parts
  · have solid : text ≠ [] := by
      rintro rfl
      exact empty rfl
    rw [if_neg solid, if_neg empty, kindAfter_eq_error_iff]
    constructor
    · rintro ⟨digits, character, rest, parts, numbers, small, ⟨other, rfl⟩ | ⟨numeric, large, rfl⟩⟩
      · exact .invalidDigit parts numbers small other
      · exact .tooLarge parts numbers small numeric large
    · intro why
      cases why with
      | empty | loneSign => exact absurd rfl empty
      | invalidDigit parts numbers small other =>
          exact ⟨_, _, _, parts, numbers, small, .inl ⟨other, rfl⟩⟩
      | tooLarge parts numbers small numeric large =>
          exact ⟨_, _, _, parts, numbers, small, .inr ⟨numeric, large, rfl⟩⟩

/-- The line, without the blanks around it, joins a name and a kind by its last equals sign. -/
def Declares (line name : List Char) (kind : UInt32) : Prop :=
  ∃ before after, trim line = before ++ '=' :: after ∧ '=' ∉ after ∧
    SpellsKind (trim after) kind ∧ name = trim before ∧ name ≠ []

/-- The first check that a line fails. -/
inductive Fails (line : List Char) : EntryFault → Prop where
  | noEquals : '=' ∉ trim line → Fails line .noEquals
  | badKind {before after : List Char} {fault : KindFault} :
      trim line = before ++ '=' :: after → '=' ∉ after → MisspellsKind (trim after) fault →
      Fails line (.badKind fault)
  | emptyName {before after : List Char} {kind : UInt32} :
      trim line = before ++ '=' :: after → '=' ∉ after → SpellsKind (trim after) kind →
      trim before = [] → Fails line .emptyName

theorem ofLine_of_noEquals (number : Nat) {line : List Char} (absent : '=' ∉ line) :
    ofLine number line = .error .noEquals := by
  rw [ofLine, (splitAtLast_eq_none_iff '=' line).mpr absent]
  rfl

theorem ofLine_of_parts (number : Nat) {line before after : List Char}
    (parts : line = before ++ '=' :: after) (last : '=' ∉ after) :
    ofLine number line =
      match readKind (trim after) with
      | .error fault => .error (.badKind fault)
      | .ok kind =>
          if trim before = [] then .error .emptyName else .ok ⟨number, trim before, kind⟩ := by
  rw [ofLine, (splitAtLast_eq_some_iff '=' line before after).mpr ⟨parts, last⟩]
  dsimp only
  cases readKind (trim after) with
  | error fault => rfl
  | ok kind => cases trim before <;> rfl

theorem exists_parts {line : List Char} (inside : '=' ∈ line) :
    ∃ before after, line = before ++ '=' :: after ∧ '=' ∉ after := by
  cases found : splitAtLast '=' line with
  | none => exact absurd inside ((splitAtLast_eq_none_iff '=' line).mp found)
  | some parts => exact ⟨parts.1, parts.2, eq_of_splitAtLast_eq_some found⟩

theorem parts_unique {before after front back : List Char}
    (same : before ++ '=' :: after = front ++ '=' :: back) (last : '=' ∉ after)
    (final : '=' ∉ back) : before = front ∧ after = back := by
  have found := splitAtLast_append_cons '=' before last
  rw [same, splitAtLast_append_cons '=' front final] at found
  simpa [eq_comm] using found

theorem ofLine_trim_eq_ok_iff (number : Nat) (line : List Char) (entry : VocabularyEntry) :
    ofLine number (trim line) = .ok entry ↔
      entry.line = number ∧ Declares line entry.name entry.kind := by
  by_cases inside : '=' ∈ trim line
  · obtain ⟨before, after, parts, last⟩ := exists_parts inside
    rw [ofLine_of_parts number parts last]
    constructor
    · intro read
      split at read
      next => simp at read
      next kind spelled =>
        split at read
        next => simp at read
        next named =>
          cases read
          exact ⟨rfl, before, after, parts, last, (readKind_eq_ok_iff _ _).mp spelled, rfl, named⟩
    · rintro ⟨rfl, front, back, same, final, spelled, named, solid⟩
      obtain ⟨rfl, rfl⟩ := parts_unique (parts.symm.trans same) last final
      rw [(readKind_eq_ok_iff _ _).mpr spelled]
      simp [← named, solid]
  · rw [ofLine_of_noEquals number inside]
    constructor
    · simp
    · rintro ⟨_, before, after, parts, _⟩
      exact absurd (by simp [parts]) inside

theorem ofLine_trim_eq_error_iff (number : Nat) (line : List Char) (fault : EntryFault) :
    ofLine number (trim line) = .error fault ↔ Fails line fault := by
  by_cases inside : '=' ∈ trim line
  · obtain ⟨before, after, parts, last⟩ := exists_parts inside
    rw [ofLine_of_parts number parts last]
    constructor
    · intro stopped
      split at stopped
      next why misspelled =>
        cases stopped
        exact .badKind parts last ((readKind_eq_error_iff _ _).mp misspelled)
      next kind spelled =>
        split at stopped
        next unnamed =>
          cases stopped
          exact .emptyName parts last ((readKind_eq_ok_iff _ _).mp spelled) unnamed
        next => simp at stopped
    · intro fails
      cases fails with
      | noEquals absent => exact absurd inside absent
      | badKind same final misspelled =>
          obtain ⟨rfl, rfl⟩ := parts_unique (parts.symm.trans same) last final
          rw [(readKind_eq_error_iff _ _).mpr misspelled]
      | emptyName same final spelled unnamed =>
          obtain ⟨rfl, rfl⟩ := parts_unique (parts.symm.trans same) last final
          rw [(readKind_eq_ok_iff _ _).mpr spelled]
          simp [unnamed]
  · rw [ofLine_of_noEquals number inside]
    constructor
    · rintro ⟨⟩
      exact .noEquals inside
    · intro fails
      cases fails with
      | noEquals => rfl
      | badKind parts | emptyName parts => exact absurd (by simp [parts]) inside

theorem exists_fails_iff (line : List Char) :
    (∃ fault, Fails line fault) ↔ ¬∃ name kind, Declares line name kind := by
  constructor
  · rintro ⟨fault, fails⟩ ⟨name, kind, declares⟩
    have read := (ofLine_trim_eq_ok_iff 0 line ⟨0, name, kind⟩).mpr ⟨rfl, declares⟩
    rw [(ofLine_trim_eq_error_iff 0 line fault).mpr fails] at read
    simp at read
  · intro undeclared
    cases found : ofLine 0 (trim line) with
    | error fault => exact ⟨fault, (ofLine_trim_eq_error_iff 0 line fault).mp found⟩
    | ok entry =>
        have declares := ((ofLine_trim_eq_ok_iff 0 line entry).mp found).2
        exact absurd ⟨_, _, declares⟩ undeclared

theorem Declares.trim_ne_nil {line name : List Char} {kind : UInt32}
    (declares : Declares line name kind) : trim line ≠ [] := by
  obtain ⟨before, after, parts, _⟩ := declares
  simp [parts]

theorem Declares.unique {line name other : List Char} {kind otherKind : UInt32}
    (declares : Declares line name kind) (again : Declares line other otherKind) :
    name = other ∧ kind = otherKind := by
  have read := (ofLine_trim_eq_ok_iff 0 line ⟨0, name, kind⟩).mpr ⟨rfl, declares⟩
  rw [(ofLine_trim_eq_ok_iff 0 line ⟨0, other, otherKind⟩).mpr ⟨rfl, again⟩] at read
  simpa [eq_comm] using read

theorem declares_iff (line name : List Char) (kind : UInt32) :
    Declares line name kind ↔ ∃ before after, line = before ++ '=' :: after ∧ '=' ∉ after ∧
      SpellsKind (trim after) kind ∧ name = trim before ∧ name ≠ [] := by
  constructor
  · rintro ⟨front, back, parts, last, spelled, named, nonempty⟩
    have inside : '=' ∈ line := mem_of_mem_trim (by simp [parts])
    obtain ⟨before, after, rfl, final⟩ := exists_parts inside
    rw [trim_append_cons (by decide)] at parts
    obtain ⟨rfl, rfl⟩ := parts_unique parts (fun member => final (mem_of_mem_trimEnd member)) last
    rw [trim_trimEnd] at spelled
    rw [trim_trimStart] at named
    exact ⟨before, after, rfl, final, spelled, named, nonempty⟩
  · rintro ⟨before, after, rfl, last, spelled, named, nonempty⟩
    refine ⟨trimStart before, trimEnd after, trim_append_cons (by decide) before after,
      fun member => last (mem_of_mem_trimEnd member), ?_, ?_, nonempty⟩
    · rwa [trim_trimEnd]
    · rwa [trim_trimStart]

end VocabularyEntry

end ParseView
