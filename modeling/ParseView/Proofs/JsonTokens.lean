import ParseView.Json.Compact
import ParseView.Json.Reader.Value

/-! Reading back the tokens of a compact JSON text: separators, texts and integers. What follows
a token is arbitrary, as far as it does not continue a number. -/

namespace ParseView.Json

variable {α β : Type}

@[simp] theorem ok_bind (value : α) (next : α → Except Fault β) :
    (Except.ok value >>= next) = next value := rfl

@[simp] theorem error_bind (fault : Fault) (next : α → Except Fault β) :
    ((Except.error fault : Except Fault α) >>= next) = .error fault := rfl

@[simp] theorem pure_eq_ok (value : α) : (pure value : Except Fault α) = .ok value := rfl

@[simp] theorem map_ok (convert : α → β) (value : α) :
    convert <$> (Except.ok value : Except Fault α) = .ok (convert value) := rfl

theorem run_head? (input : List Char) : head?.run input = .ok (input.head?, input) := rfl

theorem run_advance (input : List Char) : advance.run input = .ok ((), input.tail) := rfl

theorem run_peek (first : Char) (rest : List Char) (visible : isSpace first = false) :
    peek.run (first :: rest) = .ok (some first, first :: rest) := by
  have kept : (first :: rest).dropWhile isSpace = first :: rest := by simp [visible]
  calc
    peek.run (first :: rest) = .ok (((first :: rest).dropWhile isSpace).head?,
      (first :: rest).dropWhile isSpace) := rfl
    _ = .ok (some first, first :: rest) := by rw [kept, List.head?_cons]

section Documents

variable {document : Reader α} {text : String}

theorem readDocument_eq (document : Reader α) (text : String) : readDocument document text =
    Prod.fst <$> (do let value ← document; finish; return value : Reader α).run text.toList := rfl

theorem readDocument_of_ok {value : α} (read : document.run text.toList = .ok (value, [])) :
    readDocument document text = .ok value := by
  have ended : finish.run [] = .ok ((), []) := rfl
  rw [readDocument_eq, StateT.run_bind, read, ok_bind, StateT.run_bind, ended]
  rfl

theorem readDocument_of_error {fault : Fault} (refused : document.run text.toList = .error fault) :
    readDocument document text = .error fault := by
  rw [readDocument_eq, StateT.run_bind, refused]
  rfl

end Documents

section Separators

variable (first : Char) (rest : List Char)

theorem run_hasElement_first (visible : isSpace first = false) (opens : first ≠ ']') :
    (hasElement true).run (first :: rest) = .ok (true, first :: rest) := by
  simp [hasElement, run_peek first rest visible]

theorem run_hasElement_next (visible : isSpace first = false) (opens : first ≠ ']') :
    (hasElement false).run (',' :: first :: rest) = .ok (true, first :: rest) := by
  have comma := run_peek ',' (first :: rest) (by decide)
  simp [hasElement, comma, run_advance, run_peek first rest visible]

theorem run_hasElement_close (isFirst : Bool) :
    (hasElement isFirst).run (']' :: rest) = .ok (false, ']' :: rest) := by
  simp [hasElement, run_peek ']' rest (by decide)]

theorem run_hasMember_first : (hasMember true).run ('"' :: rest) = .ok (true, '"' :: rest) := by
  simp [hasMember, run_peek '"' rest (by decide)]

theorem run_hasMember_next :
    (hasMember false).run (',' :: '"' :: rest) = .ok (true, '"' :: rest) := by
  have comma := run_peek ',' ('"' :: rest) (by decide)
  simp [hasMember, comma, run_advance, run_peek '"' rest (by decide)]

theorem run_hasMember_close (isFirst : Bool) :
    (hasMember isFirst).run ('\x7d' :: rest) = .ok (false, '\x7d' :: rest) := by
  simp [hasMember, run_peek '\x7d' rest (by decide)]

theorem run_colon : colon.run (':' :: rest) = .ok ((), rest) := by
  simp [colon, run_peek ':' rest (by decide), run_advance]

end Separators

theorem hexValue?_hexDigit (value : Nat) : hexValue? (hexDigit value) = some (value % 16) := by
  have each : ∀ digit < 16, hexValue? (Nat.digitChar digit) = some digit := by decide
  exact each _ (Nat.mod_lt _ (by decide))

theorem readEscape_control (character : Char) (rest : List Char)
    (control : character.toNat < 0x20) :
    readEscape ('u' :: '0' :: '0' :: hexDigit (character.toNat / 16) ::
      hexDigit character.toNat :: rest) = .ok (character, 5) := by
  have zero : hexValue? '0' = some 0 := by decide
  have unit : ((0 * 16 + 0) * 16 + character.toNat / 16 % 16) * 16 + character.toNat % 16 =
      character.toNat := by omega
  have notTrailing : isTrailingSurrogate character.toNat = false := by
    simp [isTrailingSurrogate]
    omega
  have notLeading : isLeadingSurrogate character.toNat = false := by
    simp [isLeadingSurrogate]
    omega
  simp only [readEscape, codeUnit, hexValue?_hexDigit, zero, unit, ok_bind, notTrailing,
    notLeading, Char.ofNat_toNat]
  rfl

theorem textFrom_escapedChar (character : Char) (collected rest : List Char) :
    textFrom collected 0 (escapedChar character ++ rest) =
      textFrom (character :: collected) 0 rest := by
  unfold escapedChar
  split
  case h_8 =>
    split
    case isTrue control =>
      have read := readEscape_control character rest control
      simp [textFrom, read]
    case isFalse plain => simp [textFrom, plain]
  all_goals rfl

theorem textFrom_flatMap_escapedChar (characters collected rest : List Char) :
    textFrom collected 0 (characters.flatMap escapedChar ++ '"' :: rest) =
      .ok (String.ofList (collected.reverse ++ characters), rest) := by
  induction characters generalizing collected with
  | nil => simp [textFrom]
  | cons character characters ih =>
      rw [List.flatMap_cons, List.append_assoc, textFrom_escapedChar, ih]
      simp

theorem run_readText (value : String) (rest : List Char) :
    readText.run (textCharacters value ++ rest) = .ok (value, rest) := by
  have read := textFrom_flatMap_escapedChar value.toList [] rest
  rw [readText, StateT.run_bind, run_advance, ok_bind]
  simpa [textCharacters, StateT.run] using read

def EndsNumber (rest : List Char) : Prop :=
  ∀ next ∈ rest.head?, next.isDigit = false ∧ next ≠ '.' ∧ next ≠ 'e' ∧ next ≠ 'E'

def digitValues (number : Nat) : List Nat :=
  (Nat.toDigits 10 number).map fun digit => digit.toNat - '0'.toNat

theorem digitValues_ne_nil (number : Nat) : digitValues number ≠ [] := by
  simp [digitValues, Nat.toDigits_ne_nil]

theorem isDigit_of_mem {number : Nat} {character : Char}
    (member : character ∈ Nat.toDigits 10 number) : character.isDigit = true :=
  Nat.isDigit_of_mem_toDigits (by decide) (by decide) member

theorem head?_digitValues (number : Nat) (positive : 0 < number) :
    (digitValues number).head? ≠ some 0 := by
  induction number using Nat.strongRecOn with
  | ind number ih =>
      by_cases single : number < 10
      · have each : ∀ digit < 10, 0 < digit →
            some ((Nat.digitChar digit).toNat - '0'.toNat) ≠ some 0 := by decide
        simpa [digitValues, Nat.toDigits_of_lt_base single] using each number single positive
      · have front := ih (number / 10) (by omega) (by omega)
        have split := Nat.toDigits_of_base_le (by decide : 1 < 10) (Nat.not_lt.mp single)
        have longer : digitValues number =
            digitValues (number / 10) ++ digitValues (number % 10) := by
          have last := Nat.toDigits_of_lt_base (Nat.mod_lt number (by decide : 10 > 0))
          rw [digitValues, digitValues, digitValues, split, last, List.map_append]
        obtain ⟨first, rest, shown⟩ := List.exists_cons_of_ne_nil (digitValues_ne_nil (number / 10))
        rw [shown] at front
        rw [longer, shown]
        exact front

theorem le_ofDigitChars (digits : List Char) (significand : Nat) :
    significand ≤ Nat.ofDigitChars 10 digits significand := by
  rw [Nat.ofDigitChars_eq_ofDigitChars_zero]
  have scale : 0 < 10 ^ digits.length := Nat.pow_pos (by decide)
  exact Nat.le_trans (Nat.le_mul_of_pos_left _ scale) (Nat.le_add_right _ _)

/-- Digits are gathered into the number that they stand for, if it fits into 64 bits. -/
theorem gather_map (digits : List Char) (significand : Nat)
    (fits : Nat.ofDigitChars 10 digits significand < UInt64.size) :
    gather significand (digits.map fun digit => digit.toNat - '0'.toNat) =
      (Nat.ofDigitChars 10 digits significand, []) := by
  induction digits generalizing significand with
  | nil => rfl
  | cons digit rest ih =>
      rw [Nat.ofDigitChars_cons] at fits ⊢
      have small := Nat.lt_of_le_of_lt (le_ofDigitChars rest _) fits
      rw [List.map_cons, gather, Nat.mul_comm significand 10, if_pos small, ih _ fits]

theorem gather_digitValues (number : Nat) (fits : number < UInt64.size) :
    gather 0 (digitValues number) = (number, []) := by
  rw [digitValues, gather_map _ _ (by rwa [Nat.ofDigitChars_ten_toDigits]),
    Nat.ofDigitChars_ten_toDigits]

theorem run_digits (number : Nat) (rest : List Char) (ends : EndsNumber rest) :
    digits.run (Nat.toDigits 10 number ++ rest) = .ok (digitValues number, rest) := by
  have every : ∀ digit ∈ Nat.toDigits 10 number, digit.isDigit = true :=
    fun digit member => isDigit_of_mem member
  have stops : rest.takeWhile Char.isDigit = [] ∧ rest.dropWhile Char.isDigit = rest := by
    cases rest with
    | nil => exact ⟨rfl, rfl⟩
    | cons next rest =>
        have other := (ends next rfl).1
        simp [other]
  have taken : (Nat.toDigits 10 number ++ rest).takeWhile Char.isDigit =
      Nat.toDigits 10 number := by
    rw [List.takeWhile_append_of_pos every, stops.1, List.append_nil]
  have dropped : (Nat.toDigits 10 number ++ rest).dropWhile Char.isDigit = rest := by
    rw [List.dropWhile_append_of_pos every, stops.2]
  calc
    digits.run (Nat.toDigits 10 number ++ rest) =
        .ok (((Nat.toDigits 10 number ++ rest).takeWhile Char.isDigit).map fun digit =>
          digit.toNat - '0'.toNat, (Nat.toDigits 10 number ++ rest).dropWhile Char.isDigit) := rfl
    _ = .ok (digitValues number, rest) := by rw [taken, dropped, digitValues]

theorem run_someDigits (number : Nat) (rest : List Char) (ends : EndsNumber rest) :
    someDigits.run (Nat.toDigits 10 number ++ rest) = .ok (digitValues number, rest) := by
  obtain ⟨first, others, shown⟩ := List.exists_cons_of_ne_nil (digitValues_ne_nil number)
  rw [someDigits, StateT.run_bind, run_digits number rest ends, ok_bind, shown]
  rfl

theorem run_fractionPart (rest : List Char) (ends : EndsNumber rest) :
    fractionPart.run rest = .ok ([], rest) := by
  cases rest with
  | nil => rfl
  | cons next rest =>
      obtain ⟨_, point, _, _⟩ := ends next rfl
      simp [fractionPart, run_head?, point]

theorem run_exponentPart (rest : List Char) (ends : EndsNumber rest) :
    exponentPart.run rest = .ok (none, rest) := by
  cases rest with
  | nil => rfl
  | cons next rest =>
      obtain ⟨_, _, small, large⟩ := ends next rfl
      simp [exponentPart, run_head?, small, large]

theorem run_unsigned (negative : Bool) (number : Nat) (rest : List Char)
    (ends : EndsNumber rest) (fits : number < UInt64.size) :
    readNumber.run ((if negative then ['-'] else []) ++ (Nat.toDigits 10 number ++ rest)) =
      .ok (wholeNumber negative number, rest) := by
  have leading : ¬((digitValues number).head? = some 0 ∧ 1 < (digitValues number).length) := by
    rintro ⟨zero, long⟩
    by_cases positive : 0 < number
    · exact head?_digitValues number positive zero
    · obtain rfl : number = 0 := by omega
      simp [digitValues] at long
  have sign : (((if negative then ['-'] else []) ++ (Nat.toDigits 10 number ++ rest)).head? ==
      some '-') = negative := by
    obtain ⟨first, others, shown⟩ :=
      List.exists_cons_of_ne_nil (Nat.toDigits_ne_nil : Nat.toDigits 10 number ≠ [])
    have digit : first.isDigit = true := isDigit_of_mem (shown ▸ List.mem_cons_self)
    cases negative with
    | true => rfl
    | false =>
        rw [shown]
        simp only [Bool.false_eq_true, ↓reduceIte, List.nil_append, List.cons_append,
          List.head?_cons, Option.some_beq_some, beq_eq_false_iff_ne]
        rintro rfl
        exact absurd digit (by decide)
  have whole := run_someDigits number rest ends
  have gathered := gather_digitValues number fits
  simp only [readNumber, StateT.run_bind, run_head?, ok_bind, sign]
  cases negative <;> simp [run_advance, whole, leading, run_fractionPart rest ends,
    run_exponentPart rest ends, gathered]

/-- An integer that 64 bits can hold is read back. -/
theorem run_readNumber (value : Int) (rest : List Char) (ends : EndsNumber rest)
    (least : -Nat.pow 2 63 ≤ value) (greatest : value < UInt64.size) :
    readNumber.run ((toString value).toList ++ rest) = .ok (.integer value, rest) := by
  have size : (UInt64.size : Int) = 18446744073709551616 := rfl
  have half : ((Nat.pow 2 63 : Nat) : Int) = 9223372036854775808 := rfl
  rw [Int.toString_eq_repr, Int.repr_eq_if]
  by_cases sign : 0 ≤ value
  · have read := run_unsigned false value.toNat rest ends (by omega)
    have whole : wholeNumber false value.toNat = .integer value := by
      simp [wholeNumber, Int.toNat_of_nonneg sign]
    rw [whole] at read
    simpa [sign, Nat.repr_eq_ofList_toDigits] using read
  · have read := run_unsigned true (-value).toNat rest ends (by omega)
    have whole : wholeNumber true (-value).toNat = .integer value := by
      have within : 0 < (-value).toNat ∧ (-value).toNat ≤ Nat.pow 2 63 := by omega
      rw [wholeNumber, if_neg (by decide), if_pos within]
      congr 1
      omega
    rw [whole] at read
    simpa [sign, Nat.repr_eq_ofList_toDigits] using read

end ParseView.Json
