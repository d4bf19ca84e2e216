/-! The number of terminal columns that a text takes up. How wide a character is, and which
characters are drawn as one, is not settled here: a drawing takes the measure as it is given. -/

namespace ParseView

/-- A printable ASCII character. -/
def IsNarrow (character : Char) : Prop :=
  0x20 ≤ character.toNat ∧ character.toNat < 0x7F

instance (character : Char) : Decidable (IsNarrow character) :=
  inferInstanceAs (Decidable (0x20 ≤ character.toNat ∧ character.toNat < 0x7F))

theorem isNarrow_of_isDigit {character : Char} (digit : character.isDigit = true) :
    IsNarrow character := by
  simp only [Char.isDigit, Bool.and_eq_true, decide_eq_true_eq, ge_iff_le,
    UInt32.le_iff_toNat_le] at digit
  exact ⟨Nat.le_trans (by decide) digit.1, Nat.lt_of_le_of_lt digit.2 (by decide)⟩

theorem isNarrow_of_mem_toDigits {number : Nat} {character : Char}
    (member : character ∈ Nat.toDigits 10 number) : IsNarrow character :=
  isNarrow_of_isDigit (Nat.isDigit_of_mem_toDigits (by decide) (by decide) member)

/-- A measure of texts in columns. All that a drawing relies on is that printable ASCII takes up
one column for each character. -/
class TextWidth where
  displayWidth : String → Nat
  displayWidth_of_narrow : ∀ text : String, (∀ character ∈ text.toList, IsNarrow character) →
    displayWidth text = text.toList.length

export TextWidth (displayWidth displayWidth_of_narrow)

@[simp] theorem displayWidth_empty [TextWidth] : displayWidth "" = 0 :=
  displayWidth_of_narrow "" (by simp)

namespace OneColumnEach

/-- The measure that gives every character one column. -/
scoped instance measure : TextWidth where
  displayWidth text := text.toList.length
  displayWidth_of_narrow _ _ := rfl

end OneColumnEach

end ParseView
