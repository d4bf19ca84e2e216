import ParseView.Picture

/-! Drawings line by line: how a drawing splits into lines, and what stands in the display
columns of a line. -/

namespace ParseView

variable {Slot : Type}

namespace Picture

def ofLines (lines : List (Picture Slot)) : Picture Slot :=
  lines.flatMap (· ++ [.newline])

/-- What stands before each line end. Pieces after the last one belong to no line. -/
def lines : Picture Slot → List (Picture Slot)
  | [] => []
  | .newline :: rest => [] :: lines rest
  | piece :: rest =>
      match lines rest with
      | [] => []
      | line :: others => (piece :: line) :: others

@[simp] theorem ofLines_nil : ofLines ([] : List (Picture Slot)) = [] := rfl

@[simp] theorem ofLines_cons (line : Picture Slot) (rest : List (Picture Slot)) :
    ofLines (line :: rest) = line ++ .newline :: ofLines rest := by
  simp [ofLines]

@[simp] theorem ofLines_append (first second : List (Picture Slot)) :
    ofLines (first ++ second) = ofLines first ++ ofLines second := by
  simp [ofLines]

theorem lines_append_newline (line rest : Picture Slot) (unbroken : .newline ∉ line) :
    lines (line ++ .newline :: rest) = line :: lines rest := by
  induction line with
  | nil => rfl
  | cons piece line ih =>
      simp only [List.mem_cons, not_or] at unbroken
      have tail := ih unbroken.2
      cases piece with
      | newline => exact absurd rfl unbroken.1
      | glyph slot => simp [lines, tail]
      | text content => simp [lines, tail]
      | blank count => simp [lines, tail]

theorem lines_ofLines (parts : List (Picture Slot)) (unbroken : ∀ line ∈ parts, .newline ∉ line) :
    lines (ofLines parts) = parts := by
  induction parts with
  | nil => rfl
  | cons line rest ih =>
      rw [ofLines_cons, lines_append_newline line _ (unbroken line (by simp)),
        ih (fun other member => unbroken other (by simp [member]))]

theorem characters_ofLines_cons (fill : Slot → Char) (line : Picture Slot)
    (rest : List (Picture Slot)) :
    characters fill (ofLines (line :: rest)) =
      characters fill line ++ '\n' :: characters fill (ofLines rest) := by
  simp [Piece.characters]

theorem characters_ofLines (fill : Slot → Char) (parts : List (Picture Slot)) :
    characters fill (ofLines parts) = parts.flatMap fun line => characters fill line ++ ['\n'] := by
  induction parts with
  | nil => rfl
  | cons line rest ih =>
      rw [characters_ofLines_cons, ih, List.flatMap_cons, List.append_assoc]
      rfl

theorem splitOn_characters_ofLines (fill : Slot → Char) (parts : List (Picture Slot))
    (plain : ∀ line ∈ parts, '\n' ∉ characters fill line) :
    (characters fill (ofLines parts)).splitOn '\n' = parts.map (characters fill) ++ [[]] := by
  induction parts with
  | nil => simp
  | cons line rest ih =>
      rw [characters_ofLines_cons,
        List.splitOn_append_cons_self_of_not_mem (plain line (by simp)),
        ih (fun other member => plain other (by simp [member]))]
      rfl

theorem count_newline_ofLines (fill : Slot → Char) (parts : List (Picture Slot))
    (plain : ∀ line ∈ parts, '\n' ∉ characters fill line) :
    (characters fill (ofLines parts)).count '\n' = parts.length := by
  induction parts with
  | nil => rfl
  | cons line rest ih =>
      have others := ih (fun other member => plain other (by simp [member]))
      rw [characters_ofLines_cons, List.count_append, List.count_cons_self, others,
        List.count_eq_zero.mpr (plain line (by simp)), List.length_cons]
      omega

theorem characters_replicate_glyph (fill : Slot → Char) (count : Nat) (slot : Slot) :
    characters fill (List.replicate count (.glyph slot)) = List.replicate count (fill slot) := by
  induction count with
  | zero => rfl
  | succ count ih => simp [List.replicate_succ, ih, Piece.characters]

variable [TextWidth]

@[simp] theorem width_nil : width ([] : Picture Slot) = 0 := rfl

@[simp] theorem width_cons (piece : Piece Slot) (rest : Picture Slot) :
    width (piece :: rest) = piece.width + width rest := rfl

@[simp] theorem width_append (first second : Picture Slot) :
    width (first ++ second) = width first + width second := by
  induction first with
  | nil => simp
  | cons piece rest ih => simp [ih, Nat.add_assoc]

theorem width_replicate_glyph (count : Nat) (slot : Slot) :
    width (List.replicate count (.glyph slot)) = count := by
  induction count with
  | zero => rfl
  | succ count ih => simp [List.replicate_succ, ih, Piece.width, Nat.add_comm]

/-- The glyph of a place stands in a display column of a line: the pieces before it are as wide
as the columns before it. -/
def GlyphAt (line : Picture Slot) (column : Nat) (slot : Slot) : Prop :=
  ∃ before after, line = before ++ .glyph slot :: after ∧ width before = column

def BlankAt (line : Picture Slot) (column : Nat) : Prop :=
  ∃ before count after, line = before ++ .blank count :: after ∧
    width before ≤ column ∧ column < width before + count

end Picture

end ParseView
