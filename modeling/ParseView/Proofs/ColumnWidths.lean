import Mathlib.Data.List.Forall2
import ParseView.Token.Table

/-! The measured widths of a table's columns have room for every cell of every row. -/

namespace ParseView

variable [TextWidth]

namespace ColumnWidths

def Fits (widths : ColumnWidths) (row : Row) : Prop :=
  List.Forall₂ (fun width cell => displayWidth cell ≤ width) widths row

theorem Fits.length_eq {widths : ColumnWidths} {row : Row} (fits : widths.Fits row) :
    row.length = widths.length :=
  (List.Forall₂.length_eq fits).symm

theorem Fits.displayWidth_le {widths : ColumnWidths} {row : Row} (fits : widths.Fits row)
    {column width : Nat} {cell : String} (measured : widths[column]? = some width)
    (filled : row[column]? = some cell) : displayWidth cell ≤ width := by
  obtain ⟨columnBound, rfl⟩ := List.getElem?_eq_some_iff.mp measured
  obtain ⟨cellBound, rfl⟩ := List.getElem?_eq_some_iff.mp filled
  exact List.Forall₂.get fits columnBound cellBound

theorem ofHeader_fits (header : Row) : (ofHeader header).Fits header := by
  rw [Fits, ofHeader, List.forall₂_map_left_iff, List.forall₂_same]
  exact fun cell _ => Nat.le_refl (displayWidth cell)

theorem length_grow {widths : ColumnWidths} {row : Row} (even : row.length = widths.length) :
    (widths.grow row).length = widths.length := by
  induction widths generalizing row with
  | nil =>
      cases row with
      | nil => rfl
      | cons cell cells => simp at even
  | cons width widths ih =>
      cases row with
      | nil => rfl
      | cons cell cells =>
          simp only [List.length_cons, Nat.add_right_cancel_iff] at even
          simp [grow, ih even]

theorem grow_fits {widths : ColumnWidths} {row : Row} (even : row.length = widths.length) :
    (widths.grow row).Fits row := by
  induction widths generalizing row with
  | nil =>
      cases row with
      | nil => exact .nil
      | cons cell cells => simp at even
  | cons width widths ih =>
      cases row with
      | nil => simp at even
      | cons cell cells =>
          simp only [List.length_cons, Nat.add_right_cancel_iff] at even
          exact .cons (Nat.le_max_right _ _) (ih even)

theorem Fits.grow {widths : ColumnWidths} {row : Row} (fits : widths.Fits row) {other : Row}
    (even : other.length = widths.length) : (widths.grow other).Fits row := by
  induction fits generalizing other with
  | nil =>
      rw [List.length_eq_zero_iff.mp even]
      exact .nil
  | cons here _ ih =>
      cases other with
      | nil => simp at even
      | cons cell cells =>
          simp only [List.length_cons, Nat.add_right_cancel_iff] at even
          exact .cons (Nat.le_trans here (Nat.le_max_left _ _)) (ih even)

theorem foldl_grow_fits (rows : List Row) (widths : ColumnWidths) (row : Row)
    (even : ∀ other ∈ rows, other.length = widths.length)
    (covered : widths.Fits row ∨ row ∈ rows) : (rows.foldl ColumnWidths.grow widths).Fits row := by
  -- A row fits from the step on that measures it, since no step makes a column narrower.
  induction rows generalizing widths with
  | nil => simpa using covered
  | cons first rest ih =>
      have same := length_grow (even first (by simp))
      apply ih
      · intro other member
        rw [same]
        exact even other (by simp [member])
      · rcases covered with fits | member
        · exact .inl (fits.grow (even first (by simp)))
        · rcases List.mem_cons.mp member with rfl | later
          · exact .inl (grow_fits (even row (by simp)))
          · exact .inr later

/-- Where all rows are as long as the header, the header and all rows fit. -/
theorem ofRows_fits (header : Row) (rows : List Row)
    (even : ∀ row ∈ rows, row.length = header.length) :
    ∀ row ∈ header :: rows, (ofRows header rows).Fits row := by
  intro row member
  apply foldl_grow_fits
  · simpa [ofHeader] using even
  · rcases List.mem_cons.mp member with rfl | later
    · exact .inl (ofHeader_fits row)
    · exact .inr later

end ColumnWidths

end ParseView
