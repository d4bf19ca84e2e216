import Mathlib.Data.Nat.Log
import ParseView.Proofs.Blocks
import ParseView.Proofs.Leaves

/-! The margin of a tree drawing is equally wide on every line: its fields have room for every
position that is shown. -/

namespace ParseView

open Picture

namespace Gutter

theorem log10_eq (number : Nat) : log10 number = Nat.log 10 number := by
  induction number using log10.induct with
  | case1 number small => rw [log10, if_pos small, Nat.log_of_lt small]
  | case2 number large ih =>
      rw [log10, if_neg large, ih, Nat.log_of_one_lt_of_le (by decide) (Nat.le_of_not_lt large)]

theorem digitCount_eq_log (number : UInt32) :
    digitCount number = Nat.log 10 number.toNat + 1 := by
  rw [digitCount, log10?]
  split
  · rename_i shown
    split at shown
    · simp at shown
    · rw [← Option.some.inj shown, log10_eq]
  · rename_i shown
    split at shown
    · rename_i zero
      simp [zero]
    · simp at shown

/-- A field is as wide as the number that is printed in it. -/
theorem digitCount_eq (number : UInt32) :
    digitCount number = (Nat.toDigits 10 number.toNat).length := by
  rw [digitCount_eq_log]
  by_cases zero : number.toNat = 0
  · simp [zero]
  · have fits (width : Nat) (positive : 0 < width) :
        (Nat.toDigits 10 number.toNat).length ≤ width ↔ Nat.log 10 number.toNat + 1 ≤ width := by
      rw [Nat.length_toDigits_le_iff (by decide) positive, Nat.add_one_le_iff,
        Nat.log_lt_iff_lt_pow (by decide) zero]
    exact Nat.le_antisymm ((fits _ Nat.length_toDigits_pos).mp le_rfl)
      ((fits _ (Nat.succ_pos _)).mpr le_rfl)

structure Holds (gutter : Gutter) (position : Position) : Prop where
  line : digitCount position.line ≤ gutter.lineDigits
  column : digitCount position.column ≤ gutter.columnDigits

theorem Holds.widen {gutter : Gutter} {position : Position} (holds : gutter.Holds position)
    (other : Position) : (gutter.widen other).Holds position :=
  ⟨Nat.le_trans holds.line (Nat.le_max_left _ _), Nat.le_trans holds.column (Nat.le_max_left _ _)⟩

theorem widen_holds (gutter : Gutter) (position : Position) :
    (gutter.widen position).Holds position :=
  ⟨Nat.le_max_right _ _, Nat.le_max_right _ _⟩

theorem foldl_widen_holds (positions : List Position) (gutter : Gutter) (position : Position)
    (covered : gutter.Holds position ∨ position ∈ positions) :
    (positions.foldl widen gutter).Holds position := by
  induction positions generalizing gutter with
  | nil => simpa using covered
  | cons first rest ih =>
      apply ih
      rcases covered with holds | member
      · exact .inl (holds.widen first)
      · rcases List.mem_cons.mp member with rfl | later
        · exact .inl (gutter.widen_holds position)
        · exact .inr later

theorem fit_holds (tree : Tree) (matched : Leaf) (position : Position)
    (member : matched ∈ tree.leaves) (placed : matched.position = some position) :
    (fit tree).Holds position :=
  foldl_widen_holds _ _ _ (.inr (List.mem_filterMap.mpr ⟨matched, member, placed⟩))

theorem toList_positionText (gutter : Gutter) (position : Position) :
    (gutter.positionText position).toList =
      '(' :: List.replicate (gutter.lineDigits - digitCount position.line) ' ' ++
        Nat.toDigits 10 position.line.toNat ++ ':' :: Nat.toDigits 10 position.column.toNat ++
        List.replicate (gutter.columnDigits - digitCount position.column) ' ' ++ [')', ' '] := by
  simp [positionText, digitCount_eq]

theorem length_positionText (gutter : Gutter) (position : Position)
    (holds : gutter.Holds position) :
    (gutter.positionText position).toList.length = gutter.width := by
  have line := holds.line
  have column := holds.column
  rw [toList_positionText]
  simp only [List.length_append, List.length_cons, List.length_replicate, List.length_nil,
    ← digitCount_eq, width]
  omega

theorem isNarrow_of_mem_positionText (gutter : Gutter) (position : Position) :
    ∀ character ∈ (gutter.positionText position).toList, IsNarrow character := by
  intro character member
  rw [toList_positionText] at member
  simp only [List.mem_append, List.mem_cons, List.mem_replicate, List.not_mem_nil,
    or_false] at member
  rcases member with ((((rfl | ⟨_, rfl⟩) | digit) | (rfl | digit)) | ⟨_, rfl⟩) | (rfl | rfl)
  · decide
  · decide
  · exact isNarrow_of_mem_toDigits digit
  · decide
  · exact isNarrow_of_mem_toDigits digit
  · decide
  · decide
  · decide

theorem newline_not_mem_margin (fill : Connector → Char) (gutter : Option Gutter)
    (shown : Option Position) : '\n' ∉ (Tree.margin gutter shown).characters fill := by
  cases gutter with
  | none => simp [Tree.margin]
  | some gutter =>
      cases shown with
      | none => simp [Tree.margin, pieces, Piece.characters]
      | some position =>
          intro member
          simp only [Tree.margin, pieces, characters_cons, characters_nil, List.append_nil,
            Piece.characters] at member
          exact absurd (gutter.isNarrow_of_mem_positionText position _ member) (by decide)

theorem newline_piece_not_mem_margin (gutter : Option Gutter) (shown : Option Position) :
    .newline ∉ Tree.margin gutter shown := by
  cases gutter with
  | none => simp [Tree.margin]
  | some gutter => cases shown <;> simp [Tree.margin, pieces]

theorem width_margin [TextWidth] (gutter : Gutter) (shown : Option Position)
    (holds : ∀ position, shown = some position → gutter.Holds position) :
    Picture.width (Tree.margin (some gutter) shown) = gutter.width := by
  cases shown with
  | none => rfl
  | some position =>
      have columns := displayWidth_of_narrow _ (gutter.isNarrow_of_mem_positionText position)
      rw [gutter.length_positionText position (holds position rfl)] at columns
      simpa [Tree.margin, pieces, Piece.width] using columns

end Gutter

namespace Tree

variable (policy : InlinePolicy)

theorem exists_leaf_of_mem_block [TextWidth] (tree : Tree) :
    ∀ line ∈ (block policy tree).lines, ∀ position, line.position = some position →
      ∃ matched ∈ tree.leaves, matched.position = some position := by
  refine forall_line_block policy (fun tree line => ∀ position, line.position = some position →
    ∃ matched ∈ tree.leaves, matched.position = some position) ?_ ?_ ?_ ?_ ?_ tree
  · exact fun matched => exists_leaf_of_position (leaf matched)
  · exact fun label children => exists_leaf_of_position (node label children)
  · exact fun label children => exists_leaf_of_position (node label children)
  · simp
  · intro label children child lead line among _ below position placed
    obtain ⟨matched, member, placed⟩ := below position placed
    rw [leaves_eq_leavesBelow] at member ⊢
    exact ⟨matched, by simpa using ⟨child, among, member⟩, placed⟩

theorem exists_leaf_of_mem_lines [TextWidth] (root : Tree) :
    ∀ line ∈ root.lines policy, ∀ position, line.position = some position →
      ∃ matched ∈ root.leaves, matched.position = some position := by
  cases root with
  | leaf matched =>
      intro line member position placed
      rw [List.mem_singleton.mp member] at placed
      exact exists_leaf_of_position (leaf matched) position placed
  | node label children => exact exists_leaf_of_mem_block policy (node label children)

def marginWidth (style : TreeStyle) (root : Tree) : Nat :=
  if style.positions then (Gutter.fit root).width else 0

theorem width_margin_of_mem_lines [TextWidth] (style : TreeStyle) (root : Tree) :
    ∀ line ∈ root.lines style.policy,
      Picture.width (margin (root.gutterOf style) line.position) = root.marginWidth style := by
  intro line member
  cases shown : style.positions with
  | false => simp [gutterOf, marginWidth, shown, margin]
  | true =>
      simp only [gutterOf, marginWidth, shown, ↓reduceIte]
      apply Gutter.width_margin
      intro position placed
      obtain ⟨matched, among, placed⟩ :=
        exists_leaf_of_mem_lines style.policy root line member position placed
      exact Gutter.fit_holds root matched position among placed

theorem lines_picture [TextWidth] (style : TreeStyle) (root : Tree) :
    (root.picture style).lines =
      (root.lines style.policy).map (BlockLine.row (root.gutterOf style)) := by
  rw [picture_eq_ofLines, lines_ofLines]
  intro row member
  obtain ⟨line, among, rfl⟩ := List.mem_map.mp member
  rw [BlockLine.row, List.mem_append, not_or]
  exact ⟨Gutter.newline_piece_not_mem_margin _ _,
    newline_piece_not_mem_lines style.policy root line among⟩

theorem ofLines_lines_picture [TextWidth] (style : TreeStyle) (root : Tree) :
    ofLines (root.picture style).lines = root.picture style := by
  rw [lines_picture, ← picture_eq_ofLines]

/-- Where nothing that is drawn holds a line end, the drawn text splits into the lines of the
drawing. -/
theorem splitOn_draw [TextWidth] {glyphs : Glyphs} (plainGlyphs : glyphs.SingleLine)
    (style : TreeStyle) (root : Tree) (plain : root.SingleLine) :
    (root.draw glyphs style).toList.splitOn '\n' =
      (root.picture style).lines.map (characters glyphs.connector) ++ [[]] := by
  rw [draw, toList_draw, ← ofLines_lines_picture, splitOn_characters_ofLines, ofLines_lines_picture]
  rw [lines_picture]
  intro row member
  obtain ⟨line, among, rfl⟩ := List.mem_map.mp member
  rw [BlockLine.row, characters_append, List.mem_append, not_or]
  exact ⟨Gutter.newline_not_mem_margin _ _ _,
    newline_not_mem_lines plainGlyphs style.policy root plain line among⟩

end Tree

end ParseView
