import Mathlib.Data.List.Forall2
import ParseView.Proofs.Margins

/-! The connectors of a tree drawing line up: every glyph stands under the one that it continues,
however wide the labels before it are. -/

namespace ParseView

open Picture

namespace InlinePolicy

def firstGlyph (policy : InlinePolicy) : Tree → Connector
  | .leaf _ => .leaf
  | .node _ children => if policy.shape children = .framed then .frameOpen else .leaf

end InlinePolicy

namespace Tree

variable (policy : InlinePolicy)

mutual
/-- `Aligned policy tree column rows`: the drawing of the tree takes up the whole lines `rows`, from
`column` of the first one on, and its connectors line up. -/
inductive Aligned [TextWidth] : Tree → Nat → List (Picture Connector) → Prop
  | leaf {matched column row} : Aligned (.leaf matched) column [row]
  | production {label children column row} :
      policy.shape children = .production → Aligned (.node label children) column [row]
  | inlined {label only column first later} :
      policy.shape [only] = .inlined → GlyphAt first column .leaf →
      GlyphAt first (column + displayWidth label + 2) (policy.firstGlyph only) →
      (∀ row ∈ later, ∀ between, column ≤ between → between < column + displayWidth label + 2 →
        BlankAt row between) →
      Aligned only (column + displayWidth label + 2) (first :: later) →
      Aligned (.node label [only]) column (first :: later)
  | framed {label children column head edge rows} :
      policy.shape children = .framed → GlyphAt head column .frameOpen →
      GlyphAt edge column .frameLeft → GlyphAt edge (column + 1) .frameBranch →
      AlignedBranches children column rows →
      Aligned (.node label children) column (head :: edge :: rows)

inductive AlignedBranches [TextWidth] : List Tree → Nat → List (Picture Connector) → Prop
  | last {child column first later} :
      GlyphAt first (column + 1) .last → GlyphAt first (column + 2) (policy.firstGlyph child) →
      (∀ row ∈ later, BlankAt row column ∧ BlankAt row (column + 1)) →
      Aligned child (column + 2) (first :: later) →
      AlignedBranches [child] column (first :: later)
  | middle {child next rest column first later rows} :
      GlyphAt first (column + 1) .middle → GlyphAt first (column + 2) (policy.firstGlyph child) →
      (∀ row ∈ later, GlyphAt row (column + 1) .vertical) →
      Aligned child (column + 2) (first :: later) →
      AlignedBranches (next :: rest) column rows →
      AlignedBranches (child :: next :: rest) column (first :: later ++ rows)
end

end Tree

def Shows [TextWidth] (columns : Nat) (row : Picture Connector) (line : BlockLine) : Prop :=
  ∃ lead, row = lead ++ line.pieces ∧ Picture.width lead = columns

namespace Shows

variable {columns : Nat} {row : Picture Connector} {line : BlockLine}

theorem glyphAt [TextWidth] (shown : Shows columns row line) (before after : Picture Connector)
    (connector : Connector) (split : line.pieces = before ++ .glyph connector :: after) :
    GlyphAt row (columns + Picture.width before) connector := by
  obtain ⟨lead, rfl, wide⟩ := shown
  exact ⟨lead ++ before, after, by simp [split], by simp [wide]⟩

theorem blankAt [TextWidth] (shown : Shows columns row line) (count column : Nat)
    (after : Picture Connector)
    (split : line.pieces = .blank count :: after) (lower : columns ≤ column)
    (upper : column < columns + count) : BlankAt row column := by
  obtain ⟨lead, rfl, rfl⟩ := shown
  exact ⟨lead, count, after, by simp [split], lower, upper⟩

theorem of_indent [TextWidth] {lead : Picture Connector}
    (shown : Shows columns row (line.indent lead)) :
    Shows (columns + Picture.width lead) row line := by
  obtain ⟨before, rfl, wide⟩ := shown
  exact ⟨before ++ lead, by simp, by simp [wide]⟩

end Shows

theorem Block.forall₂_hang [TextWidth] {columns indent : Nat} {block : Block}
    {rows : List (Picture Connector)} (head tail : Picture Connector)
    (sameHead : Picture.width head = indent) (sameTail : Picture.width tail = indent)
    (shown : List.Forall₂ (Shows columns) rows (block.hang head tail).lines) :
    ∃ first later, rows = first :: later ∧
      Shows columns first (block.first.indent head) ∧
      (∀ row ∈ later, ∃ line, Shows columns row (BlockLine.indent tail line)) ∧
      List.Forall₂ (Shows (columns + indent)) (first :: later) block.lines := by
  obtain ⟨first, later, here, below, rfl⟩ := List.forall₂_cons_right_iff.mp shown
  have both : List.Forall₂
      (fun row line => (∃ line, Shows columns row (BlockLine.indent tail line)) ∧
        Shows (columns + indent) row line) later block.later :=
    (List.forall₂_map_right_iff.mp below).imp fun _ line shown =>
      ⟨⟨line, shown⟩, sameTail ▸ shown.of_indent⟩
  obtain ⟨tails, inner⟩ := (List.forall₂_and_left _ _).mp both
  exact ⟨first, later, rfl, here, tails, .cons (sameHead ▸ here.of_indent) inner⟩

namespace Tree

theorem exists_first_block [TextWidth] (policy : InlinePolicy) (tree : Tree) :
    ∃ rest, (block policy tree).first.pieces = .glyph (policy.firstGlyph tree) :: rest := by
  cases tree with
  | leaf matched => exact ⟨_, rfl⟩
  | node label children =>
      cases shape : policy.shape children with
      | production =>
          rw [block_of_production policy shape]
          exact ⟨_, by simp [productionLine, InlinePolicy.firstGlyph, shape]; rfl⟩
      | inlined =>
          obtain ⟨only, rfl⟩ := InlinePolicy.exists_only_of_inlined shape
          rw [block_of_inlined policy shape]
          exact ⟨_, by simp [Block.hang, InlinePolicy.firstGlyph, shape]; rfl⟩
      | framed =>
          rw [block_of_framed policy shape]
          exact ⟨_, by simp [frameHead, InlinePolicy.firstGlyph, shape]; rfl⟩

def ShowsAligned [TextWidth] (policy : InlinePolicy) (tree : Tree) : Prop :=
  ∀ column rows, List.Forall₂ (Shows column) rows (block policy tree).lines →
    Aligned policy tree column rows

theorem alignedBranches_of_shows [TextWidth] {policy : InlinePolicy} (children : List Tree)
    (each : ∀ child ∈ children, ShowsAligned policy child) (nonempty : children ≠ [])
    (column : Nat) (rows : List (Picture Connector))
    (shown : List.Forall₂ (Shows column) rows (Block.branched (children.map (block policy)))) :
    AlignedBranches policy children column rows := by
  induction children generalizing rows with
  | nil => exact absurd rfl nonempty
  | cons child rest ih =>
      have childAligned := each child (by simp)
      obtain ⟨more, starts⟩ := exists_first_block policy child
      cases rest with
      | nil =>
          obtain ⟨first, later, rfl, head, tails, inner⟩ :=
            Block.forall₂_hang [.blank 1, .glyph .last] [.blank 2] rfl rfl shown
          refine .last (head.glyphAt [.blank 1] _ _ rfl) ?_ ?_ (childAligned _ _ inner)
          · exact head.glyphAt [.blank 1, .glyph .last] more _ (by simp [starts])
          · intro row member
            obtain ⟨line, tail⟩ := tails row member
            exact ⟨tail.blankAt 2 _ _ rfl (by omega) (by omega),
              tail.blankAt 2 _ _ rfl (by omega) (by omega)⟩
      | cons next rest =>
          -- The rows of this child come first; those of its siblings are what the induction is on.
          have own := List.forall₂_take_append rows _ _ shown
          have others := List.forall₂_drop_append rows _ _ shown
          obtain ⟨first, later, taken, head, tails, inner⟩ :=
            Block.forall₂_hang [.blank 1, .glyph .middle] [.blank 1, .glyph .vertical] rfl rfl own
          rw [← List.take_append_drop _ rows, taken]
          refine .middle (head.glyphAt [.blank 1] _ _ rfl) ?_ ?_ (childAligned _ _ inner) ?_
          · exact head.glyphAt [.blank 1, .glyph .middle] more _ (by simp [starts])
          · intro row member
            obtain ⟨line, tail⟩ := tails row member
            exact tail.glyphAt [.blank 1] _ _ rfl
          · exact ih (fun other member => each other (by simp [member])) (by simp) _ others

theorem showsAligned [TextWidth] (policy : InlinePolicy) (tree : Tree) :
    ShowsAligned policy tree := by
  -- `ShowsAligned` holds at every column, since a child starts further right than its parent.
  induction tree with
  | leaf matched =>
      intro column rows shown
      obtain ⟨row, _, _, none, rfl⟩ := List.forall₂_cons_right_iff.mp shown
      rw [List.forall₂_nil_right_iff.mp none]
      exact .leaf
  | node label children ih =>
      intro column rows shown
      cases shape : policy.shape children with
      | production =>
          rw [block_of_production policy shape] at shown
          obtain ⟨row, _, _, none, rfl⟩ := List.forall₂_cons_right_iff.mp shown
          rw [List.forall₂_nil_right_iff.mp none]
          exact .production shape
      | inlined =>
          obtain ⟨only, rfl⟩ := InlinePolicy.exists_only_of_inlined shape
          rw [block_of_inlined policy shape] at shown
          obtain ⟨more, starts⟩ := exists_first_block policy only
          have headWidth : Picture.width ([.glyph .leaf, .text label, .glyph .oneChild] :
              Picture Connector) = displayWidth label + 2 := by
            simp [Piece.width]
            omega
          obtain ⟨first, later, rfl, head, tails, inner⟩ :=
            Block.forall₂_hang _ [.blank (displayWidth label + 2)] headWidth rfl shown
          refine .inlined shape (head.glyphAt [] _ _ rfl) ?_ ?_ (ih only (by simp) _ _ inner)
          · rw [Nat.add_assoc, ← headWidth]
            exact head.glyphAt _ more _ (by simp [starts])
          · intro row member between lower upper
            obtain ⟨line, tail⟩ := tails row member
            exact tail.blankAt _ between _ rfl lower (by omega)
      | framed =>
          rw [block_of_framed policy shape] at shown
          obtain ⟨head, _, opened, below, rfl⟩ := List.forall₂_cons_right_iff.mp shown
          obtain ⟨edge, branches, edged, branched, rfl⟩ := List.forall₂_cons_right_iff.mp below
          have nonempty : children ≠ [] := by
            rintro rfl
            simp [InlinePolicy.shape] at shape
          refine .framed shape (opened.glyphAt [] _ _ rfl) (edged.glyphAt [] _ _ rfl) ?_ ?_
          · exact edged.glyphAt [.glyph .frameLeft] _ _ rfl
          · exact alignedBranches_of_shows children ih nonempty column branches branched

theorem forall₂_shows_lines [TextWidth] (style : TreeStyle) (root : Tree) :
    List.Forall₂ (Shows (root.marginWidth style)) (root.picture style).lines
      (root.lines style.policy) := by
  rw [lines_picture, List.forall₂_map_left_iff, List.forall₂_same]
  intro line member
  exact ⟨margin (root.gutterOf style) line.position, rfl,
    width_margin_of_mem_lines style root line member⟩

/-- The drawn text splits into the lines of the drawing, and from the columns after the margin on
the connectors of all trees in it line up. -/
theorem aligned_lines_picture [TextWidth] (glyphs : Glyphs) (style : TreeStyle) (root : Tree)
    (plainGlyphs : glyphs.SingleLine) (plain : root.SingleLine) :
    (root.draw glyphs style).toList.splitOn '\n' =
        (root.picture style).lines.map (characters glyphs.connector) ++ [[]] ∧
      Aligned style.policy root (root.marginWidth style) (root.picture style).lines := by
  refine ⟨splitOn_draw plainGlyphs style root plain, ?_⟩
  cases root with
  | leaf matched =>
      rw [lines_picture]
      exact .leaf
  | node label children =>
      exact showsAligned style.policy _ _ _ (forall₂_shows_lines style (node label children))

section

open scoped OneColumnEach

theorem aligned_lines_inlined_frame :
    let root := node "stmt" [node "expr" [leaf ⟨"1", some ⟨1, 0⟩⟩, node "none" []]]
    Glyphs.ascii.SingleLine ∧ root.SingleLine ∧
      (root.draw .ascii ⟨.always, true⟩).toList.splitOn '\n' =
        (root.picture ⟨.always, true⟩).lines.map (characters Glyphs.ascii.connector) ++ [[]] ∧
      Aligned .always root (root.marginWidth ⟨.always, true⟩)
        (root.picture ⟨.always, true⟩).lines := by
  intro root
  have plain : root.SingleLine := by decide
  exact ⟨Glyphs.ascii_singleLine, plain,
    aligned_lines_picture .ascii ⟨.always, true⟩ root Glyphs.ascii_singleLine plain⟩

end

end Tree

end ParseView
