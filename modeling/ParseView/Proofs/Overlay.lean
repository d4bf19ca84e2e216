import ParseView.Proofs.Composition

/-! A drawing with positions is the drawing without them behind a margin. The margin is equally
wide on all lines, and shows where the tree that starts on the line stands in the source. -/

namespace ParseView

open Picture

namespace Gutter

theorem foldl_widen (positions : List Position) (gutter : Gutter) :
    positions.foldl widen gutter =
      ⟨(positions.map fun position => Nat.log 10 position.line.toNat + 1).foldl max
          gutter.lineDigits,
        (positions.map fun position => Nat.log 10 position.column.toNat + 1).foldl max
          gutter.columnDigits⟩ := by
  induction positions generalizing gutter with
  | nil => rfl
  | cons position rest ih => simp [ih, widen, digitCount_eq_log]

end Gutter

namespace Block

theorem map_position_hang (head tail : Picture Connector) (block : Block) :
    (block.hang head tail).lines.map BlockLine.position =
      block.lines.map BlockLine.position := by
  simp [hang, lines, Function.comp_def]

theorem map_position_branched (blocks : List Block) :
    (branched blocks).map BlockLine.position =
      blocks.flatMap fun block => block.lines.map BlockLine.position := by
  induction blocks with
  | nil => rfl
  | cons block rest ih =>
      cases rest with
      | nil => simp [branched, map_position_hang]
      | cons next rest =>
          rw [branched, List.map_append, map_position_hang, List.flatMap_cons, ih]

end Block

namespace Tree

def leafPositions (root : Tree) : List Position :=
  root.leavesBelow.filterMap Leaf.position

def lineField (root : Tree) : Nat :=
  (root.leafPositions.map fun position => Nat.log 10 position.line.toNat + 1).foldl max 4

def columnField (root : Tree) : Nat :=
  (root.leafPositions.map fun position => Nat.log 10 position.column.toNat + 1).foldl max 3

def marginText (root : Tree) : Option Position → List Char
  | some position =>
      '(' :: (Nat.toDigits 10 position.line.toNat).leftpad root.lineField ' ' ++
        ':' :: (Nat.toDigits 10 position.column.toNat).rightpad root.columnField ' ' ++ [')', ' ']
  | none => List.replicate (root.lineField + root.columnField + 4) ' '

mutual
/-- The tree that starts on each line: the root or a child of a framed node. On the lower edge of
a frame no tree starts. -/
def startingTrees (policy : InlinePolicy) : Tree → List (Option Tree)
  | leaf matched => [some (leaf matched)]
  | node label children =>
      match policy.shape children with
      | .production => [some (node label children)]
      | .inlined => some (node label children) :: (forestStartingTrees policy children).tail
      | .framed => some (node label children) :: none :: forestStartingTrees policy children

def forestStartingTrees (policy : InlinePolicy) : List Tree → List (Option Tree)
  | [] => []
  | first :: rest => startingTrees policy first ++ forestStartingTrees policy rest
end

theorem fit_eq (root : Tree) : Gutter.fit root = ⟨root.lineField, root.columnField⟩ := by
  rw [Gutter.fit, leaves_eq_leavesBelow, Gutter.foldl_widen]
  rfl

theorem characters_margin (glyphs : Glyphs) (root : Tree) (shown : Option Position) :
    (margin (some (Gutter.fit root)) shown).characters glyphs.connector =
      root.marginText shown := by
  cases shown with
  | none => simp [margin, Gutter.pieces, Piece.characters, marginText, fit_eq, Gutter.width]
  | some position =>
      simp [margin, Gutter.pieces, Piece.characters, marginText, fit_eq,
        Gutter.toList_positionText, Gutter.digitCount_eq, List.leftpad, List.rightpad]

section Starts

variable (policy : InlinePolicy)

theorem forestStartingTrees_eq_flatMap (forest : List Tree) :
    forestStartingTrees policy forest = forest.flatMap (startingTrees policy) := by
  induction forest with
  | nil => rfl
  | cons tree rest ih => rw [forestStartingTrees, ih, List.flatMap_cons]

theorem exists_startingTrees (tree : Tree) :
    ∃ later, startingTrees policy tree = some tree :: later := by
  cases tree with
  | leaf matched => exact ⟨[], by rw [startingTrees]⟩
  | node label children =>
      rw [startingTrees]
      cases policy.shape children <;> exact ⟨_, rfl⟩

theorem map_position_block [TextWidth] (tree : Tree) :
    (block policy tree).lines.map BlockLine.position =
      (startingTrees policy tree).map (·.bind position) := by
  induction tree with
  | leaf matched => simp [block, Block.lines, startingTrees, position]
  | node label children ih =>
      rw [startingTrees, forestStartingTrees_eq_flatMap]
      cases shape : policy.shape children with
      | production => simp [block_of_production policy shape, Block.lines]
      | inlined =>
          obtain ⟨only, rfl⟩ := InlinePolicy.exists_only_of_inlined shape
          obtain ⟨later, starts⟩ := exists_startingTrees policy only
          have first : (node label [only]).position = only.position := by rw [position]
          rw [block_of_inlined policy shape, Block.map_position_hang, ih only (by simp)]
          simp [starts, first]
      | framed =>
          have below : (children.map (block policy)).flatMap
                (fun block => block.lines.map BlockLine.position) =
              (children.flatMap (startingTrees policy)).map (·.bind position) := by
            rw [List.flatMap_map, List.map_flatMap, List.flatMap_def, List.flatMap_def,
              List.map_congr_left ih]
          rw [block_of_framed policy shape, Block.lines, List.map_cons, List.map_cons,
            Block.map_position_branched, below]
          rfl

theorem map_position_lines [TextWidth] (root : Tree) :
    (root.lines policy).map BlockLine.position =
      (startingTrees policy root).map (·.bind position) := by
  cases root with
  | leaf matched => simp [lines, startingTrees, position]
  | node label children => exact map_position_block policy (node label children)

end Starts

def marginTexts (policy : InlinePolicy) (root : Tree) : List (List Char) :=
  (startingTrees policy root).map fun start => root.marginText (start.bind position)

def marginColumns (root : Tree) : Nat :=
  root.lineField + root.columnField + 4

theorem length_marginText (root : Tree) (shown : Option Position)
    (fits : ∀ position, shown = some position →
      (Nat.toDigits 10 position.line.toNat).length ≤ root.lineField ∧
        (Nat.toDigits 10 position.column.toNat).length ≤ root.columnField) :
    (root.marginText shown).length = root.marginColumns := by
  cases shown with
  | none => simp [marginText, marginColumns]
  | some position =>
      have ⟨line, column⟩ := fits position rfl
      simp only [marginText, marginColumns, List.leftpad, List.rightpad, List.length_append,
        List.length_cons, List.length_replicate, List.length_nil]
      omega

theorem digits_fit {root : Tree} {matched : Leaf} {position : Position}
    (member : matched ∈ root.leavesBelow) (placed : matched.position = some position) :
    (Nat.toDigits 10 position.line.toNat).length ≤ root.lineField ∧
      (Nat.toDigits 10 position.column.toNat).length ≤ root.columnField := by
  rw [← leaves_eq_leavesBelow] at member
  have holds := Gutter.fit_holds root matched position member placed
  rw [fit_eq] at holds
  rw [← Gutter.digitCount_eq, ← Gutter.digitCount_eq]
  exact ⟨holds.line, holds.column⟩

theorem zipWith_map_eq {Line : Type} (lines : List Line) (front back : Line → List Char) :
    List.zipWith (· ++ ·) (lines.map front) (lines.map back) =
      lines.map fun line => front line ++ back line := by
  rw [List.zipWith_map, List.zipWith_self]

theorem marginTexts_eq [TextWidth] (policy : InlinePolicy) (root : Tree) :
    root.marginTexts policy =
      (root.lines policy).map fun line => root.marginText line.position := by
  have starts := congrArg (List.map root.marginText) (map_position_lines policy root)
  simpa [marginTexts, Function.comp_def] using starts.symm

/-- The drawing with positions is, line by line, the drawing without them behind a margin. All
margins are equally wide, and every number fits into its field. -/
theorem splitOn_draw_positions [TextWidth] (glyphs : Glyphs) (policy : InlinePolicy) (root : Tree)
    (plainGlyphs : glyphs.SingleLine) (plain : root.SingleLine) :
    (root.draw glyphs ⟨policy, false⟩).toList.splitOn '\n' =
        drawnLines glyphs policy root ++ [[]] ∧
      (root.draw glyphs ⟨policy, true⟩).toList.splitOn '\n' =
        List.zipWith (· ++ ·) (root.marginTexts policy) (drawnLines glyphs policy root) ++ [[]] ∧
      (root.marginTexts policy).length = (drawnLines glyphs policy root).length ∧
      (∀ text ∈ root.marginTexts policy, text.length = root.marginColumns) ∧
      ∀ matched ∈ root.leavesBelow, ∀ position, matched.position = some position →
        (Nat.toDigits 10 position.line.toNat).length ≤ root.lineField ∧
          (Nat.toDigits 10 position.column.toNat).length ≤ root.columnField := by
  have unmarked := drawnLines_eq plainGlyphs policy root plain
  rw [unmarked, marginTexts_eq]
  refine ⟨?_, ?_, ?_, ?_, ?_⟩
  · rw [splitOn_draw plainGlyphs _ root plain, map_characters_lines]
  · rw [splitOn_draw plainGlyphs _ root plain, lines_picture, zipWith_map_eq, List.map_map]
    congr 1
    apply List.map_congr_left
    intro line _
    rw [Function.comp_apply, BlockLine.row, characters_append, ← characters_margin glyphs root]
    rfl
  · rw [List.length_map, List.length_map]
  · intro text member
    obtain ⟨line, among, rfl⟩ := List.mem_map.mp member
    apply length_marginText
    intro position placed
    obtain ⟨matched, below, placed⟩ :=
      exists_leaf_of_mem_lines policy root line among position placed
    rw [leaves_eq_leavesBelow] at below
    exact digits_fit below placed
  · exact fun matched member position placed => digits_fit member placed

section

open scoped OneColumnEach

theorem splitOn_draw_positions_wide :
    let root := node "sum" [leaf ⟨"1", some ⟨12345, 0⟩⟩, node "none" [], leaf ⟨"2", some ⟨7, 1000⟩⟩]
    Glyphs.unicode.SingleLine ∧ root.SingleLine ∧
      (root.draw .unicode ⟨.never, true⟩).toList.splitOn '\n' =
        List.zipWith (· ++ ·) (root.marginTexts .never) (drawnLines .unicode .never root) ++
          [[]] ∧
      root.marginColumns = 13 ∧
      root.marginTexts .never = ["(12345:0   ) ".toList, List.replicate 13 ' ',
        "(12345:0   ) ".toList, List.replicate 13 ' ', "(    7:1000) ".toList] := by
  intro root
  have plain : root.SingleLine := by decide
  have overlay := splitOn_draw_positions .unicode .never root Glyphs.unicode_singleLine plain
  exact ⟨Glyphs.unicode_singleLine, plain, overlay.2.1, by decide, by decide⟩

end

end Tree

end ParseView
