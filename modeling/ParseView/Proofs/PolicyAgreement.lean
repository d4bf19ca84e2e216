import ParseView.Proofs.LineCount

/-! When inlining every node with a single child draws a tree like inlining direct lines only. -/

namespace ParseView.Tree

theorem mem_preorder_node {tree : Tree} {label : String} {children : List Tree} :
    tree ∈ (node label children).preorder ↔
      tree = node label children ∨ ∃ child ∈ children, tree ∈ child.preorder := by
  rw [preorder_node, List.mem_cons, List.mem_flatMap]

def Unbranched (tree : Tree) : Prop :=
  ∀ label children, node label children ∈ tree.preorder → children.length ≤ 1

theorem unbranched_leaf (matched : Leaf) : (leaf matched).Unbranched := by
  intro label children member
  simp [preorder] at member

theorem unbranched_node_iff {label : String} {children : List Tree} :
    (node label children).Unbranched ↔
      children.length ≤ 1 ∧ ∀ child ∈ children, child.Unbranched := by
  constructor
  · intro unbranched
    refine ⟨unbranched label children (mem_preorder_node.mpr (.inl rfl)), ?_⟩
    intro child member inner below among
    exact unbranched inner below (mem_preorder_node.mpr (.inr ⟨child, member, among⟩))
  · rintro ⟨single, each⟩ inner below member
    rcases mem_preorder_node.mp member with same | ⟨child, among, inside⟩
    · injection same with _ same
      exact same ▸ single
    · exact each child among inner below inside

theorem isDirectLine_iff_unbranched (tree : Tree) : tree.isDirectLine = true ↔ tree.Unbranched := by
  induction tree with
  | leaf matched => simp [isDirectLine, unbranched_leaf]
  | node label children ih =>
      rw [unbranched_node_iff]
      cases children with
      | nil => simp [isDirectLine]
      | cons first rest =>
          cases rest with
          | nil => simpa [isDirectLine] using ih first (by simp)
          | cons second rest => simp [isDirectLine]

/-- Every node of the tree that has a node as its only child is a direct line. -/
def LinksAreDirect (tree : Tree) : Prop :=
  ∀ label inner below, node label [node inner below] ∈ tree.preorder →
    (node label [node inner below]).isDirectLine = true

theorem branchingLinks_eq_zero_iff (tree : Tree) :
    tree.branchingLinks = 0 ↔ tree.LinksAreDirect := by
  rw [branchingLinks, List.countP_eq_zero]
  constructor
  · intro none label inner below member
    simpa [isBranchingLink] using none _ member
  · intro direct link member branching
    unfold isBranchingLink at branching
    split at branching
    · rename_i label inner below
      simp [direct label inner below member] at branching
    · simp at branching

theorem block_always_eq [TextWidth] {tree : Tree} (unlinked : tree.branchingLinks = 0) :
    block .always tree = block .directLine tree := by
  induction tree with
  | leaf matched => rfl
  | node label children ih =>
      rw [branchingLinks_node, Nat.add_eq_zero_iff, List.sum_eq_zero_iff] at unlinked
      obtain ⟨here, below⟩ := unlinked
      have same : InlinePolicy.always.shape children = InlinePolicy.directLine.shape children := by
        refine shape_of_not_branchingLink (?_ : (node label children).isBranchingLink = false)
        simpa using here
      have blocks : children.map (block .always) = children.map (block .directLine) :=
        List.map_congr_left fun child member =>
          ih child member (below _ (List.mem_map_of_mem member))
      rw [block, block, blocks_eq_map, blocks_eq_map, same, blocks]

theorem lines_always_eq [TextWidth] {root : Tree} (unlinked : root.branchingLinks = 0) :
    root.lines .always = root.lines .directLine := by
  cases root with
  | leaf matched => rfl
  | node label children => rw [lines, lines, block_always_eq unlinked]

theorem picture_always_eq [TextWidth] {root : Tree} (unlinked : root.branchingLinks = 0)
    (positions : Bool) :
    root.picture ⟨.always, positions⟩ = root.picture ⟨.directLine, positions⟩ := by
  rw [picture_eq_ofLines, picture_eq_ofLines, lines_always_eq unlinked]
  rfl

theorem draw_always_eq_iff [TextWidth] {glyphs : Glyphs} (plain : glyphs.SingleLine) (root : Tree)
    (positions : Bool) :
    root.draw glyphs ⟨.always, positions⟩ = root.draw glyphs ⟨.directLine, positions⟩ ↔
      root.branchingLinks = 0 := by
  constructor
  · intro same
    -- A branching link costs two lines, and no other part of a drawing can make up for them.
    have lineEnds (style : TreeStyle) : (root.draw glyphs style).toList.count '\n' =
        root.lineCount style.policy + root.captionLineEnds := by
      rw [draw, Picture.toList_draw]
      exact lineEnds_picture plain style root
    have always := lineEnds ⟨.always, positions⟩
    have directLine := lineEnds ⟨.directLine, positions⟩
    have links := lineCount_directLine root
    rw [same] at always
    simp only at always directLine
    omega
  · intro unlinked
    rw [draw, draw, picture_always_eq unlinked]

/-- A tree is a direct line just if none of its nodes has two children. The two inlining policies
draw a tree alike just if every node whose only child is a node is a direct line. -/
theorem policies_agree [TextWidth] :
    (∀ tree : Tree, tree.isDirectLine = true ↔ tree.Unbranched) ∧
      ∀ glyphs : Glyphs, glyphs.SingleLine → ∀ (root : Tree) (positions : Bool),
        root.draw glyphs ⟨.always, positions⟩ = root.draw glyphs ⟨.directLine, positions⟩ ↔
          root.LinksAreDirect := by
  refine ⟨isDirectLine_iff_unbranched, ?_⟩
  intro glyphs plain root positions
  rw [draw_always_eq_iff plain, branchingLinks_eq_zero_iff]

section

open scoped OneColumnEach

theorem policies_agree_link :
    let link := node "stmt" [node "sum" [leaf ⟨"1", some ⟨1, 0⟩⟩, node "none" []]]
    let root := node "file" [node "name" [node "id" [leaf ⟨"x", none⟩]], link]
    Glyphs.ascii.SingleLine ∧ ¬root.LinksAreDirect ∧
      root.draw .ascii ⟨.always, true⟩ ≠ root.draw .ascii ⟨.directLine, true⟩ := by
  intro link root
  obtain ⟨_, agree⟩ := policies_agree
  have branching : ¬root.LinksAreDirect := by
    intro direct
    have line := direct "stmt" "sum" [leaf ⟨"1", some ⟨1, 0⟩⟩, node "none" []]
      (by simp [root, link, preorder, forestPreorder])
    simp [isDirectLine] at line
  exact ⟨Glyphs.ascii_singleLine, branching,
    mt (agree .ascii Glyphs.ascii_singleLine root true).mp branching⟩

end

end ParseView.Tree
