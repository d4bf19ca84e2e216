import Mathlib.Algebra.BigOperators.Ring.List
import Mathlib.Algebra.Order.BigOperators.Group.List
import Mathlib.Algebra.Order.Ring.Nat
import ParseView.Proofs.Margins

/-! How many lines a drawing of a tree takes up. The shape of the tree and the policy decide it,
apart from line ends that labels and texts bring along. -/

namespace ParseView

namespace Glyphs

def lineEnds (glyphs : Glyphs) (picture : Picture Connector) : Nat :=
  (picture.characters glyphs.connector).count '\n'

variable (glyphs : Glyphs)

@[simp] theorem lineEnds_nil : glyphs.lineEnds [] = 0 := rfl

@[simp] theorem lineEnds_append (first second : Picture Connector) :
    glyphs.lineEnds (first ++ second) = glyphs.lineEnds first + glyphs.lineEnds second := by
  simp [lineEnds]

@[simp] theorem lineEnds_blank (count : Nat) (rest : Picture Connector) :
    glyphs.lineEnds (.blank count :: rest) = glyphs.lineEnds rest := by
  simp [lineEnds, Piece.characters, List.count_replicate]

@[simp] theorem lineEnds_newline (rest : Picture Connector) :
    glyphs.lineEnds (.newline :: rest) = glyphs.lineEnds rest + 1 := by
  simp [lineEnds, Piece.characters, Nat.add_comm]

@[simp] theorem lineEnds_text (content : String) (rest : Picture Connector) :
    glyphs.lineEnds (.text content :: rest) =
      content.toList.count '\n' + glyphs.lineEnds rest := by
  simp [lineEnds, Piece.characters]

theorem lineEnds_margin (gutter : Option Gutter) (shown : Option Position) :
    glyphs.lineEnds (Tree.margin gutter shown) = 0 :=
  List.count_eq_zero.mpr (Gutter.newline_not_mem_margin glyphs.connector gutter shown)

variable {glyphs}

theorem lineEnds_glyph (plain : glyphs.SingleLine) (connector : Connector)
    (rest : Picture Connector) :
    glyphs.lineEnds (.glyph connector :: rest) = glyphs.lineEnds rest := by
  simp [lineEnds, Piece.characters, plain connector]

theorem lineEnds_replicate_glyph (plain : glyphs.SingleLine) (count : Nat)
    (connector : Connector) :
    glyphs.lineEnds (List.replicate count (.glyph connector)) = 0 := by
  induction count with
  | zero => rfl
  | succ count ih => rw [List.replicate_succ, lineEnds_glyph plain, ih]

end Glyphs

namespace Tree

def captionLineEnds (tree : Tree) : Nat :=
  (tree.captions.map fun caption => caption.toList.count '\n').sum

mutual
/-- The lines that a tree takes up where its labels and texts hold no line ends. -/
def lineCount (policy : InlinePolicy) : Tree → Nat
  | leaf _ => 1
  | node label children =>
      if children = [] ∨ policy ≠ .never ∧ ∀ child ∈ children, child.isNode = false then
        1
      else if children.length = 1 ∧
          (policy = .always ∨ policy = .directLine ∧ (node label children).isDirectLine) then
        forestLineCount policy children
      else
        2 + forestLineCount policy children

def forestLineCount (policy : InlinePolicy) : List Tree → Nat
  | [] => 0
  | first :: rest => lineCount policy first + forestLineCount policy rest
end

/-- Whether a node has a node as its only child and is no direct line: a link that only the
policy of always inlining draws on one line with its child. -/
def isBranchingLink : Tree → Bool
  | node label [node inner children] => !(node label [node inner children]).isDirectLine
  | _ => false

theorem captionLineEnds_leaf (matched : Leaf) :
    (leaf matched).captionLineEnds = matched.text.toList.count '\n' := by
  simp [captionLineEnds]

theorem captionLineEnds_node (label : String) (children : List Tree) :
    (node label children).captionLineEnds =
      label.toList.count '\n' + (children.map captionLineEnds).sum := by
  simp only [captionLineEnds, captions_node, List.map_cons, List.sum_cons, List.map_flatMap]
  induction children with
  | nil => rfl
  | cons child rest ih => simp [captionLineEnds] at ih ⊢; omega

theorem forestLineCount_eq_sum (policy : InlinePolicy) (forest : List Tree) :
    forestLineCount policy forest = (forest.map (lineCount policy)).sum := by
  induction forest with
  | nil => rfl
  | cons tree rest ih => rw [forestLineCount, ih, List.map_cons, List.sum_cons]

section Shapes

variable {policy : InlinePolicy} {label : String} {children : List Tree}

theorem lineCount_of_production (shape : policy.shape children = .production) :
    lineCount policy (node label children) = 1 := by
  rw [lineCount, if_pos ((InlinePolicy.shape_eq_production_iff policy children).mp shape)]

theorem lineCount_of_inlined {only : Tree} (shape : policy.shape [only] = .inlined) :
    lineCount policy (node label [only]) = lineCount policy only := by
  have branching : policy.shape [only] ≠ .production := by simp [shape]
  have joined := (InlinePolicy.shape_eq_inlined_iff_of_branching branching label).mp shape
  rw [ne_eq, InlinePolicy.shape_eq_production_iff] at branching
  rw [lineCount, if_neg branching, if_pos joined]
  simp [forestLineCount]

theorem lineCount_of_framed (shape : policy.shape children = .framed) :
    lineCount policy (node label children) = 2 + (children.map (lineCount policy)).sum := by
  have branching : policy.shape children ≠ .production := by simp [shape]
  have apart := mt (InlinePolicy.shape_eq_inlined_iff_of_branching branching label).mpr
    (by simp [shape])
  rw [ne_eq, InlinePolicy.shape_eq_production_iff] at branching
  rw [lineCount, if_neg branching, if_neg apart, forestLineCount_eq_sum]

end Shapes

section Drawings

variable {glyphs : Glyphs}

theorem count_newline_intercalate (texts : List (List Char)) :
    ([' '].intercalate texts).count '\n' = (texts.map (List.count '\n')).sum := by
  induction texts with
  | nil => rfl
  | cons text rest ih =>
      cases rest with
      | nil => simp
      | cons next rest => simp [List.intercalate_cons_cons, ih]

theorem count_newline_leafTexts (children : List Tree)
    (leaves : ∀ child ∈ children, child.isNode = false) :
    (leafTexts children).toList.count '\n' = (children.map captionLineEnds).sum := by
  rw [leafTexts, String.toList_intercalate]
  refine (count_newline_intercalate _).trans ?_
  induction children with
  | nil => rfl
  | cons child rest ih =>
      obtain ⟨matched, rfl⟩ := (isNode_eq_false_iff child).mp (leaves child (by simp))
      have later := ih fun other member => leaves other (by simp [member])
      simpa [asLeaf?, captionLineEnds_leaf] using later

variable (plain : glyphs.SingleLine)
include plain

theorem lineEnds_productionPieces (label : String) (children : List Tree)
    (leaves : ∀ child ∈ children, child.isNode = false) :
    glyphs.lineEnds (productionPieces label children) =
      1 + (node label children).captionLineEnds := by
  rw [captionLineEnds_node, ← count_newline_leafTexts children leaves]
  cases children with
  | nil => simp [productionPieces, leafTexts, Glyphs.lineEnds_glyph plain, Nat.add_comm]
  | cons first rest =>
      simp [productionPieces, Glyphs.lineEnds_glyph plain]
      omega

theorem lineEnds_framePieces [TextWidth] (gutter : Option Gutter) (indent : Picture Connector)
    (label : String) (unbroken : glyphs.lineEnds indent = 0) :
    glyphs.lineEnds (framePieces gutter indent label) = 2 + label.toList.count '\n' := by
  simp [framePieces, Glyphs.lineEnds_glyph plain, Glyphs.lineEnds_replicate_glyph plain,
    Glyphs.lineEnds_margin, unbroken]
  omega

theorem lineEnds_branches [TextWidth] (policy : InlinePolicy) (gutter : Option Gutter)
    (indent : Picture Connector) (unbroken : glyphs.lineEnds indent = 0) (children : List Tree)
    (each : ∀ child ∈ children, ∀ indent, glyphs.lineEnds indent = 0 →
      glyphs.lineEnds (pieces policy gutter indent child) =
        child.lineCount policy + child.captionLineEnds) :
    glyphs.lineEnds (branches policy gutter indent children) =
      (children.map (lineCount policy)).sum + (children.map captionLineEnds).sum := by
  induction children with
  | nil => simp [branches]
  | cons child rest ih =>
      have here (tail : Picture Connector) (flat : glyphs.lineEnds tail = 0) :
          glyphs.lineEnds (pieces policy gutter (indent ++ tail) child) =
            child.lineCount policy + child.captionLineEnds :=
        each child (by simp) _ (by simp [unbroken, flat])
      cases rest with
      | nil =>
          simp [branches, Glyphs.lineEnds_margin, Glyphs.lineEnds_glyph plain, unbroken, here]
      | cons next rest =>
          have later := ih fun other member => each other (by simp [member])
          simp only [branches, Glyphs.lineEnds_append, Glyphs.lineEnds_margin, unbroken,
            Glyphs.lineEnds_blank, Glyphs.lineEnds_glyph plain, Glyphs.lineEnds_nil, later]
          rw [here _ (by simp [Glyphs.lineEnds_glyph plain])]
          simp only [List.map_cons, List.sum_cons]
          omega

theorem lineEnds_pieces [TextWidth] (policy : InlinePolicy) (gutter : Option Gutter) (tree : Tree) :
    ∀ indent, glyphs.lineEnds indent = 0 →
      glyphs.lineEnds (pieces policy gutter indent tree) =
        tree.lineCount policy + tree.captionLineEnds := by
  induction tree with
  | leaf matched =>
      intro indent _
      simp [pieces, lineCount, captionLineEnds_leaf, Glyphs.lineEnds_glyph plain, Nat.add_comm]
  | node label children ih =>
      intro indent unbroken
      rw [pieces]
      cases shape : policy.shape children with
      | production =>
          rw [lineCount_of_production shape]
          exact lineEnds_productionPieces plain label children
            (InlinePolicy.leaves_of_production shape)
      | inlined =>
          obtain ⟨only, rfl⟩ := InlinePolicy.exists_only_of_inlined shape
          have below := ih only (by simp) (indent ++ [.blank (displayWidth label + 2)])
            (by simp [unbroken])
          rw [lineCount_of_inlined shape, captionLineEnds_node]
          simp [stacked, below, Glyphs.lineEnds_glyph plain]
          omega
      | framed =>
          have below := lineEnds_branches plain policy gutter indent unbroken children ih
          rw [lineCount_of_framed shape, captionLineEnds_node]
          simp only [Glyphs.lineEnds_append,
            lineEnds_framePieces plain gutter indent label unbroken, below]
          omega

theorem lineEnds_picture [TextWidth] (style : TreeStyle) (root : Tree) :
    glyphs.lineEnds (root.picture style) =
      root.lineCount style.policy + root.captionLineEnds := by
  cases root with
  | leaf matched =>
      simp [picture, Glyphs.lineEnds_margin, lineCount, captionLineEnds_leaf, Nat.add_comm]
  | node label children =>
      rw [picture, Glyphs.lineEnds_append, Glyphs.lineEnds_margin, Nat.zero_add]
      exact lineEnds_pieces plain style.policy _ (node label children) [] rfl

end Drawings

def branchingLinks (tree : Tree) : Nat :=
  tree.preorder.countP isBranchingLink

theorem branchingLinks_leaf (matched : Leaf) : (leaf matched).branchingLinks = 0 := by
  simp [branchingLinks, preorder, isBranchingLink]

theorem branchingLinks_node (label : String) (children : List Tree) :
    (node label children).branchingLinks =
      (if (node label children).isBranchingLink then 1 else 0) +
        (children.map branchingLinks).sum := by
  rw [branchingLinks, preorder_node, List.countP_cons, List.countP_flatMap, Nat.add_comm]
  rfl

theorem shape_of_branchingLink {label : String} {children : List Tree}
    (link : (node label children).isBranchingLink = true) :
    ∃ only, children = [only] ∧ InlinePolicy.always.shape [only] = .inlined ∧
      InlinePolicy.directLine.shape [only] = .framed := by
  match children with
  | [node inner below] =>
      rw [isBranchingLink, isDirectLine, Bool.not_eq_true'] at link
      refine ⟨node inner below, rfl, ?_, ?_⟩
      · simp [InlinePolicy.shape, InlinePolicy.inlines, isNode]
      · simp [InlinePolicy.shape, InlinePolicy.inlines, isNode, link]
  | [] | [leaf _] | _ :: _ :: _ => simp [isBranchingLink] at link

theorem shape_of_not_branchingLink {label : String} {children : List Tree}
    (unlinked : (node label children).isBranchingLink = false) :
    InlinePolicy.always.shape children = InlinePolicy.directLine.shape children := by
  match children with
  | [node inner below] =>
      rw [isBranchingLink, isDirectLine, Bool.not_eq_false'] at unlinked
      simp [InlinePolicy.shape, InlinePolicy.inlines, isNode, unlinked]
  | [] | [leaf _] | _ :: _ :: _ => simp [InlinePolicy.shape, isNode]

theorem lineCount_pos (policy : InlinePolicy) (tree : Tree) : 0 < tree.lineCount policy := by
  induction tree with
  | leaf matched => simp [lineCount]
  | node label children ih =>
      cases shape : policy.shape children with
      | production => simp [lineCount_of_production shape]
      | inlined =>
          obtain ⟨only, rfl⟩ := InlinePolicy.exists_only_of_inlined shape
          rw [lineCount_of_inlined shape]
          exact ih only (by simp)
      | framed =>
          rw [lineCount_of_framed shape]
          omega

theorem lineCount_le_never (policy : InlinePolicy) (tree : Tree) :
    tree.lineCount policy ≤ tree.lineCount .never := by
  induction tree with
  | leaf matched => simp [lineCount]
  | node label children ih =>
      have below := List.sum_le_sum ih
      cases shape : policy.shape children with
      | production =>
          rw [lineCount_of_production shape]
          exact lineCount_pos .never (node label children)
      | inlined =>
          obtain ⟨only, rfl⟩ := InlinePolicy.exists_only_of_inlined shape
          rw [lineCount_of_inlined shape, lineCount_of_framed (InlinePolicy.shape_never (by simp))]
          simpa using Nat.le_add_left_of_le below
      | framed =>
          have nonempty : children ≠ [] := by
            rintro rfl
            simp [InlinePolicy.shape] at shape
          rw [lineCount_of_framed shape, lineCount_of_framed (InlinePolicy.shape_never nonempty)]
          omega

theorem lineCount_directLine (tree : Tree) :
    tree.lineCount .directLine = tree.lineCount .always + 2 * tree.branchingLinks := by
  induction tree with
  | leaf matched => simp [lineCount, branchingLinks_leaf]
  | node label children ih =>
      have below : (children.map (lineCount .directLine)).sum =
          (children.map (lineCount .always)).sum + 2 * (children.map branchingLinks).sum := by
        rw [List.map_congr_left ih, List.sum_map_add, List.sum_map_mul_left children]
      rw [branchingLinks_node]
      -- Only at a branching link do the two policies choose different shapes.
      cases link : (node label children).isBranchingLink with
      | true =>
          obtain ⟨only, rfl, joined, framed⟩ := shape_of_branchingLink link
          rw [lineCount_of_inlined joined, lineCount_of_framed framed, below]
          simp
          omega
      | false =>
          have same := shape_of_not_branchingLink link
          cases shape : InlinePolicy.directLine.shape children with
          | production =>
              rw [lineCount_of_production shape, lineCount_of_production (same.trans shape)]
              have flat : ∀ child ∈ children, child.branchingLinks = 0 := by
                intro child member
                obtain ⟨matched, rfl⟩ := (isNode_eq_false_iff child).mp
                  (InlinePolicy.leaves_of_production shape child member)
                exact branchingLinks_leaf matched
              have none : (children.map branchingLinks).sum = 0 := by
                rw [List.map_congr_left flat]
                simp
              simp [none]
          | inlined =>
              obtain ⟨only, rfl⟩ := InlinePolicy.exists_only_of_inlined shape
              rw [lineCount_of_inlined shape, lineCount_of_inlined (same.trans shape)]
              simpa using ih only (by simp)
          | framed =>
              rw [lineCount_of_framed shape, lineCount_of_framed (same.trans shape), below]
              simp
              omega

/-- The line ends of a drawing are those that the shape of its tree calls for, and those of its
labels and texts. The more is inlined, the fewer they are: a branching link costs two lines if
only direct lines are inlined. -/
theorem count_newline_draw [TextWidth] (glyphs : Glyphs) (plain : glyphs.SingleLine) (root : Tree) :
    (∀ style, (root.draw glyphs style).toList.count '\n' =
        root.lineCount style.policy + root.captionLineEnds) ∧
      root.lineCount .always ≤ root.lineCount .directLine ∧
      root.lineCount .directLine ≤ root.lineCount .never ∧
      root.lineCount .directLine = root.lineCount .always + 2 * root.branchingLinks := by
  have links := lineCount_directLine root
  refine ⟨?_, by omega, lineCount_le_never .directLine root, links⟩
  intro style
  rw [draw, Picture.toList_draw]
  exact lineEnds_picture plain style root

section

open scoped OneColumnEach

theorem count_newline_draw_link :
    let root := node "a\nb" [node "sum" [leaf ⟨"1", some ⟨1, 4⟩⟩, node "none" []]]
    Glyphs.ascii.SingleLine ∧ (root.draw .ascii ⟨.directLine, true⟩).toList.count '\n' = 7 ∧
      root.lineCount .directLine = root.lineCount .always + 2 := by
  intro root
  obtain ⟨drawn, _, _, links⟩ := count_newline_draw .ascii Glyphs.ascii_singleLine root
  have link : root.branchingLinks = 1 := by decide
  rw [link] at links
  exact ⟨Glyphs.ascii_singleLine, drawn ⟨.directLine, true⟩, links⟩

end

end Tree

end ParseView
