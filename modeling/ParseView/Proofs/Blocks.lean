import ParseView.Proofs.Captions
import ParseView.Proofs.Lines

/-! The drawing of a tree as a block of lines that is put together from the blocks of its
children, whatever stands around it. -/

namespace ParseView

open Picture

structure BlockLine where
  position : Option Position
  pieces : Picture Connector

namespace BlockLine

def indent (lead : Picture Connector) (line : BlockLine) : BlockLine :=
  { line with pieces := lead ++ line.pieces }

def row (gutter : Option Gutter) (line : BlockLine) : Picture Connector :=
  Tree.margin gutter line.position ++ line.pieces

@[simp] theorem indent_nil (line : BlockLine) : line.indent [] = line := rfl

@[simp] theorem position_indent (lead : Picture Connector) (line : BlockLine) :
    (line.indent lead).position = line.position := rfl

@[simp] theorem pieces_indent (lead : Picture Connector) (line : BlockLine) :
    (line.indent lead).pieces = lead ++ line.pieces := rfl

@[simp] theorem indent_indent (outer inner : Picture Connector) (line : BlockLine) :
    (line.indent inner).indent outer = line.indent (outer ++ inner) := by
  simp [indent]

end BlockLine

/-- The lines that a drawing takes up, the first one from where the drawing starts on it. -/
structure Block where
  first : BlockLine
  later : List BlockLine

namespace Block

def lines (block : Block) : List BlockLine :=
  block.first :: block.later

def hang (head tail : Picture Connector) (block : Block) : Block :=
  ⟨block.first.indent head, block.later.map (BlockLine.indent tail)⟩

def branched : List Block → List BlockLine
  | [] => []
  | [last] => (last.hang [.blank 1, .glyph .last] [.blank 2]).lines
  | block :: next :: rest =>
      (block.hang [.blank 1, .glyph .middle] [.blank 1, .glyph .vertical]).lines ++
        branched (next :: rest)

end Block

namespace Tree

def productionLine (label : String) (children : List Tree) : Picture Connector :=
  [.glyph .leaf, .text label] ++
    if children.isEmpty then [] else [.glyph .oneChild, .glyph .leaf, .text (leafTexts children)]

def frameHead (label : String) : Picture Connector :=
  [.glyph .frameOpen, .text label, .glyph .frameClose]

def frameEdge [TextWidth] (label : String) : Picture Connector :=
  [.glyph .frameLeft, .glyph .frameBranch] ++
    List.replicate (displayWidth label - 1) (.glyph .frameFill) ++ [.glyph .frameRight]

def nodeBlock [TextWidth] (shape : NodeShape) (label : String) (children : List Tree)
    (blocks : List Block) : Block :=
  match shape, blocks with
  | .production, _ => ⟨⟨(node label children).position, productionLine label children⟩, []⟩
  | .inlined, [only] =>
      only.hang [.glyph .leaf, .text label, .glyph .oneChild] [.blank (displayWidth label + 2)]
  | _, _ =>
      ⟨⟨(node label children).position, frameHead label⟩,
        ⟨none, frameEdge label⟩ :: Block.branched blocks⟩

mutual
def block [TextWidth] (policy : InlinePolicy) : Tree → Block
  | leaf matched => ⟨⟨matched.position, [.glyph .leaf, .text matched.text]⟩, []⟩
  | node label children =>
      nodeBlock (policy.shape children) label children (blocks policy children)

def blocks [TextWidth] (policy : InlinePolicy) : List Tree → List Block
  | [] => []
  | child :: rest => block policy child :: blocks policy rest
end

def lines [TextWidth] (policy : InlinePolicy) : Tree → List BlockLine
  | leaf matched => [⟨matched.position, [.text matched.text]⟩]
  | node label children => (block policy (node label children)).lines

variable (policy : InlinePolicy)

theorem blocks_eq_map [TextWidth] (children : List Tree) :
    blocks policy children = children.map (block policy) := by
  induction children with
  | nil => simp [blocks]
  | cons child rest ih => simp [blocks, ih]

theorem block_of_production [TextWidth] {label : String} {children : List Tree}
    (shape : policy.shape children = .production) :
    block policy (node label children) =
      ⟨⟨(node label children).position, productionLine label children⟩, []⟩ := by
  rw [block, shape]
  rfl

theorem block_of_inlined [TextWidth] {label : String} {only : Tree}
    (shape : policy.shape [only] = .inlined) :
    block policy (node label [only]) =
      (block policy only).hang [.glyph .leaf, .text label, .glyph .oneChild]
        [.blank (displayWidth label + 2)] := by
  rw [block, shape]
  simp [blocks, nodeBlock]

theorem block_of_framed [TextWidth] {label : String} {children : List Tree}
    (shape : policy.shape children = .framed) :
    block policy (node label children) =
      ⟨⟨(node label children).position, frameHead label⟩,
        ⟨none, frameEdge label⟩ :: Block.branched (children.map (block policy))⟩ := by
  rw [block, shape, blocks_eq_map]
  rfl

theorem position_first_block [TextWidth] (tree : Tree) :
    (block policy tree).first.position = tree.position := by
  induction tree with
  | leaf matched => rfl
  | node label children ih =>
      cases shape : policy.shape children with
      | production => rw [block_of_production policy shape]
      | inlined =>
          obtain ⟨only, rfl⟩ := InlinePolicy.exists_only_of_inlined shape
          rw [block_of_inlined policy shape]
          exact ih only (by simp)
      | framed => rw [block_of_framed policy shape]

def rowsAt (gutter : Option Gutter) (indent : Picture Connector) (lines : List BlockLine) :
    List (Picture Connector) :=
  lines.map fun line => (line.indent indent).row gutter

section Rows

variable (gutter : Option Gutter) (indent : Picture Connector)

theorem rowsAt_nil_indent (lines : List BlockLine) :
    rowsAt gutter [] lines = lines.map (BlockLine.row gutter) := by
  simp [rowsAt]

theorem rowsAt_cons (line : BlockLine) (rest : List BlockLine) :
    rowsAt gutter indent (line :: rest) =
      (margin gutter line.position ++ indent ++ line.pieces) :: rowsAt gutter indent rest := by
  simp [rowsAt, BlockLine.row]

theorem rowsAt_indent (tail : Picture Connector) (lines : List BlockLine) :
    rowsAt gutter indent (lines.map (BlockLine.indent tail)) =
      rowsAt gutter (indent ++ tail) lines := by
  simp [rowsAt]

/-- The pieces of a drawing are those of its block, where the place that it starts in gives the
margin and the indentation of the later lines. -/
def DrawsBlock [TextWidth] (tree : Tree) : Prop :=
  ∀ indent, pieces policy gutter indent tree =
    (block policy tree).first.pieces ++
      .newline :: ofLines (rowsAt gutter indent (block policy tree).later)

variable {policy gutter}

theorem DrawsBlock.hang [TextWidth] {tree : Tree} (drawn : DrawsBlock policy gutter tree)
    (head tail : Picture Connector) :
    head ++ pieces policy gutter (indent ++ tail) tree =
      ((block policy tree).hang head tail).first.pieces ++
        .newline :: ofLines (rowsAt gutter indent ((block policy tree).hang head tail).later) := by
  rw [drawn, Block.hang, rowsAt_indent]
  simp

theorem DrawsBlock.branch [TextWidth] {tree : Tree} (drawn : DrawsBlock policy gutter tree)
    (head tail : Picture Connector) :
    margin gutter tree.position ++ indent ++ head ++ pieces policy gutter (indent ++ tail) tree =
      ofLines (rowsAt gutter indent ((block policy tree).hang head tail).lines) := by
  rw [Block.lines, rowsAt_cons, ofLines_cons, List.append_assoc, drawn.hang]
  simp [Block.hang, position_first_block]

theorem branches_eq_ofLines [TextWidth] (children : List Tree)
    (each : ∀ child ∈ children, DrawsBlock policy gutter child) :
    branches policy gutter indent children =
      ofLines (rowsAt gutter indent (Block.branched (children.map (block policy)))) := by
  induction children with
  | nil => simp [branches, Block.branched, rowsAt]
  | cons child rest ih =>
      have first := each child (by simp)
      cases rest with
      | nil =>
          rw [branches, List.map_cons, List.map_nil, Block.branched]
          exact first.branch indent _ _
      | cons next rest =>
          rw [branches, ih (fun other member => each other (by simp [member])), first.branch]
          simp [Block.branched, rowsAt]

end Rows

theorem pieces_eq_block [TextWidth] (gutter : Option Gutter) (tree : Tree) :
    DrawsBlock policy gutter tree := by
  -- The indentation is arbitrary: children are drawn under a longer one than their parent.
  induction tree with
  | leaf matched =>
      intro indent
      simp [pieces, block, rowsAt]
  | node label children ih =>
      intro indent
      rw [pieces]
      cases shape : policy.shape children with
      | production =>
          rw [block_of_production policy shape]
          simp [productionPieces, productionLine, rowsAt]
      | inlined =>
          obtain ⟨only, rfl⟩ := InlinePolicy.exists_only_of_inlined shape
          rw [block_of_inlined policy shape]
          have below := (ih only (by simp)).hang indent
            [.glyph .leaf, .text label, .glyph .oneChild] [.blank (displayWidth label + 2)]
          simpa [stacked] using below
      | framed =>
          rw [block_of_framed policy shape, branches_eq_ofLines indent children ih, rowsAt_cons]
          simp [framePieces, frameHead, frameEdge, margin]

def gutterOf (style : TreeStyle) (root : Tree) : Option Gutter :=
  if style.positions then some (Gutter.fit root) else none

/-- A drawing consists of the lines of the tree, each with its margin and ended by a line end. -/
theorem picture_eq_ofLines [TextWidth] (style : TreeStyle) (root : Tree) :
    root.picture style =
      ofLines ((root.lines style.policy).map (BlockLine.row (root.gutterOf style))) := by
  cases root with
  | leaf matched => simp [picture, lines, gutterOf, BlockLine.row, position]
  | node label children =>
      rw [picture, pieces_eq_block style.policy _ (node label children), rowsAt_nil_indent, lines,
        Block.lines, List.map_cons, ofLines_cons, BlockLine.row, position_first_block]
      simp [gutterOf]

end Tree

section Members

variable {block : Block} {blocks : List Block} {head tail : Picture Connector} {line : BlockLine}

theorem Block.mem_lines_hang (member : line ∈ (block.hang head tail).lines) :
    ∃ original ∈ block.lines, line = original.indent head ∨ line = original.indent tail := by
  rcases List.mem_cons.mp member with rfl | later
  · exact ⟨block.first, List.mem_cons_self, .inl rfl⟩
  · obtain ⟨original, below, rfl⟩ := List.mem_map.mp later
    exact ⟨original, List.mem_cons_of_mem _ below, .inr rfl⟩

def Piece.IsMark {Slot : Type} : Piece Slot → Prop
  | glyph _ => True
  | blank _ => True
  | text _ => False
  | newline => False

theorem Block.mem_branched (member : line ∈ branched blocks) :
    ∃ block ∈ blocks, ∃ original ∈ block.lines, ∃ lead, (∀ piece ∈ lead, Piece.IsMark piece) ∧
      line = original.indent lead := by
  have hung {block : Block} {head tail : Picture Connector}
      (heads : ∀ piece ∈ head, Piece.IsMark piece) (tails : ∀ piece ∈ tail, Piece.IsMark piece)
      (inside : line ∈ (block.hang head tail).lines) :
      ∃ original ∈ block.lines, ∃ lead, (∀ piece ∈ lead, Piece.IsMark piece) ∧
        line = original.indent lead := by
    obtain ⟨original, below, rfl | rfl⟩ := mem_lines_hang inside
    · exact ⟨original, below, head, heads, rfl⟩
    · exact ⟨original, below, tail, tails, rfl⟩
  induction blocks with
  | nil => simp [branched] at member
  | cons block rest ih =>
      cases rest with
      | nil => exact ⟨block, by simp, hung (by simp [Piece.IsMark]) (by simp [Piece.IsMark]) member⟩
      | cons next rest =>
          rcases List.mem_append.mp member with here | later
          · exact ⟨block, by simp, hung (by simp [Piece.IsMark]) (by simp [Piece.IsMark]) here⟩
          · obtain ⟨other, among, rest⟩ := ih later
            exact ⟨other, List.mem_cons_of_mem _ among, rest⟩

end Members

namespace Tree

/-- What holds of the lines that a node adds, and passes from the lines of its children to what
becomes of them in the node, holds of every line of a block. -/
theorem forall_line_block [TextWidth] (policy : InlinePolicy) (Holds : Tree → BlockLine → Prop)
    (alone : ∀ matched, Holds (leaf matched)
      ⟨matched.position, [.glyph .leaf, .text matched.text]⟩)
    (production : ∀ label children, Holds (node label children)
      ⟨(node label children).position, productionLine label children⟩)
    (head : ∀ label children, Holds (node label children)
      ⟨(node label children).position, frameHead label⟩)
    (edge : ∀ label children, Holds (node label children) ⟨none, frameEdge label⟩)
    (hung : ∀ label children, ∀ child lead line, child ∈ children →
      (∀ piece ∈ lead, Piece.IsMark piece ∨ piece = .text label) → Holds child line →
      Holds (node label children) (line.indent lead))
    (tree : Tree) : ∀ line ∈ (block policy tree).lines, Holds tree line := by
  induction tree with
  | leaf matched =>
      intro line member
      rw [List.mem_singleton.mp member]
      exact alone matched
  | node label children ih =>
      intro line member
      cases shape : policy.shape children with
      | production =>
          rw [block_of_production policy shape] at member
          rw [List.mem_singleton.mp member]
          exact production label children
      | inlined =>
          obtain ⟨only, rfl⟩ := InlinePolicy.exists_only_of_inlined shape
          rw [block_of_inlined policy shape] at member
          -- Its first line gets the label in front, every later one blanks of the same width.
          obtain ⟨original, inside, rfl | rfl⟩ := Block.mem_lines_hang member
          · exact hung label [only] only _ original (by simp) (by simp [Piece.IsMark])
              (ih only (by simp) original inside)
          · exact hung label [only] only _ original (by simp) (by simp [Piece.IsMark])
              (ih only (by simp) original inside)
      | framed =>
          rw [block_of_framed policy shape] at member
          rcases List.mem_cons.mp member with rfl | later
          · exact head label children
          rcases List.mem_cons.mp later with rfl | among
          · exact edge label children
          · obtain ⟨_, drawn, original, inside, lead, leads, rfl⟩ := Block.mem_branched among
            obtain ⟨child, below, rfl⟩ := List.mem_map.mp drawn
            exact hung label children child lead original below
              (fun piece ahead => .inl (leads piece ahead)) (ih child below original inside)

theorem captions_of_mem_children {label : String} {children : List Tree} {child : Tree}
    (member : child ∈ children) {caption : String} (among : caption ∈ child.captions) :
    caption ∈ (node label children).captions := by
  rw [captions_node, List.mem_cons, List.mem_flatMap]
  exact .inr ⟨child, member, among⟩

theorem frameEdge_marks [TextWidth] (label : String) :
    ∀ piece ∈ frameEdge label, Piece.IsMark piece := by
  simp only [frameEdge, List.mem_append, List.mem_cons, List.not_mem_nil, or_false,
    List.mem_replicate]
  rintro piece (((rfl | rfl) | ⟨_, rfl⟩) | rfl) <;> trivial

section Pieces

variable (Allowed : Piece Connector → Prop)
  (marks : ∀ piece, Piece.IsMark piece → Allowed piece)
  (joins : ∀ texts : List String, (∀ text ∈ texts, Allowed (.text text)) →
    Allowed (.text (" ".intercalate texts)))
include marks joins

theorem forall_piece_productionLine (label : String) (children : List Tree)
    (captions : ∀ caption ∈ (node label children).captions, Allowed (.text caption)) :
    ∀ piece ∈ productionLine label children, Allowed piece := by
  have labelled : Allowed (.text label) := captions label (by simp)
  have texts : Allowed (.text (leafTexts children)) := by
    apply joins
    intro text member
    simp only [List.mem_map, List.mem_filterMap] at member
    obtain ⟨_, ⟨child, among, isLeaf⟩, rfl⟩ := member
    cases child with
    | leaf matched =>
        obtain rfl := Option.some.inj isLeaf
        exact captions _ (captions_of_mem_children among (by simp))
    | node label children => simp [asLeaf?] at isLeaf
  have glyph (connector : Connector) : Allowed (.glyph connector) := marks _ trivial
  cases children with
  | nil => simp [productionLine, labelled, glyph]
  | cons first rest => simp [productionLine, labelled, glyph, texts]

theorem forall_piece_block [TextWidth] (policy : InlinePolicy) (tree : Tree)
    (captions : ∀ caption ∈ tree.captions, Allowed (.text caption)) :
    ∀ line ∈ (block policy tree).lines, ∀ piece ∈ line.pieces, Allowed piece := by
  have glyph (connector : Connector) : Allowed (.glyph connector) := marks _ trivial
  intro line member
  refine forall_line_block policy (fun tree line =>
      (∀ caption ∈ tree.captions, Allowed (.text caption)) →
        ∀ piece ∈ line.pieces, Allowed piece)
    ?_ ?_ ?_ ?_ ?_ tree line member captions
  · intro matched captions
    simpa [glyph] using captions
  · intro label children captions
    exact forall_piece_productionLine Allowed marks joins label children captions
  · intro label children captions
    simpa [frameHead, glyph] using captions label (by simp)
  · intro label children _ piece edge
    exact marks piece (frameEdge_marks label piece edge)
  · intro label children child lead line among leads below captions piece member
    rcases List.mem_append.mp member with ahead | own
    · rcases leads piece ahead with mark | rfl
      · exact marks piece mark
      · exact captions label (by simp)
    · exact below (fun caption inside =>
        captions caption (captions_of_mem_children among inside)) piece own

theorem forall_piece_lines [TextWidth] (policy : InlinePolicy) (root : Tree)
    (captions : ∀ caption ∈ root.captions, Allowed (.text caption)) :
    ∀ line ∈ root.lines policy, ∀ piece ∈ line.pieces, Allowed piece := by
  cases root with
  | leaf matched =>
      intro line member
      rw [List.mem_singleton.mp member]
      simpa using captions
  | node label children =>
      exact forall_piece_block Allowed marks joins policy (node label children) captions

end Pieces

theorem newline_piece_not_mem_lines [TextWidth] (policy : InlinePolicy) (root : Tree) :
    ∀ line ∈ root.lines policy, .newline ∉ line.pieces := by
  have allowed := forall_piece_lines (fun piece => piece ≠ .newline)
    (by rintro piece mark rfl; exact mark) (by simp) policy root (by simp)
  intro line member inside
  exact allowed line member _ inside rfl

def SingleLine (tree : Tree) : Prop :=
  ∀ caption ∈ tree.captions, '\n' ∉ caption.toList

instance (tree : Tree) : Decidable tree.SingleLine :=
  inferInstanceAs (Decidable (∀ caption ∈ tree.captions, '\n' ∉ caption.toList))

theorem SingleLine.child {label : String} {children : List Tree}
    (plain : (node label children).SingleLine) {child : Tree} (member : child ∈ children) :
    child.SingleLine :=
  fun caption among => plain caption (captions_of_mem_children member among)

end Tree

namespace Glyphs

def SingleLine (glyphs : Glyphs) : Prop :=
  ∀ connector, glyphs.connector connector ≠ '\n'

theorem unicode_singleLine : unicode.SingleLine := by
  intro connector
  cases connector <;> decide

theorem ascii_singleLine : ascii.SingleLine := by
  intro connector
  cases connector <;> decide

end Glyphs

theorem mem_or_exists_of_mem_intercalate {α : Type} {separator : List α} {texts : List (List α)}
    {item : α} (member : item ∈ separator.intercalate texts) :
    item ∈ separator ∨ ∃ text ∈ texts, item ∈ text := by
  induction texts with
  | nil => simp at member
  | cons text rest ih =>
      cases rest with
      | nil => exact .inr ⟨text, by simp, by simpa using member⟩
      | cons next rest =>
          rw [List.intercalate_cons_cons, List.mem_append, List.mem_append] at member
          rcases member with (here | between) | later
          · exact .inr ⟨text, by simp, here⟩
          · exact .inl between
          · refine (ih later).imp_right ?_
            rintro ⟨other, among, inside⟩
            exact ⟨other, List.mem_cons_of_mem _ among, inside⟩

theorem newline_not_mem_intercalate (texts : List (List Char))
    (plain : ∀ text ∈ texts, '\n' ∉ text) : '\n' ∉ [' '].intercalate texts := by
  intro member
  rcases mem_or_exists_of_mem_intercalate member with blank | ⟨text, among, inside⟩
  · simp at blank
  · exact plain text among inside

namespace Tree

theorem newline_not_mem_lines [TextWidth] {glyphs : Glyphs} (plainGlyphs : glyphs.SingleLine)
    (policy : InlinePolicy) (root : Tree) (plain : root.SingleLine) :
    ∀ line ∈ root.lines policy, '\n' ∉ line.pieces.characters glyphs.connector := by
  have allowed := forall_piece_lines (fun piece => '\n' ∉ piece.characters glyphs.connector)
    (by
      intro piece mark
      cases piece with
      | glyph slot => simpa [Piece.characters] using (plainGlyphs slot).symm
      | blank count => simp [Piece.characters]
      | text content => exact mark.elim
      | newline => exact mark.elim)
    (by
      intro texts each
      simp only [Piece.characters, String.toList_intercalate] at each ⊢
      apply newline_not_mem_intercalate
      intro text member
      obtain ⟨original, among, rfl⟩ := List.mem_map.mp member
      exact each original among)
    policy root plain
  intro line member inside
  obtain ⟨piece, among, here⟩ := List.mem_flatMap.mp inside
  exact allowed line member piece among here

end Tree

end ParseView
