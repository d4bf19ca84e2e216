import ParseView.Proofs.Margins

/-! The drawn text of a node, line by line, from the drawn texts of its children. -/

namespace ParseView

open Picture

namespace Tree

def hangLines (head tail : List Char) : List (List Char) → List (List Char)
  | [] => []
  | first :: rest => (head ++ first) :: rest.map (tail ++ ·)

def branchedLines (glyphs : Glyphs) : List (List (List Char)) → List (List Char)
  | [] => []
  | [last] => hangLines [' ', glyphs.connector .last] [' ', ' '] last
  | child :: next :: rest =>
      hangLines [' ', glyphs.connector .middle] [' ', glyphs.connector .vertical] child ++
        branchedLines glyphs (next :: rest)

def drawnLines [TextWidth] (glyphs : Glyphs) (policy : InlinePolicy) (root : Tree) : List
    (List Char) :=
  ((root.draw glyphs ⟨policy, false⟩).toList.splitOn '\n').dropLast

def blockLines (glyphs : Glyphs) (block : Block) : List (List Char) :=
  block.lines.map fun line => line.pieces.characters glyphs.connector

theorem blockLines_hang (glyphs : Glyphs) (head tail : Picture Connector) (block : Block) :
    blockLines glyphs (block.hang head tail) =
      hangLines (head.characters glyphs.connector) (tail.characters glyphs.connector)
        (blockLines glyphs block) := by
  simp [blockLines, Block.lines, Block.hang, hangLines]

theorem blockLines_branched (glyphs : Glyphs) (blocks : List Block) :
    (Block.branched blocks).map (fun line => line.pieces.characters glyphs.connector) =
      branchedLines glyphs (blocks.map (blockLines glyphs)) := by
  induction blocks with
  | nil => rfl
  | cons block rest ih =>
      cases rest with
      | nil => exact blockLines_hang glyphs _ _ block
      | cons next rest =>
          have hung := blockLines_hang glyphs [.blank 1, .glyph .middle]
            [.blank 1, .glyph .vertical] block
          rw [blockLines] at hung
          rw [Block.branched, List.map_append, ih, hung]
          rfl

theorem blockLines_of_framed [TextWidth] (glyphs : Glyphs) {policy : InlinePolicy} {label : String}
    {children : List Tree} (shape : policy.shape children = .framed) :
    blockLines glyphs (block policy (node label children)) =
      (glyphs.connector .frameOpen :: label.toList ++ [glyphs.connector .frameClose]) ::
        (glyphs.connector .frameLeft :: glyphs.connector .frameBranch ::
          List.replicate (displayWidth label - 1) (glyphs.connector .frameFill) ++
            [glyphs.connector .frameRight]) ::
        branchedLines glyphs ((children.map (block policy)).map (blockLines glyphs)) := by
  rw [block_of_framed policy shape, ← blockLines_branched]
  simp [blockLines, Block.lines, frameHead, frameEdge, Piece.characters,
    characters_replicate_glyph]

theorem map_characters_lines [TextWidth] (glyphs : Glyphs) (policy : InlinePolicy) (root : Tree) :
    (root.picture ⟨policy, false⟩).lines.map (characters glyphs.connector) =
      (root.lines policy).map fun line => line.pieces.characters glyphs.connector := by
  rw [lines_picture, List.map_map]
  rfl

section

variable {glyphs : Glyphs} (plainGlyphs : glyphs.SingleLine)
include plainGlyphs

theorem drawnLines_eq [TextWidth] (policy : InlinePolicy) (root : Tree) (plain : root.SingleLine) :
    drawnLines glyphs policy root =
      (root.lines policy).map fun line => line.pieces.characters glyphs.connector := by
  rw [drawnLines, splitOn_draw plainGlyphs _ root plain, List.dropLast_concat,
    map_characters_lines]

end

section

open scoped OneColumnEach

example : (node "stmt" [node "expr" [leaf ⟨"1", none⟩, node "none" []]]).draw .unicode
    ⟨.always, false⟩ = "╴stmt╶╮expr╭\n      ╰┬───╯\n       ├╴1\n       ╰╴none\n" := by decide

end

end Tree

end ParseView
