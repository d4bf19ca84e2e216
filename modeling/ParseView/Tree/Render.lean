import ParseView.Tree.Layout

/-! Writing the drawing of a tree while the tree is walked. A write that fails ends the walk. -/

namespace ParseView.Tree

open Picture

section Writing

variable {m : Type → Type} [Monad m] (put : String → m Unit) (fill : Connector → Char)

def writeMargin (gutter : Option Gutter) (position : Option Position) : m Unit :=
  match gutter with
  | some gutter => writeTo put fill (gutter.pieces position)
  | none => pure ()

def writeProduction (label : String) (children : List Tree) : m Unit := do
  writeTo put fill [.glyph .leaf, .text label]
  unless children.isEmpty do
    writeTo put fill [.glyph .oneChild, .glyph .leaf, .text (leafTexts children)]
  writeTo put fill [.newline]

theorem writeMargin_eq (gutter : Option Gutter) (position : Option Position) :
    writeMargin put fill gutter position = writeTo put fill (margin gutter position) := by
  cases gutter <;> rfl

theorem writeProduction_eq [LawfulMonad m] (label : String) (children : List Tree) :
    writeProduction put fill label children =
      writeTo put fill (productionPieces label children) := by
  cases children <;> simp [writeProduction, productionPieces]

variable [TextWidth]

def writeFrame (gutter : Option Gutter) (indent : Picture Connector) (label : String) :
    m Unit := do
  writeTo put fill [.glyph .frameOpen, .text label, .glyph .frameClose, .newline]
  writeMargin put fill gutter none
  writeTo put fill (indent ++ [.glyph .frameLeft, .glyph .frameBranch] ++
    List.replicate (displayWidth label - 1) (.glyph .frameFill) ++ [.glyph .frameRight, .newline])

mutual
def writeTree (policy : InlinePolicy) (gutter : Option Gutter) (indent : Picture Connector) :
    Tree → m Unit
  | leaf matched => writeTo put fill [.glyph .leaf, .text matched.text, .newline]
  | node label children =>
      match policy.shape children with
      | .production => writeProduction put fill label children
      | .inlined => do
          writeTo put fill [.glyph .leaf, .text label, .glyph .oneChild]
          writeStacked policy gutter (indent ++ [.blank (displayWidth label + 2)]) children
      | .framed => do
          writeFrame put fill gutter indent label
          writeBranches policy gutter indent children

def writeStacked (policy : InlinePolicy) (gutter : Option Gutter) (indent : Picture Connector) :
    List Tree → m Unit
  | [] => pure ()
  | child :: rest => do
      writeTree policy gutter indent child
      writeStacked policy gutter indent rest

def writeBranches (policy : InlinePolicy) (gutter : Option Gutter) (indent : Picture Connector) :
    List Tree → m Unit
  | [] => pure ()
  | [last] => do
      writeMargin put fill gutter last.position
      writeTo put fill (indent ++ [.blank 1, .glyph .last])
      writeTree policy gutter (indent ++ [.blank 2]) last
  | child :: next :: rest => do
      writeMargin put fill gutter child.position
      writeTo put fill (indent ++ [.blank 1, .glyph .middle])
      writeTree policy gutter (indent ++ [.blank 1, .glyph .vertical]) child
      writeBranches policy gutter indent (next :: rest)
end

def render (glyphs : Glyphs) (style : TreeStyle) (root : Tree) : m Unit := do
  let gutter := if style.positions then some (Gutter.fit root) else none
  writeMargin put glyphs.connector gutter root.position
  match root with
  | leaf matched => writeTo put glyphs.connector [.text matched.text, .newline]
  | node label children =>
      writeTree put glyphs.connector style.policy gutter [] (node label children)

variable [LawfulMonad m]

theorem writeFrame_eq (gutter : Option Gutter) (indent : Picture Connector) (label : String) :
    writeFrame put fill gutter indent label =
      writeTo put fill (framePieces gutter indent label) := by
  simp only [writeFrame, framePieces, writeMargin_eq, writeTo_append, bind_assoc]

mutual
theorem writeTree_eq (policy : InlinePolicy) (gutter : Option Gutter)
    (indent : Picture Connector) : ∀ tree : Tree,
    writeTree put fill policy gutter indent tree =
      writeTo put fill (pieces policy gutter indent tree)
  | leaf _ => rfl
  | node label children => by
      rw [writeTree, pieces]
      cases policy.shape children with
      | production => exact writeProduction_eq put fill label children
      | inlined => simp only [writeStacked_eq, writeTo_append]
      | framed => simp only [writeFrame_eq, writeBranches_eq, writeTo_append]

theorem writeStacked_eq (policy : InlinePolicy) (gutter : Option Gutter)
    (indent : Picture Connector) : ∀ children : List Tree,
    writeStacked put fill policy gutter indent children =
      writeTo put fill (stacked policy gutter indent children)
  | [] => rfl
  | child :: rest => by
      rw [writeStacked, stacked, writeTree_eq, writeStacked_eq, writeTo_append]

theorem writeBranches_eq (policy : InlinePolicy) (gutter : Option Gutter)
    (indent : Picture Connector) : ∀ children : List Tree,
    writeBranches put fill policy gutter indent children =
      writeTo put fill (branches policy gutter indent children)
  | [] => rfl
  | [last] => by
      simp only [writeBranches, branches, writeMargin_eq, writeTree_eq, writeTo_append, bind_assoc]
  | child :: next :: rest => by
      simp only [writeBranches, branches, writeMargin_eq, writeTree_eq,
        writeBranches_eq policy gutter indent (next :: rest), writeTo_append, bind_assoc]
end

/-- What is written is the picture, piece by piece. -/
theorem render_eq (glyphs : Glyphs) (style : TreeStyle) (root : Tree) :
    root.render put glyphs style = (root.picture style).writeTo put glyphs.connector := by
  cases root with
  | leaf matched =>
      simp only [render, picture]
      rw [writeTo_append, writeMargin_eq]
  | node label children =>
      simp only [render, picture]
      rw [writeTo_append, writeMargin_eq, writeTree_eq]

end Writing

end ParseView.Tree
