import Mathlib.Data.List.Basic
import Mathlib.Data.List.Forall2
import ParseView.Proofs.Margins

/-! The frames of a tree drawing. Under the head of every framed label stands the lower edge of its
frame, which is as wide as the head unless the label takes up no columns. -/

namespace ParseView

open Picture

/-- The lines that the lower edges of frames stand on, each with the line above it. -/
def frames (lines : List (Picture Connector)) : List (Picture Connector × Picture Connector) :=
  (lines.zip lines.tail).filter fun adjacent => .glyph .frameLeft ∈ adjacent.2

def StartsPlain (lines : List (Picture Connector)) : Prop :=
  ∀ line, lines.head? = some line → .glyph .frameLeft ∉ line

section Frames

variable {head edge : Picture Connector} {first second rest : List (Picture Connector)}

@[simp] theorem frames_singleton (line : Picture Connector) : frames [line] = [] := rfl

theorem frames_cons_of_edge (edged : .glyph .frameLeft ∈ edge) :
    frames (head :: edge :: rest) = (head, edge) :: frames (edge :: rest) := by
  simp [frames, edged]

theorem frames_cons_of_plain (plain : .glyph .frameLeft ∉ edge) :
    frames (head :: edge :: rest) = frames (edge :: rest) := by
  simp [frames, plain]

theorem frames_append (plain : StartsPlain second) :
    frames (first ++ second) = frames first ++ frames second := by
  induction first with
  | nil => rfl
  | cons line first ih =>
      cases first with
      | nil =>
          cases second with
          | nil => rfl
          | cons next second => exact frames_cons_of_plain (plain next rfl)
      | cons next first =>
          simp only [List.cons_append] at ih ⊢
          by_cases edged : .glyph .frameLeft ∈ next
          · rw [frames_cons_of_edge edged, frames_cons_of_edge edged, ih, List.cons_append]
          · rw [frames_cons_of_plain edged, frames_cons_of_plain edged, ih]

theorem frames_cons_cons (edged : .glyph .frameLeft ∈ edge) (plain : StartsPlain rest) :
    frames (head :: edge :: rest) = (head, edge) :: frames rest := by
  have apart : frames ([edge] ++ rest) = frames [edge] ++ frames rest := frames_append plain
  rw [frames_cons_of_edge edged]
  exact congrArg _ apart

end Frames

def frameConnectors : List Connector :=
  [.frameOpen, .frameClose, .frameLeft, .frameBranch, .frameFill, .frameRight]

def Unframed (lead : Picture Connector) : Prop :=
  ∀ connector ∈ frameConnectors, .glyph connector ∉ lead

/-- The row is the line behind `columns` columns that no frame stands in. -/
def Leads [TextWidth] (columns : Nat) (row line : Picture Connector) : Prop :=
  ∃ lead, row = lead ++ line ∧ Picture.width lead = columns ∧ Unframed lead

namespace Leads

variable {columns inner : Nat} {row line part : Picture Connector}

theorem trans [TextWidth] (outer : Leads columns row line) (led : Leads inner line part) :
    Leads (columns + inner) row part := by
  obtain ⟨before, rfl, rfl, plain⟩ := outer
  obtain ⟨after, rfl, rfl, plainAfter⟩ := led
  refine ⟨before ++ after, by simp, by simp, ?_⟩
  intro connector member
  rw [List.mem_append, not_or]
  exact ⟨plain connector member, plainAfter connector member⟩

theorem glyph_mem_iff [TextWidth] (led : Leads columns row line) {connector : Connector}
    (framing : connector ∈ frameConnectors) : .glyph connector ∈ row ↔ .glyph connector ∈ line := by
  obtain ⟨lead, rfl, _, plain⟩ := led
  simp [plain connector framing]

theorem width [TextWidth] (led : Leads columns row line) :
    Picture.width row = columns + Picture.width line := by
  obtain ⟨lead, rfl, rfl, _⟩ := led
  exact width_append lead line

theorem glyphAt [TextWidth] (led : Leads columns row line) {before after : Picture Connector}
    {connector : Connector} (split : line = before ++ .glyph connector :: after) :
    GlyphAt row (columns + Picture.width before) connector := by
  obtain ⟨lead, rfl, rfl, _⟩ := led
  exact ⟨lead ++ before, after, by simp [split], by simp⟩

theorem glyphAt_iff [TextWidth] (led : Leads columns row line) (before after : Picture Connector)
    {connector : Connector} (split : line = before ++ .glyph connector :: after)
    (framing : connector ∈ frameConnectors) (ahead : .glyph connector ∉ before)
    (behind : .glyph connector ∉ after) (column : Nat) :
    GlyphAt row column connector ↔ column = columns + Picture.width before := by
  constructor
  · rintro ⟨others, rest, parts, rfl⟩
    obtain ⟨lead, rfl, rfl, plain⟩ := led
    have unframed : .glyph connector ∉ lead ++ before := by
      simp [plain connector framing, ahead]
    rw [split, ← List.append_assoc, List.append_cons_inj_of_notMem unframed behind] at parts
    rw [← parts.1, width_append]
  · rintro rfl
    exact led.glyphAt split

end Leads

theorem forall₂_frames [TextWidth] {columns : Nat} {rows lines : List (Picture Connector)}
    (led : List.Forall₂ (Leads columns) rows lines) :
    List.Forall₂ (fun shown frame => Leads columns shown.1 frame.1 ∧ Leads columns shown.2 frame.2)
      (frames rows) (frames lines) := by
  have framing : Connector.frameLeft ∈ frameConnectors := by decide
  induction led with
  | nil => exact .nil
  | cons first later ih =>
      cases later with
      | nil => exact .nil
      | @cons edge line _ _ below _ =>
          by_cases edged : .glyph .frameLeft ∈ line
          · rw [frames_cons_of_edge edged,
              frames_cons_of_edge ((below.glyph_mem_iff framing).mpr edged)]
            exact .cons ⟨first, below⟩ ih
          · rw [frames_cons_of_plain edged,
              frames_cons_of_plain (mt (below.glyph_mem_iff framing).mp edged)]
            exact ih

def IsFrame [TextWidth] (label : String) (frame : Picture Connector × Picture Connector) : Prop :=
  ∃ columns, Leads columns frame.1 (Tree.frameHead label) ∧
    Leads columns frame.2 (Tree.frameEdge label)

theorem forall₂_isFrame [TextWidth] {columns : Nat} {rows lines : List (Picture Connector)}
    (led : List.Forall₂ (Leads columns) rows lines) {labels : List String}
    (framed : List.Forall₂ IsFrame labels (frames lines)) :
    List.Forall₂ IsFrame labels (frames rows) := by
  have shown := forall₂_frames led
  generalize frames rows = outer at *
  generalize frames lines = inner at *
  induction framed generalizing outer with
  | nil =>
      rw [List.forall₂_nil_right_iff.mp shown]
      exact .nil
  | cons frame _ ih =>
      obtain ⟨_, _, here, later, rfl⟩ := List.forall₂_cons_right_iff.mp shown
      obtain ⟨start, head, edge⟩ := frame
      exact .cons ⟨columns + start, here.1.trans head, here.2.trans edge⟩ (ih _ later)

theorem Block.leads_hang [TextWidth] (block : Block) (head tail : Picture Connector)
    (level : Picture.width tail = Picture.width head) (plainHead : Unframed head)
    (plainTail : Unframed tail) :
    List.Forall₂ (Leads (Picture.width head)) ((block.hang head tail).lines.map BlockLine.pieces)
      (block.lines.map BlockLine.pieces) := by
  refine .cons ⟨head, rfl, rfl, plainHead⟩ ?_
  simp only [hang, List.map_map, List.forall₂_map_left_iff, List.forall₂_map_right_iff,
    List.forall₂_same]
  exact fun line _ => ⟨tail, rfl, level, plainTail⟩

namespace Tree

def framedLabel? (policy : InlinePolicy) : Tree → Option String
  | leaf _ => none
  | node label children => if policy.shape children = .framed then some label else none

def framedLabels (policy : InlinePolicy) (tree : Tree) : List String :=
  tree.preorder.filterMap (framedLabel? policy)

variable (policy : InlinePolicy)

@[simp] theorem framedLabels_leaf (matched : Leaf) : (leaf matched).framedLabels policy = [] := by
  simp [framedLabels, preorder, framedLabel?]

theorem framedLabels_of_framed {label : String} {children : List Tree}
    (shape : policy.shape children = .framed) :
    (node label children).framedLabels policy =
      label :: children.flatMap (framedLabels policy) := by
  rw [framedLabels, preorder_node, List.filterMap_cons_some (by simp [framedLabel?, shape]; rfl),
    List.filterMap_flatMap]
  rfl

theorem framedLabels_of_frameless {label : String} {children : List Tree}
    (shape : policy.shape children ≠ .framed) :
    (node label children).framedLabels policy = children.flatMap (framedLabels policy) := by
  rw [framedLabels, preorder_node, List.filterMap_cons_none (by simp [framedLabel?, shape]),
    List.filterMap_flatMap]
  rfl

theorem frameLeft_not_mem_first [TextWidth] (tree : Tree) :
    .glyph .frameLeft ∉ (block policy tree).first.pieces := by
  induction tree with
  | leaf matched => simp [block]
  | node label children ih =>
      cases shape : policy.shape children with
      | production =>
          rw [block_of_production policy shape]
          cases children <;> simp [productionLine]
      | inlined =>
          obtain ⟨only, rfl⟩ := InlinePolicy.exists_only_of_inlined shape
          rw [block_of_inlined policy shape]
          simpa [Block.hang] using ih only (by simp)
      | framed =>
          rw [block_of_framed policy shape]
          simp [frameHead]

def DrawsFrames [TextWidth] (tree : Tree) : Prop :=
  List.Forall₂ IsFrame (tree.framedLabels policy)
    (frames ((block policy tree).lines.map BlockLine.pieces))

theorem startsPlain_branched [TextWidth] (children : List Tree) :
    StartsPlain ((Block.branched (children.map (block policy))).map BlockLine.pieces) := by
  intro line starts
  match children with
  | [] => simp [Block.branched] at starts
  | [last] =>
      simp only [List.map_cons, List.map_nil, Block.branched, Block.lines, Block.hang,
        List.head?_cons, Option.some.injEq] at starts
      subst starts
      simp [frameLeft_not_mem_first policy last]
  | child :: next :: rest =>
      simp only [List.map_cons, Block.branched, Block.lines, Block.hang, List.cons_append,
        List.head?_cons, Option.some.injEq] at starts
      subst starts
      simp [frameLeft_not_mem_first policy child]

theorem forall₂_branched [TextWidth] (children : List Tree)
    (each : ∀ child ∈ children, DrawsFrames policy child) :
    List.Forall₂ IsFrame (children.flatMap (framedLabels policy))
      (frames ((Block.branched (children.map (block policy))).map BlockLine.pieces)) := by
  induction children with
  | nil => exact .nil
  | cons child rest ih =>
      have drawn := each child (by simp)
      cases rest with
      | nil =>
          have led := (block policy child).leads_hang [.blank 1, .glyph .last] [.blank 2] rfl
            (by simp [Unframed, frameConnectors]) (by simp [Unframed])
          simpa [Block.branched] using forall₂_isFrame led drawn
      | cons next rest =>
          have led := (block policy child).leads_hang [.blank 1, .glyph .middle]
            [.blank 1, .glyph .vertical] rfl (by simp [Unframed, frameConnectors])
            (by simp [Unframed, frameConnectors])
          have later := ih fun other member => each other (by simp [member])
          rw [List.map_cons, List.map_cons, Block.branched, List.map_append, ← List.map_cons,
            frames_append (startsPlain_branched policy (next :: rest)), List.flatMap_cons]
          exact List.rel_append (forall₂_isFrame led drawn) later

theorem drawsFrames [TextWidth] (tree : Tree) : DrawsFrames policy tree := by
  induction tree with
  | leaf matched => simp [DrawsFrames, Block.lines, block]
  | node label children ih =>
      rw [DrawsFrames]
      cases shape : policy.shape children with
      | production =>
          have unframed : children.flatMap (framedLabels policy) = [] := by
            rw [List.flatMap_eq_nil_iff]
            intro child member
            have flat := InlinePolicy.leaves_of_production shape child member
            obtain ⟨matched, rfl⟩ := (isNode_eq_false_iff child).mp flat
            exact framedLabels_leaf policy matched
          rw [framedLabels_of_frameless policy (by simp [shape]), block_of_production policy shape,
            unframed]
          exact .nil
      | inlined =>
          obtain ⟨only, rfl⟩ := InlinePolicy.exists_only_of_inlined shape
          -- What an inlined label puts before the lines of its child has no frame glyphs in it.
          have led := (block policy only).leads_hang
            [.glyph .leaf, .text label, .glyph .oneChild] [.blank (displayWidth label + 2)]
            (by simp only [width_cons, width_nil, Piece.width]; omega)
            (by simp [Unframed, frameConnectors]) (by simp [Unframed])
          rw [framedLabels_of_frameless policy (by simp [shape]), block_of_inlined policy shape]
          simpa using forall₂_isFrame led (ih only (by simp))
      | framed =>
          have edged : .glyph .frameLeft ∈ frameEdge label := by simp [frameEdge]
          have below := forall₂_branched policy children ih
          have bare {line : Picture Connector} : Leads 0 line line :=
            ⟨[], rfl, rfl, by simp [Unframed]⟩
          rw [framedLabels_of_framed policy shape, block_of_framed policy shape, Block.lines,
            List.map_cons, List.map_cons,
            frames_cons_cons edged (startsPlain_branched policy children)]
          exact .cons ⟨0, bare, bare⟩ below

theorem unframed_margin (gutter : Option Gutter) (shown : Option Position) :
    Unframed (margin gutter shown) := by
  intro connector _
  cases gutter with
  | none => simp [margin]
  | some gutter => cases shown <;> simp [margin, Gutter.pieces]

theorem forall₂_leads_lines [TextWidth] (style : TreeStyle) (root : Tree) :
    List.Forall₂ (Leads (root.marginWidth style)) (root.picture style).lines
      ((root.lines style.policy).map BlockLine.pieces) := by
  rw [lines_picture, List.forall₂_map_left_iff, List.forall₂_map_right_iff, List.forall₂_same]
  intro line member
  exact ⟨margin (root.gutterOf style) line.position, rfl,
    width_margin_of_mem_lines style root line member, unframed_margin _ _⟩

theorem forall₂_isFrame_picture [TextWidth] (style : TreeStyle) (root : Tree) :
    List.Forall₂ IsFrame (root.framedLabels style.policy) (frames (root.picture style).lines) := by
  refine forall₂_isFrame (forall₂_leads_lines style root) ?_
  cases root with
  | leaf matched => simp [lines]
  | node label children => exact drawsFrames style.policy (node label children)

end Tree

/-- Where the frame of a label stands whose left side is in the column `start`. The lower edge is
drawn as under a label of one column where the label takes up none. -/
structure Encloses [TextWidth] (label : String) (start : Nat) (head edge : Picture Connector) :
    Prop where
  inscribed : ∃ lead, head = lead ++ [.glyph .frameOpen, .text label, .glyph .frameClose]
  opens : ∀ column, GlyphAt head column .frameOpen ↔ column = start
  closes : ∀ column, GlyphAt head column .frameClose ↔ column = start + displayWidth label + 1
  left : ∀ column, GlyphAt edge column .frameLeft ↔ column = start
  branch : ∀ column, GlyphAt edge column .frameBranch ↔ column = start + 1
  fill : ∀ column, start + 2 ≤ column → column ≤ start + displayWidth label →
    GlyphAt edge column .frameFill
  right : ∀ column, GlyphAt edge column .frameRight ↔
    column = start + max (displayWidth label) 1 + 1
  headWidth : Picture.width head = start + displayWidth label + 2
  edgeWidth : Picture.width edge = start + max (displayWidth label) 1 + 2

def Closes [TextWidth] (head edge : Picture Connector) : Prop :=
  Picture.width edge = Picture.width head ∧
    ∀ column, GlyphAt head column .frameClose ↔ GlyphAt edge column .frameRight

section Columns

variable {label : String} {start : Nat} {head edge : Picture Connector}

theorem width_frameHead [TextWidth] (label : String) :
    Picture.width (Tree.frameHead label) = displayWidth label + 2 := by
  simp only [Tree.frameHead, width_cons, width_nil, Piece.width]
  omega

theorem width_frameEdge [TextWidth] (label : String) :
    Picture.width (Tree.frameEdge label) = max (displayWidth label) 1 + 2 := by
  simp only [Tree.frameEdge, width_append, width_cons, width_nil, width_replicate_glyph,
    Piece.width]
  omega

theorem glyphAt_frameFill [TextWidth] (lower : Leads start edge (Tree.frameEdge label))
    {column : Nat} (after : start + 2 ≤ column) (within : column ≤ start + displayWidth label) :
    GlyphAt edge column .frameFill := by
  obtain ⟨before, rfl⟩ : ∃ before, column = start + 2 + before := ⟨column - start - 2, by omega⟩
  obtain ⟨behind, filled⟩ : ∃ behind, displayWidth label - 1 = before + (behind + 1) :=
    ⟨displayWidth label - 2 - before, by omega⟩
  have split : Tree.frameEdge label =
      ([.glyph .frameLeft, .glyph .frameBranch] ++ List.replicate before (.glyph .frameFill)) ++
        .glyph .frameFill :: (List.replicate behind (.glyph .frameFill) ++
          [.glyph .frameRight]) := by
    rw [Tree.frameEdge, filled, ← List.replicate_append_replicate, List.replicate_succ]
    simp
  have shown := lower.glyphAt split
  rwa [width_append, width_replicate_glyph, ← Nat.add_assoc] at shown

theorem encloses_of_leads [TextWidth] (upper : Leads start head (Tree.frameHead label))
    (lower : Leads start edge (Tree.frameEdge label)) : Encloses label start head edge where
  inscribed := by
    obtain ⟨lead, same, _, _⟩ := upper
    exact ⟨lead, same⟩
  opens := upper.glyphAt_iff [] [.text label, .glyph .frameClose] rfl (by decide) (by simp)
    (by simp)
  closes := by
    intro column
    rw [upper.glyphAt_iff [.glyph .frameOpen, .text label] [] rfl (by decide) (by simp) (by simp)]
    simp only [width_cons, width_nil, Piece.width]
    omega
  left := lower.glyphAt_iff []
    (.glyph .frameBranch :: (List.replicate (displayWidth label - 1) (.glyph .frameFill) ++
      [.glyph .frameRight])) rfl (by decide) (by simp) (by simp)
  branch := lower.glyphAt_iff [.glyph .frameLeft]
    (List.replicate (displayWidth label - 1) (.glyph .frameFill) ++ [.glyph .frameRight]) rfl
    (by decide) (by simp) (by simp)
  fill := fun _ => glyphAt_frameFill lower
  right := by
    intro column
    rw [lower.glyphAt_iff ([.glyph .frameLeft, .glyph .frameBranch] ++
      List.replicate (displayWidth label - 1) (.glyph .frameFill)) [] rfl (by decide) (by simp)
      (by simp)]
    simp only [width_append, width_cons, width_nil, width_replicate_glyph, Piece.width]
    omega
  headWidth := by rw [upper.width, width_frameHead, Nat.add_assoc]
  edgeWidth := by rw [lower.width, width_frameEdge, Nat.add_assoc]

theorem Encloses.closes_iff [TextWidth] (enclosed : Encloses label start head edge) :
    Closes head edge ↔ displayWidth label ≠ 0 := by
  have widths : Picture.width edge = Picture.width head ↔ displayWidth label ≠ 0 := by
    rw [enclosed.headWidth, enclosed.edgeWidth]
    omega
  rw [Closes, widths, and_iff_left_iff_imp]
  intro wide column
  rw [enclosed.closes, enclosed.right]
  omega

end Columns

/-- The frames of a drawing are those of the framed labels of the tree, in order. Each of them
closes unless its label takes up no columns. -/
theorem frames_enclose [TextWidth] (style : TreeStyle) (root : Tree) :
    ofLines (root.picture style).lines = root.picture style ∧
      List.Forall₂
        (fun label frame => (∃ start, Encloses label start frame.1 frame.2) ∧
          (Closes frame.1 frame.2 ↔ displayWidth label ≠ 0))
        (root.framedLabels style.policy) (frames (root.picture style).lines) := by
  refine ⟨Tree.ofLines_lines_picture style root, ?_⟩
  refine (Tree.forall₂_isFrame_picture style root).imp ?_
  rintro label ⟨head, edge⟩ ⟨start, upper, lower⟩
  have enclosed := encloses_of_leads upper lower
  exact ⟨⟨start, enclosed⟩, enclosed.closes_iff⟩

section

open scoped OneColumnEach

/-- The frame of an empty label does not close. -/
theorem frame_of_empty_label :
    let root := Tree.node "" [.leaf ⟨"x", none⟩]
    root.framedLabels .never = [""] ∧
      ∃ frame ∈ frames (root.picture ⟨.never, false⟩).lines,
        Picture.width frame.1 = 2 ∧ Picture.width frame.2 = 3 ∧ ¬Closes frame.1 frame.2 := by
  intro root
  refine ⟨by decide, ?_⟩
  refine ⟨([.glyph .frameOpen, .text "", .glyph .frameClose],
    [.glyph .frameLeft, .glyph .frameBranch, .glyph .frameRight]), by decide, rfl, rfl, ?_⟩
  exact fun closed => absurd closed.1 (by decide)

end

end ParseView
