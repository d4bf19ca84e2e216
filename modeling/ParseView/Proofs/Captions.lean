import ParseView.Tree.Layout

/-! The labels and texts of a tree, and that its drawing shows each of them once and in order. -/

namespace ParseView

namespace Connector

theorem mem_all (connector : Connector) : connector ∈ all := by
  cases connector <;> decide

end Connector

namespace Glyphs

/-- A character that is no blank, no line end and no glyph of a tree drawing. -/
def isContent (glyphs : Glyphs) (character : Char) : Bool :=
  character != ' ' && character != '\n' &&
    Connector.all.all fun connector => glyphs.connector connector != character

variable (glyphs : Glyphs)

@[simp] theorem isContent_blank : glyphs.isContent ' ' = false := by simp [isContent]

@[simp] theorem isContent_newline : glyphs.isContent '\n' = false := by simp [isContent]

@[simp] theorem isContent_connector (connector : Connector) :
    glyphs.isContent (glyphs.connector connector) = false := by
  apply Bool.eq_false_iff.mpr
  intro content
  simp only [isContent, Bool.and_eq_true, List.all_eq_true, bne_iff_ne] at content
  exact content.2 connector connector.mem_all rfl

def ink (picture : Picture Connector) : List Char :=
  (picture.characters glyphs.connector).filter glyphs.isContent

@[simp] theorem ink_nil : glyphs.ink [] = [] := rfl

@[simp] theorem ink_append (first second : Picture Connector) :
    glyphs.ink (first ++ second) = glyphs.ink first ++ glyphs.ink second := by
  simp [ink]

@[simp] theorem ink_glyph (connector : Connector) (rest : Picture Connector) :
    glyphs.ink (.glyph connector :: rest) = glyphs.ink rest := by
  simp [ink, Piece.characters]

@[simp] theorem ink_blank (count : Nat) (rest : Picture Connector) :
    glyphs.ink (.blank count :: rest) = glyphs.ink rest := by
  simp [ink, Piece.characters]

@[simp] theorem ink_newline (rest : Picture Connector) :
    glyphs.ink (.newline :: rest) = glyphs.ink rest := by
  simp [ink, Piece.characters]

@[simp] theorem ink_text (content : String) (rest : Picture Connector) :
    glyphs.ink (.text content :: rest) =
      content.toList.filter glyphs.isContent ++ glyphs.ink rest := by
  simp [ink, Piece.characters]

theorem ink_replicate_glyph (count : Nat) (connector : Connector) :
    glyphs.ink (List.replicate count (.glyph connector)) = [] := by
  induction count with
  | zero => rfl
  | succ count ih => simp [List.replicate_succ, ih]

end Glyphs

namespace Tree

def caption : Tree → String
  | node label _ => label
  | leaf matched => matched.text

def captions (tree : Tree) : List String :=
  tree.preorder.map caption

@[simp] theorem captions_leaf (matched : Leaf) : (leaf matched).captions = [matched.text] := by
  simp [captions, preorder, caption]

@[simp] theorem captions_node (label : String) (children : List Tree) :
    (node label children).captions = label :: children.flatMap captions := by
  simp only [captions, preorder_node, List.map_cons, caption, List.map_flatMap]
  rfl

def content (glyphs : Glyphs) (tree : Tree) : List Char :=
  (tree.captions.flatMap String.toList).filter glyphs.isContent

theorem content_leaf (glyphs : Glyphs) (matched : Leaf) :
    (leaf matched).content glyphs = matched.text.toList.filter glyphs.isContent := by
  simp [content]

theorem content_node (glyphs : Glyphs) (label : String) (children : List Tree) :
    (node label children).content glyphs =
      label.toList.filter glyphs.isContent ++ children.flatMap (content glyphs) := by
  have each : content glyphs = fun child : Tree =>
      child.captions.flatMap fun caption => caption.toList.filter glyphs.isContent := by
    funext child
    rw [content, List.filter_flatMap]
  simp only [each, captions_node, List.flatMap_cons, List.flatMap_assoc]

theorem filter_intercalate (glyphs : Glyphs) (texts : List (List Char)) :
    ([' '].intercalate texts).filter glyphs.isContent =
      texts.flatMap (List.filter glyphs.isContent) := by
  induction texts with
  | nil => rfl
  | cons text rest ih =>
      cases rest with
      | nil => simp
      | cons next rest =>
          rw [List.intercalate_cons_cons, List.filter_append, List.filter_append, ih]
          simp

theorem filter_leafTexts (glyphs : Glyphs) (children : List Tree)
    (leaves : ∀ child ∈ children, child.isNode = false) :
    (leafTexts children).toList.filter glyphs.isContent = children.flatMap (content glyphs) := by
  have texts : (leafTexts children).toList =
      [' '].intercalate ((children.filterMap asLeaf?).map fun matched => matched.text.toList) := by
    simp [leafTexts, List.map_map, Function.comp_def]
  rw [texts, filter_intercalate]
  clear texts
  induction children with
  | nil => rfl
  | cons child rest ih =>
      obtain ⟨matched, rfl⟩ := (isNode_eq_false_iff child).mp (leaves child (by simp))
      have tail := ih (fun other member => leaves other (by simp [member]))
      simp only [List.filterMap_cons, asLeaf?, List.map_cons, List.flatMap_cons, content_leaf, tail]

theorem ink_productionPieces (glyphs : Glyphs) (label : String) (children : List Tree)
    (leaves : ∀ child ∈ children, child.isNode = false) :
    glyphs.ink (productionPieces label children) = (node label children).content glyphs := by
  have texts := filter_leafTexts glyphs children leaves
  rw [content_node, ← texts, productionPieces]
  cases children with
  | nil => simp [leafTexts]
  | cons first rest => simp

variable [TextWidth]

theorem ink_framePieces (glyphs : Glyphs) (indent : Picture Connector) (label : String)
    (unmarked : glyphs.ink indent = []) :
    glyphs.ink (framePieces none indent label) = label.toList.filter glyphs.isContent := by
  simp [framePieces, margin, unmarked, Glyphs.ink_replicate_glyph]

theorem ink_branches (glyphs : Glyphs) (policy : InlinePolicy) (indent : Picture Connector)
    (unmarked : glyphs.ink indent = []) (children : List Tree)
    (each : ∀ child ∈ children, ∀ indent, glyphs.ink indent = [] →
      glyphs.ink (pieces policy none indent child) = child.content glyphs) :
    glyphs.ink (branches policy none indent children) = children.flatMap (content glyphs) := by
  induction children with
  | nil => simp [branches]
  | cons child rest ih =>
      cases rest with
      | nil =>
          simp only [branches, margin, List.nil_append, Glyphs.ink_append, unmarked,
            Glyphs.ink_blank, Glyphs.ink_glyph, Glyphs.ink_nil, List.flatMap_cons,
            List.flatMap_nil, List.append_nil]
          exact each child (by simp) _ (by simp [unmarked])
      | cons next rest =>
          simp only [branches, margin, List.nil_append, Glyphs.ink_append, unmarked,
            Glyphs.ink_blank, Glyphs.ink_glyph, Glyphs.ink_nil, List.flatMap_cons]
          rw [each child (by simp) _ (by simp [unmarked]),
            ih (fun other member => each other (by simp [member])), List.flatMap_cons]

theorem ink_pieces (glyphs : Glyphs) (policy : InlinePolicy) (tree : Tree) :
    ∀ indent, glyphs.ink indent = [] →
      glyphs.ink (pieces policy none indent tree) = tree.content glyphs := by
  -- The indentation grows on the way down, but it never holds content.
  induction tree with
  | leaf matched =>
      intro indent _
      simp [pieces, content_leaf]
  | node label children ih =>
      intro indent unmarked
      rw [pieces]
      cases shape : policy.shape children with
      | production =>
          exact ink_productionPieces glyphs label children
            (InlinePolicy.leaves_of_production shape)
      | inlined =>
          obtain ⟨only, rfl⟩ := InlinePolicy.exists_only_of_inlined shape
          have below := ih only (by simp) (indent ++ [.blank (displayWidth label + 2)])
            (by simp [unmarked])
          simp [stacked, below, content_node]
      | framed =>
          have below := ink_branches glyphs policy indent unmarked children ih
          simp [ink_framePieces glyphs indent label unmarked, below, content_node]

/-- A drawing without margins shows the content of every label and text once, in the order of
the tree, and no other content. So it does under every policy. -/
theorem filter_draw (glyphs : Glyphs) (policy : InlinePolicy) (root : Tree) :
    (root.draw glyphs ⟨policy, false⟩).toList.filter glyphs.isContent =
        (root.captions.flatMap String.toList).filter glyphs.isContent ∧
      ∀ other : InlinePolicy,
        (root.draw glyphs ⟨other, false⟩).toList.filter glyphs.isContent =
          (root.draw glyphs ⟨policy, false⟩).toList.filter glyphs.isContent := by
  have drawn (chosen : InlinePolicy) :
      (root.draw glyphs ⟨chosen, false⟩).toList.filter glyphs.isContent = root.content glyphs := by
    rw [draw, Picture.toList_draw]
    change glyphs.ink (picture ⟨chosen, false⟩ root) = root.content glyphs
    cases root with
    | leaf matched => simp [picture, margin, content_leaf]
    | node label children =>
        simp only [picture, margin, Bool.false_eq_true, ↓reduceIte, List.nil_append]
        exact ink_pieces glyphs chosen (node label children) [] rfl
  exact ⟨drawn policy, fun other => (drawn other).trans (drawn policy).symm⟩

end Tree

end ParseView
