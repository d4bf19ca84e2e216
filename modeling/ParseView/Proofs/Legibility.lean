import ParseView.Proofs.Composition

/-! A drawing without inlining can be read back: it shows the labels, the texts, their order and
their nesting, whatever characters labels and texts are made of. -/

namespace ParseView

namespace Tree

mutual
/-- What can be read off a drawing without inlining. It shows no positions, and a node without
children like a leaf. -/
def outline : Tree → Tree
  | leaf matched => leaf ⟨matched.text, none⟩
  | node label [] => leaf ⟨label, none⟩
  | node label (first :: rest) => node label (outline first :: forestOutline rest)

def forestOutline : List Tree → List Tree
  | [] => []
  | first :: rest => outline first :: forestOutline rest
end

theorem forestOutline_eq_map (forest : List Tree) : forestOutline forest = forest.map outline := by
  induction forest with
  | nil => rfl
  | cons tree rest ih => rw [forestOutline, ih, List.map_cons]

theorem outline_node {children : List Tree} (nonempty : children ≠ []) (label : String) :
    (node label children).outline = node label (children.map outline) := by
  cases children with
  | nil => exact absurd rfl nonempty
  | cons first rest => rw [outline, forestOutline_eq_map, List.map_cons]

def openLines [TextWidth] (glyphs : Glyphs) (tree : Tree) : List (List Char) :=
  blockLines glyphs (block .never tree)

def frameLines [TextWidth] (glyphs : Glyphs) (label : String) : List (List Char) :=
  [glyphs.connector .frameOpen :: label.toList ++ [glyphs.connector .frameClose],
    glyphs.connector .frameLeft :: glyphs.connector .frameBranch ::
      List.replicate (displayWidth label - 1) (glyphs.connector .frameFill) ++
        [glyphs.connector .frameRight]]

section Shapes

variable (glyphs : Glyphs)

theorem openLines_leaf [TextWidth] (matched : Leaf) :
    (leaf matched).openLines glyphs = [glyphs.connector .leaf :: matched.text.toList] := by
  simp [openLines, blockLines, Block.lines, block, Piece.characters]

theorem openLines_childless [TextWidth] (label : String) :
    (node label []).openLines glyphs = [glyphs.connector .leaf :: label.toList] := by
  rw [openLines, block_of_production .never (by simp [InlinePolicy.shape])]
  simp [blockLines, Block.lines, productionLine, Piece.characters]

theorem openLines_node [TextWidth] {children : List Tree} (nonempty : children ≠ [])
    (label : String) :
    (node label children).openLines glyphs =
      frameLines glyphs label ++ branchedLines glyphs (children.map (openLines glyphs)) := by
  rw [openLines, blockLines_of_framed glyphs (InlinePolicy.shape_never nonempty), List.map_map]
  rfl

theorem openLines_forms [TextWidth] (tree : Tree) :
    (∃ text, tree.outline = leaf ⟨text, none⟩ ∧
        tree.openLines glyphs = [glyphs.connector .leaf :: text.toList]) ∨
      ∃ label children, children ≠ [] ∧ tree = node label children := by
  match tree with
  | leaf matched => exact .inl ⟨matched.text, by rw [outline], openLines_leaf glyphs matched⟩
  | node label [] => exact .inl ⟨label, by rw [outline], openLines_childless glyphs label⟩
  | node label (first :: rest) => exact .inr ⟨label, first :: rest, List.cons_ne_nil _ _, rfl⟩

theorem openLines_ne_nil [TextWidth] (tree : Tree) : tree.openLines glyphs ≠ [] := by
  simp [openLines, blockLines, Block.lines]

theorem openLines_outline [TextWidth] (tree : Tree) :
    tree.outline.openLines glyphs = tree.openLines glyphs := by
  induction tree with
  | leaf matched => rw [outline, openLines_leaf, openLines_leaf]
  | node label children ih =>
      by_cases empty : children = []
      · rw [empty, outline, openLines_leaf, openLines_childless]
      · have below : (children.map outline).map (openLines glyphs) =
            children.map (openLines glyphs) := by
          rw [List.map_map]
          exact List.map_congr_left ih
        rw [outline_node empty, openLines_node glyphs (by simpa using empty), below,
          openLines_node glyphs empty]

end Shapes

end Tree

namespace Glyphs

/-- The glyphs that a reader has to tell apart: a branch to the last child or to an earlier one,
and the line that goes on past the lines of a child. -/
structure Legible (glyphs : Glyphs) : Prop where
  middle_ne_last : glyphs.connector .middle ≠ glyphs.connector .last
  vertical_ne_middle : glyphs.connector .vertical ≠ glyphs.connector .middle
  vertical_ne_last : glyphs.connector .vertical ≠ glyphs.connector .last

theorem unicode_legible : unicode.Legible := by
  constructor <;> decide

theorem ascii_legible : ascii.Legible := by
  constructor <;> decide

end Glyphs

namespace Tree

def StartsAnew (tail : List Char) (lines : List (List Char)) : Prop :=
  ∀ line ∈ lines.head?, ¬tail <+: line

theorem map_append_inj {tail : List Char} {first second above below : List (List Char)}
    (aboveAnew : StartsAnew tail above) (belowAnew : StartsAnew tail below)
    (same : first.map (tail ++ ·) ++ above = second.map (tail ++ ·) ++ below) :
    first = second ∧ above = below := by
  induction first generalizing second with
  | nil =>
      cases second with
      | nil => exact ⟨rfl, same⟩
      | cons line rest =>
          have goesOn : above = (tail ++ line) :: _ := same
          exact absurd (List.prefix_append tail line) (aboveAnew _ (by simp [goesOn]))
  | cons line rest ih =>
      cases second with
      | nil =>
          have goesOn : (tail ++ line) :: _ = below := same
          exact absurd (List.prefix_append tail line) (belowAnew _ (by simp [← goesOn]))
      | cons other others =>
          simp only [List.map_cons, List.cons_append, List.cons.injEq,
            List.append_cancel_left_eq] at same
          obtain ⟨rfl, later⟩ := ih same.2
          exact ⟨by rw [same.1], later⟩

theorem hangLines_append_inj {head tail : List Char} {first second above below : List (List Char)}
    (firstDrawn : first ≠ []) (secondDrawn : second ≠ [])
    (aboveAnew : StartsAnew tail above) (belowAnew : StartsAnew tail below)
    (same : hangLines head tail first ++ above = hangLines head tail second ++ below) :
    first = second ∧ above = below := by
  obtain ⟨line, rest, rfl⟩ := List.exists_cons_of_ne_nil firstDrawn
  obtain ⟨other, others, rfl⟩ := List.exists_cons_of_ne_nil secondDrawn
  simp only [hangLines, List.cons_append, List.cons.injEq, List.append_cancel_left_eq] at same
  obtain ⟨rfl, later⟩ := map_append_inj aboveAnew belowAnew same.2
  exact ⟨by rw [same.1], later⟩

section Reading

variable (glyphs : Glyphs)

def branchHead (rest : List (List (List Char))) : List Char :=
  [' ', glyphs.connector (if rest.isEmpty then .last else .middle)]

def branchTail (rest : List (List (List Char))) : List Char :=
  [' ', if rest.isEmpty then ' ' else glyphs.connector .vertical]

theorem branchedLines_cons (child : List (List Char)) (rest : List (List (List Char))) :
    branchedLines glyphs (child :: rest) =
      hangLines (branchHead glyphs rest) (branchTail glyphs rest) child ++
        branchedLines glyphs rest := by
  cases rest with
  | nil => simp [branchedLines, branchHead, branchTail]
  | cons next rest => simp [branchedLines, branchHead, branchTail]

theorem head?_branchedLines {child : List (List Char)} (drawn : child ≠ [])
    (rest : List (List (List Char))) :
    ∃ line,
      (branchedLines glyphs (child :: rest)).head? = some (branchHead glyphs rest ++ line) := by
  obtain ⟨line, lines, rfl⟩ := List.exists_cons_of_ne_nil drawn
  exact ⟨line, by simp [branchedLines_cons, hangLines]⟩

variable {glyphs} (legible : glyphs.Legible)
include legible

theorem isEmpty_of_branchHead_eq {rest others : List (List (List Char))}
    (same : branchHead glyphs rest = branchHead glyphs others) : rest.isEmpty = others.isEmpty := by
  cases ended : rest.isEmpty <;> cases otherEnded : others.isEmpty <;>
    simp [branchHead, ended, otherEnded, legible.middle_ne_last,
      legible.middle_ne_last.symm] at same ⊢

theorem startsAnew_branchedLines {children : List (List (List Char))}
    (drawn : ∀ child ∈ children, child ≠ []) :
    StartsAnew (branchTail glyphs children) (branchedLines glyphs children) := by
  intro line first continued
  cases children with
  | nil => simp [branchedLines] at first
  | cons child rest =>
      obtain ⟨content, shown⟩ := head?_branchedLines glyphs (drawn child (by simp)) rest
      obtain rfl : branchHead glyphs rest ++ content = line := by simpa [shown] using first
      cases ended : rest.isEmpty <;>
        simp [branchHead, branchTail, ended, legible.vertical_ne_last,
          legible.vertical_ne_middle] at continued

/-- The lines of children on their branches fall apart into those of each child. -/
theorem branchedLines_injective {first second : List (List (List Char))}
    (firstDrawn : ∀ child ∈ first, child ≠ []) (secondDrawn : ∀ child ∈ second, child ≠ [])
    (same : branchedLines glyphs first = branchedLines glyphs second) : first = second := by
  induction first generalizing second with
  | nil =>
      cases second with
      | nil => rfl
      | cons other others =>
          obtain ⟨line, shown⟩ := head?_branchedLines glyphs (secondDrawn other (by simp)) others
          simp [← same, branchedLines] at shown
  | cons child rest ih =>
      obtain ⟨line, shown⟩ := head?_branchedLines glyphs (firstDrawn child (by simp)) rest
      cases second with
      | nil => simp [same, branchedLines] at shown
      | cons other others =>
          obtain ⟨otherLine, otherShown⟩ :=
            head?_branchedLines glyphs (secondDrawn other (by simp)) others
          -- The branch to a child tells whether it is the last one.
          have ended : rest.isEmpty = others.isEmpty := by
            rw [same, otherShown, Option.some.injEq] at shown
            exact isEmpty_of_branchHead_eq legible
              (List.append_inj_left shown (by rfl)).symm
          have tails : branchTail glyphs rest = branchTail glyphs others := by
            rw [branchTail, branchTail, ended]
          have heads : branchHead glyphs rest = branchHead glyphs others := by
            rw [branchHead, branchHead, ended]
          have restDrawn : ∀ child ∈ rest, child ≠ [] :=
            fun child member => firstDrawn child (by simp [member])
          have othersDrawn : ∀ child ∈ others, child ≠ [] :=
            fun child member => secondDrawn child (by simp [member])
          rw [branchedLines_cons, branchedLines_cons, heads, tails] at same
          obtain ⟨rfl, later⟩ := hangLines_append_inj (firstDrawn _ (by simp))
            (secondDrawn _ (by simp)) (tails ▸ startsAnew_branchedLines legible restDrawn)
            (startsAnew_branchedLines legible othersDrawn) same
          rw [ih restDrawn othersDrawn later]

end Reading

section Outlines

variable {glyphs : Glyphs}

theorem outline_of_openLines_flat [TextWidth] {tree : Tree} {text : String}
    (flat : tree.openLines glyphs = [glyphs.connector .leaf :: text.toList]) :
    tree.outline = leaf ⟨text, none⟩ := by
  rcases openLines_forms glyphs tree with
    ⟨other, outlined, shown⟩ | ⟨label, children, nonempty, rfl⟩
  · rw [flat, List.singleton_inj, List.cons.injEq, String.toList_inj] at shown
    rw [outlined, shown.2]
  · rw [openLines_node glyphs nonempty] at flat
    simp [frameLines] at flat

theorem frameLines_append_inj [TextWidth] {label other : String}
    {below otherBelow : List (List Char)}
    (same : frameLines glyphs label ++ below = frameLines glyphs other ++ otherBelow) :
    label = other ∧ below = otherBelow := by
  obtain ⟨frames, later⟩ := List.append_inj same rfl
  refine ⟨?_, later⟩
  simpa [frameLines, String.toList_inj] using congrArg List.head? frames

theorem map_outline_of_openLines [TextWidth] {children others : List Tree}
    (each : ∀ child ∈ children, ∀ other : Tree,
      child.openLines glyphs = other.openLines glyphs → child.outline = other.outline)
    (same : children.map (openLines glyphs) = others.map (openLines glyphs)) :
    children.map outline = others.map outline := by
  induction children generalizing others with
  | nil => simp_all
  | cons child rest ih =>
      cases others with
      | nil => simp at same
      | cons other others =>
          rw [List.map_cons, List.map_cons, List.cons.injEq] at same
          rw [List.map_cons, List.map_cons, each child (by simp) other same.1,
            ih (fun inner member => each inner (by simp [member])) same.2]

theorem drawn_of_mem_map [TextWidth] {children : List Tree} :
    ∀ lines ∈ children.map (openLines glyphs), lines ≠ [] := by
  intro lines member
  obtain ⟨child, _, rfl⟩ := List.mem_map.mp member
  exact openLines_ne_nil glyphs child

theorem outline_eq_of_openLines [TextWidth] (legible : glyphs.Legible) (first second : Tree)
    (same : first.openLines glyphs = second.openLines glyphs) : first.outline = second.outline := by
  induction first generalizing second with
  | leaf matched =>
      rw [openLines_leaf] at same
      rw [outline, outline_of_openLines_flat same.symm]
  | node label children ih =>
      by_cases empty : children = []
      · rw [empty, openLines_childless] at same
        rw [empty, outline, outline_of_openLines_flat same.symm]
      · rcases openLines_forms glyphs second with
          ⟨text, outlined, flat⟩ | ⟨other, others, nonempty, rfl⟩
        · rw [outlined, outline_of_openLines_flat (same.trans flat)]
        · rw [openLines_node glyphs empty, openLines_node glyphs nonempty] at same
          obtain ⟨rfl, below⟩ := frameLines_append_inj same
          have each := branchedLines_injective legible drawn_of_mem_map drawn_of_mem_map below
          rw [outline_node empty, outline_node nonempty, map_outline_of_openLines ih each]

theorem openLines_eq_iff [TextWidth] (legible : glyphs.Legible) (first second : Tree) :
    first.openLines glyphs = second.openLines glyphs ↔ first.outline = second.outline := by
  constructor
  · exact outline_eq_of_openLines legible first second
  · intro same
    rw [← openLines_outline glyphs first, same, openLines_outline]

theorem splitOn_draw_never [TextWidth] (plainGlyphs : glyphs.SingleLine) {root : Tree}
    (node : root.isNode = true) (plain : root.SingleLine) :
    (root.draw glyphs ⟨.never, false⟩).toList.splitOn '\n' = root.openLines glyphs ++ [[]] := by
  rw [splitOn_draw plainGlyphs _ root plain, map_characters_lines]
  cases root with
  | leaf matched => simp [isNode] at node
  | node label children => rfl

theorem draw_never_eq_iff_openLines [TextWidth] (plainGlyphs : glyphs.SingleLine)
    {first second : Tree} (firstNode : first.isNode = true) (secondNode : second.isNode = true)
    (firstPlain : first.SingleLine) (secondPlain : second.SingleLine) :
    first.draw glyphs ⟨.never, false⟩ = second.draw glyphs ⟨.never, false⟩ ↔
      first.openLines glyphs = second.openLines glyphs := by
  rw [← List.append_left_inj [[]], ← splitOn_draw_never plainGlyphs firstNode firstPlain,
    ← splitOn_draw_never plainGlyphs secondNode secondPlain]
  constructor
  · intro same
    rw [same]
  · intro same
    have joined := congrArg (['\n'].intercalate ·) same
    simpa [List.intercalate_splitOn, String.toList_inj] using joined

end Outlines

/-- Without inlining and without margins, two nodes are drawn alike just if they have the same
outline, in either of the built-in character sets and whatever characters their labels and texts
hold besides line ends. -/
theorem draw_never_eq_iff [TextWidth] (glyphs : Glyphs)
    (preset : glyphs = .unicode ∨ glyphs = .ascii)
    (first second : Tree) (firstNode : first.isNode = true) (secondNode : second.isNode = true)
    (firstPlain : first.SingleLine) (secondPlain : second.SingleLine) :
    first.draw glyphs ⟨.never, false⟩ = second.draw glyphs ⟨.never, false⟩ ↔
      first.outline = second.outline := by
  have readable : glyphs.SingleLine ∧ glyphs.Legible := by
    rcases preset with rfl | rfl
    · exact ⟨Glyphs.unicode_singleLine, Glyphs.unicode_legible⟩
    · exact ⟨Glyphs.ascii_singleLine, Glyphs.ascii_legible⟩
  rw [draw_never_eq_iff_openLines readable.1 firstNode secondNode firstPlain secondPlain,
    openLines_eq_iff readable.2]

section

open scoped OneColumnEach

theorem draw_never_eq_iff_spelled :
    let framed := node "a" [node ".b." [leaf ⟨"c", none⟩]]
    let spelled := node "a" [leaf ⟨".b.", none⟩, node "c" []]
    framed.isNode = true ∧ spelled.isNode = true ∧ framed.SingleLine ∧ spelled.SingleLine ∧
      framed.draw .ascii ⟨.never, false⟩ ≠ spelled.draw .ascii ⟨.never, false⟩ := by
  intro framed spelled
  have firstPlain : framed.SingleLine := by decide
  have secondPlain : spelled.SingleLine := by decide
  have apart := draw_never_eq_iff .ascii (.inr rfl) framed spelled rfl rfl firstPlain secondPlain
  refine ⟨rfl, rfl, firstPlain, secondPlain, mt apart.mp ?_⟩
  simp [framed, spelled, outline, forestOutline]

/-- A node without children is drawn like a leaf. -/
example : (node "a" [node "b" []]).draw .unicode ⟨.never, false⟩ =
    (node "a" [leaf ⟨"b", some ⟨1, 0⟩⟩]).draw .unicode ⟨.never, false⟩ := by decide

end

end Tree

end ParseView
