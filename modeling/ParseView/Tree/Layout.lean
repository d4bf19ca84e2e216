import ParseView.Tree.Gutter

/-! The drawing of a tree: one leaf or leaf production per line, below the frames of the nodes
that hold them. -/

namespace ParseView

/-- When a node with a single child shares its line with that child. -/
inductive InlinePolicy where
  | always
  | directLine
  | never
deriving DecidableEq, Repr, Inhabited

inductive NodeShape where
  | production
  | inlined
  | framed
deriving DecidableEq, Repr

structure TreeStyle where
  policy : InlinePolicy := .directLine
  positions : Bool := false
deriving DecidableEq, Repr

namespace InlinePolicy

def inlines (policy : InlinePolicy) (child : Tree) : Bool :=
  match policy with
  | always => true
  | directLine => child.isDirectLine
  | never => false

def shape (policy : InlinePolicy) (children : List Tree) : NodeShape :=
  if children.isEmpty then .production
  else if policy ≠ .never ∧ children.all (fun child => !child.isNode) then .production
  else
    match children with
    | [only] => if policy.inlines only then .inlined else .framed
    | _ => .framed

theorem inlines_iff (policy : InlinePolicy) (child : Tree) :
    policy.inlines child = true ↔
      policy = .always ∨ policy = .directLine ∧ child.isDirectLine = true := by
  cases policy <;> simp [inlines]

theorem shape_eq_production_iff (policy : InlinePolicy) (children : List Tree) :
    policy.shape children = .production ↔
      children = [] ∨ policy ≠ .never ∧ ∀ child ∈ children, child.isNode = false := by
  cases children with
  | nil => simp [shape]
  | cons first rest =>
      simp only [shape, List.isEmpty_cons, List.all_eq_true, Bool.not_eq_true', reduceCtorEq,
        false_or, Bool.false_eq_true, ↓reduceIte]
      split
      next leaves => simpa using leaves
      next branching =>
        constructor
        · intro production
          split at production
          · split at production <;> simp at production
          · simp at production
        · intro leaves
          exact absurd leaves branching

theorem shape_eq_inlined_iff (policy : InlinePolicy) (children : List Tree) :
    policy.shape children = .inlined ↔
      policy.shape children ≠ .production ∧
        ∃ only, children = [only] ∧ policy.inlines only = true := by
  by_cases production : policy.shape children = .production
  · simp [production]
  · have branching : ¬(children.isEmpty = true) ∧
        ¬(policy ≠ .never ∧ children.all (fun child => !child.isNode) = true) := by
      constructor <;> intro flat <;> simp [shape, flat] at production
    match children with
    | [] => simp [shape] at production
    | [only] =>
        simp only [shape, branching.1, branching.2, ↓reduceIte]
        by_cases joined : policy.inlines only <;> simp [joined]
    | first :: second :: rest =>
        simp only [shape, branching.1, branching.2, ↓reduceIte]
        simp

theorem shape_eq_inlined_iff_of_branching {policy : InlinePolicy} {children : List Tree}
    (branching : policy.shape children ≠ .production) (label : String) :
    policy.shape children = .inlined ↔ children.length = 1 ∧
      (policy = .always ∨
        policy = .directLine ∧ (Tree.node label children).isDirectLine = true) := by
  rw [shape_eq_inlined_iff]
  constructor
  · rintro ⟨_, only, rfl, joined⟩
    rw [Tree.isDirectLine]
    exact ⟨rfl, (inlines_iff policy only).mp joined⟩
  · rintro ⟨single, joined⟩
    obtain ⟨only, rfl⟩ := List.length_eq_one_iff.mp single
    rw [Tree.isDirectLine] at joined
    exact ⟨branching, only, rfl, (inlines_iff policy only).mpr joined⟩

theorem exists_only_of_inlined {policy : InlinePolicy} {children : List Tree}
    (inlined : policy.shape children = .inlined) : ∃ only, children = [only] := by
  obtain ⟨_, only, single, _⟩ := (shape_eq_inlined_iff policy children).mp inlined
  exact ⟨only, single⟩

theorem shape_never {children : List Tree} (nonempty : children ≠ []) :
    never.shape children = .framed := by
  match children with
  | [] => exact absurd rfl nonempty
  | [_] | _ :: _ :: _ => simp [shape, inlines]

theorem leaves_of_production {policy : InlinePolicy} {children : List Tree}
    (production : policy.shape children = .production) :
    ∀ child ∈ children, child.isNode = false := by
  rcases (shape_eq_production_iff policy children).mp production with empty | ⟨_, leaves⟩
  · simp [empty]
  · exact leaves

end InlinePolicy

namespace Tree

def leafTexts (children : List Tree) : String :=
  " ".intercalate ((children.filterMap asLeaf?).map Leaf.text)

def productionPieces (label : String) (children : List Tree) : Picture Connector :=
  [.glyph .leaf, .text label] ++
    (if children.isEmpty then []
     else [.glyph .oneChild, .glyph .leaf, .text (leafTexts children)]) ++
    [.newline]

def margin (gutter : Option Gutter) (position : Option Position) : Picture Connector :=
  match gutter with
  | some gutter => gutter.pieces position
  | none => []

variable [TextWidth]

def framePieces (gutter : Option Gutter) (indent : Picture Connector) (label : String) :
    Picture Connector :=
  [.glyph .frameOpen, .text label, .glyph .frameClose, .newline] ++ margin gutter none ++ indent ++
    [.glyph .frameLeft, .glyph .frameBranch] ++
    List.replicate (displayWidth label - 1) (.glyph .frameFill) ++ [.glyph .frameRight, .newline]

mutual
/-- The drawing of a tree from where its first line stands. Every later line starts with
`indent`, after its margin. -/
def pieces (policy : InlinePolicy) (gutter : Option Gutter) (indent : Picture Connector) :
    Tree → Picture Connector
  | leaf matched => [.glyph .leaf, .text matched.text, .newline]
  | node label children =>
      match policy.shape children with
      | .production => productionPieces label children
      | .inlined =>
          [.glyph .leaf, .text label, .glyph .oneChild] ++
            stacked policy gutter (indent ++ [.blank (displayWidth label + 2)]) children
      | .framed => framePieces gutter indent label ++ branches policy gutter indent children

/-- The drawings of trees one after the other; of an only child, just its drawing. -/
def stacked (policy : InlinePolicy) (gutter : Option Gutter) (indent : Picture Connector) :
    List Tree → Picture Connector
  | [] => []
  | child :: rest => pieces policy gutter indent child ++ stacked policy gutter indent rest

def branches (policy : InlinePolicy) (gutter : Option Gutter) (indent : Picture Connector) :
    List Tree → Picture Connector
  | [] => []
  | [last] =>
      margin gutter last.position ++ indent ++ [.blank 1, .glyph .last] ++
        pieces policy gutter (indent ++ [.blank 2]) last
  | child :: next :: rest =>
      margin gutter child.position ++ indent ++ [.blank 1, .glyph .middle] ++
        pieces policy gutter (indent ++ [.blank 1, .glyph .vertical]) child ++
        branches policy gutter indent (next :: rest)
end

/-- The whole drawing. A root that is a leaf stands without a glyph. -/
def picture (style : TreeStyle) (root : Tree) : Picture Connector :=
  let gutter := if style.positions then some (Gutter.fit root) else none
  margin gutter root.position ++
    match root with
    | leaf matched => [.text matched.text, .newline]
    | node label children => pieces style.policy gutter [] (node label children)

def draw (glyphs : Glyphs) (style : TreeStyle) (root : Tree) : String :=
  (root.picture style).draw glyphs.connector

end Tree

end ParseView
