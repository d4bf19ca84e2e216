/-! Labeled parse trees. A node is a rule application with its children in display order; a
leaf is matched text, with the place in the source where it was found if that is known. -/

namespace ParseView

/-- Place of a leaf: a line, counted from 1, and a column, counted from 0. -/
structure Position where
  line : UInt32
  column : UInt32
deriving DecidableEq, Repr

structure Leaf where
  text : String
  position : Option Position := none
deriving DecidableEq, Repr

inductive Tree where
  | node (label : String) (children : List Tree)
  | leaf (leaf : Leaf)
deriving Repr, Inhabited

namespace Tree

def isNode : Tree → Bool
  | node _ _ => true
  | leaf _ => false

def asLeaf? : Tree → Option Leaf
  | node _ _ => none
  | leaf matched => some matched

/-- The position that the walk along first children ends at. There is none if the walk ends on
a node without children. -/
def position : Tree → Option Position
  | leaf matched => matched.position
  | node _ [] => none
  | node _ (first :: _) => first.position

/-- Whether no node of the tree has more than one child. -/
def isDirectLine : Tree → Bool
  | leaf _ => true
  | node _ [] => true
  | node _ [only] => only.isDirectLine
  | node _ (_ :: _ :: _) => false

def nonTerminalChildren : Tree → Nat
  | leaf _ => 0
  | node _ children => children.countP isNode

mutual
def size : Tree → Nat
  | leaf _ => 1
  | node _ children => forestSize children + 1

def forestSize : List Tree → Nat
  | [] => 0
  | first :: rest => size first + forestSize rest
end

mutual
def preorder : Tree → List Tree
  | leaf matched => [leaf matched]
  | node label children => node label children :: forestPreorder children

def forestPreorder : List Tree → List Tree
  | [] => []
  | first :: rest => preorder first ++ forestPreorder rest
end

/-- What holds of every leaf, and of a node where it holds of its children, holds of all trees. -/
@[elab_as_elim, induction_eliminator]
theorem induction {motive : Tree → Prop} (leaf : ∀ matched, motive (leaf matched))
    (node : ∀ label children, (∀ child ∈ children, motive child) → motive (node label children)) :
    ∀ tree, motive tree
  | .leaf matched => leaf matched
  | .node label children =>
      node label children fun child _ => Tree.induction leaf node child
termination_by tree => sizeOf tree

theorem forestSize_append (first second : List Tree) :
    forestSize (first ++ second) = forestSize first + forestSize second := by
  induction first with
  | nil => simp [forestSize]
  | cons tree rest ih => simp [forestSize, ih, Nat.add_assoc]

theorem forestPreorder_eq_flatMap (forest : List Tree) :
    forestPreorder forest = forest.flatMap preorder := by
  induction forest with
  | nil => simp [forestPreorder]
  | cons tree rest ih => simp [forestPreorder, ih]

theorem preorder_node (label : String) (children : List Tree) :
    (node label children).preorder = node label children :: children.flatMap preorder := by
  rw [preorder, forestPreorder_eq_flatMap]

theorem isNode_eq_false_iff (tree : Tree) :
    tree.isNode = false ↔ ∃ matched, tree = leaf matched := by
  cases tree <;> simp [isNode]

end Tree

end ParseView
