import ParseView.Tree.Basic

/-! Building a tree from events: a node starts, a leaf is matched, the innermost node ends. -/

namespace ParseView

/-- A node that has started and not ended; the latest of its children comes first. -/
structure OpenNode where
  label : String
  children : List Tree
deriving Repr

/-- The open nodes, the innermost first, and the root once it is complete. -/
structure Builder where
  opened : List OpenNode := []
  root : Option Tree := none
deriving Repr

inductive Misuse where
  | noOpenNode
  | secondRoot
  | unfinished (count : Nat)
  | nothingBuilt
  | abandoned
deriving DecidableEq, Repr

namespace Misuse

def message : Misuse → String
  | noOpenNode => "`finish_node` without a matching `start_node`"
  | secondRoot => "a tree has exactly one root"
  | unfinished count => "unfinished nodes: " ++ toString count
  | nothingBuilt => "`finish` called on an empty builder"
  | abandoned => "you should call `Builder::finish()`"

end Misuse

inductive TreeEvent where
  | start (label : String)
  | leaf (leaf : Leaf)
  | finish
deriving DecidableEq, Repr

/-- Steps on a builder. A step that fails leaves the builder as far as it had got. -/
abbrev BuilderM := ExceptT Misuse (StateM Builder)

namespace Builder

def empty : Builder := {}

def attach (tree : Tree) : BuilderM Unit := do
  let builder ← get
  match builder.opened with
  | parent :: outer =>
      let grown := { parent with children := tree :: parent.children }
      set { builder with opened := grown :: outer }
  | [] =>
      if builder.root.isSome then throw .secondRoot
      set { builder with root := some tree }

def startNode (label : String) : BuilderM Unit :=
  modify fun builder => { builder with opened := ⟨label, []⟩ :: builder.opened }

def leaf (matched : Leaf) : BuilderM Unit :=
  attach (.leaf matched)

/-- Ends the innermost open node. The node is taken off before it is attached, so it is lost if
it would be a second root. -/
def finishNode : BuilderM Unit := do
  let builder ← get
  match builder.opened with
  | [] => throw .noOpenNode
  | node :: outer =>
      set { builder with opened := outer }
      attach (.node node.label node.children.reverse)

def step : TreeEvent → BuilderM Unit
  | .start label => startNode label
  | .leaf matched => leaf matched
  | .finish => finishNode

def apply (builder : Builder) (event : TreeEvent) : Except Misuse Unit × Builder :=
  (step event).run.run builder

def finish (builder : Builder) : Except Misuse Tree :=
  if builder.opened.isEmpty then
    match builder.root with
    | some tree => .ok tree
    | none => .error .nothingBuilt
  else
    .error (.unfinished builder.opened.length)

def discard (builder : Builder) : Except Misuse Unit :=
  if builder.opened.isEmpty then .ok () else .error .abandoned

end Builder

namespace Tree

mutual
def events : Tree → List TreeEvent
  | leaf matched => [.leaf matched]
  | node label children => .start label :: forestEvents children ++ [.finish]

def forestEvents : List Tree → List TreeEvent
  | [] => []
  | first :: rest => events first ++ forestEvents rest
end

end Tree

end ParseView
