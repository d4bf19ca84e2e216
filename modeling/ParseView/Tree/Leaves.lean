import ParseView.Tree.Basic

/-! The leaves of a tree, found one at a time by a walk that keeps the trees still to visit. -/

namespace ParseView

structure LeafWalk where
  pending : List Tree

namespace LeafWalk

def ofTree (tree : Tree) : LeafWalk := ⟨[tree]⟩

/-- Puts the children of a node in its place until a leaf comes first. -/
def nextFrom : List Tree → Option (Leaf × LeafWalk)
  | [] => none
  | .leaf matched :: rest => some (matched, ⟨rest⟩)
  | .node _ children :: rest => nextFrom (children ++ rest)
termination_by pending => Tree.forestSize pending
decreasing_by
  simp only [Tree.forestSize_append, Tree.forestSize, Tree.size]
  omega

def next? (walk : LeafWalk) : Option (Leaf × LeafWalk) :=
  nextFrom walk.pending

theorem size_of_nextFrom (pending : List Tree) (matched : Leaf) (later : LeafWalk)
    (found : nextFrom pending = some (matched, later)) :
    Tree.forestSize later.pending < Tree.forestSize pending := by
  fun_induction nextFrom pending with
  | case1 => simp at found
  | case2 first rest =>
      simp only [Option.some.injEq, Prod.mk.injEq] at found
      rw [← found.2]
      simp [Tree.forestSize, Tree.size]
  | case3 label children rest ih =>
      have smaller := ih found
      simp only [Tree.forestSize_append] at smaller
      simp only [Tree.forestSize, Tree.size]
      omega

def toList (walk : LeafWalk) : List Leaf :=
  match _found : walk.next? with
  | none => []
  | some (matched, later) => matched :: later.toList
termination_by Tree.forestSize walk.pending
decreasing_by exact size_of_nextFrom walk.pending matched later _found

theorem toList_of_next?_eq_none (walk : LeafWalk) (ended : walk.next? = none) :
    walk.toList = [] := by
  rw [toList]
  split
  · rfl
  · next found => simp [ended] at found

theorem toList_of_next?_eq_some (walk : LeafWalk) (matched : Leaf) (later : LeafWalk)
    (found : walk.next? = some (matched, later)) : walk.toList = matched :: later.toList := by
  rw [toList]
  split
  · next ended => simp [found] at ended
  · next other rest same =>
      rw [found] at same
      simp only [Option.some.injEq, Prod.mk.injEq] at same
      rw [same.1, same.2]

end LeafWalk

namespace Tree

/-- Every leaf of the tree, left to right. -/
def leaves (tree : Tree) : List Leaf :=
  (LeafWalk.ofTree tree).toList

end Tree

end ParseView
