import ParseView.Tree.Leaves

/-! What the walk over the leaves of a tree yields, and where the walk along first children that
gives a tree its position ends. -/

namespace ParseView

namespace Tree

def leavesBelow (tree : Tree) : List Leaf :=
  tree.preorder.filterMap asLeaf?

@[simp] theorem leavesBelow_leaf (matched : Leaf) : (leaf matched).leavesBelow = [matched] := by
  simp [leavesBelow, preorder, asLeaf?]

@[simp] theorem leavesBelow_node (label : String) (children : List Tree) :
    (node label children).leavesBelow = children.flatMap leavesBelow := by
  simp only [leavesBelow, preorder, List.filterMap_cons, asLeaf?, forestPreorder_eq_flatMap,
    List.filterMap_flatMap]
  rfl

end Tree

namespace LeafWalk

/-- One step of a walk takes the first of the leaves below the trees still to visit. -/
theorem flatMap_of_nextFrom (pending : List Tree) :
    pending.flatMap Tree.leavesBelow =
      match nextFrom pending with
      | none => []
      | some (matched, later) => matched :: later.pending.flatMap Tree.leavesBelow := by
  fun_induction nextFrom pending with
  | case1 => rfl
  | case2 matched rest => simp
  | case3 label children rest ih => simpa using ih

theorem toList_eq_flatMap (walk : LeafWalk) :
    walk.toList = walk.pending.flatMap Tree.leavesBelow := by
  have step := flatMap_of_nextFrom walk.pending
  cases found : walk.next? with
  | none =>
      rw [next?] at found
      rw [toList_of_next?_eq_none walk found, step, found]
  | some yielded =>
      obtain ⟨matched, later⟩ := yielded
      have smaller := size_of_nextFrom walk.pending matched later found
      have tail := toList_eq_flatMap later
      rw [toList_of_next?_eq_some walk matched later found, tail]
      rw [next?] at found
      rw [step, found]
termination_by Tree.forestSize walk.pending

end LeafWalk

namespace Tree

theorem leaves_eq_leavesBelow (tree : Tree) : tree.leaves = tree.leavesBelow := by
  rw [leaves, LeafWalk.toList_eq_flatMap]
  simp [LeafWalk.ofTree]

theorem exists_leaf_of_position (tree : Tree) (position : Position)
    (shown : tree.position = some position) :
    ∃ matched ∈ tree.leaves, matched.position = some position := by
  rw [leaves_eq_leavesBelow]
  induction tree with
  | leaf matched => exact ⟨matched, by simp, shown⟩
  | node label children ih =>
      cases children with
      | nil => simp [Tree.position] at shown
      | cons first rest =>
          rw [Tree.position] at shown
          obtain ⟨matched, among, at_position⟩ := ih first (by simp) shown
          exact ⟨matched, by simp [among], at_position⟩

end Tree

end ParseView
