import Mathlib.Logic.Relation
import ParseView.Proofs.Margins

/-! The walk along first children, which gives a tree its position. It ends on the first leaf of the
tree, or on a node without children to the left of all leaves. -/

namespace ParseView

namespace Tree

def firstChild? : Tree → Option Tree
  | node _ (first :: _) => some first
  | _ => none

/-- The walk along first children from the tree ends there. -/
structure EndsOn (tree last : Tree) : Prop where
  walked : Relation.ReflTransGen (fun outer child => outer.firstChild? = some child) tree last
  ended : last.firstChild? = none

theorem firstChild?_eq_none_iff (tree : Tree) :
    tree.firstChild? = none ↔ (∃ matched, tree = leaf matched) ∨ ∃ label, tree = node label [] := by
  cases tree with
  | leaf matched => simp [firstChild?]
  | node label children => cases children <;> simp [firstChild?]

theorem eq_node_of_firstChild? {tree child : Tree} (first : tree.firstChild? = some child) :
    ∃ label rest, tree = node label (child :: rest) := by
  unfold firstChild? at first
  split at first
  · obtain rfl := Option.some.inj first
    exact ⟨_, _, rfl⟩
  · simp at first

theorem position_of_firstChild? {tree child : Tree} (first : tree.firstChild? = some child) :
    tree.position = child.position := by
  obtain ⟨label, rest, rfl⟩ := eq_node_of_firstChild? first
  rw [position]

theorem leaves_of_firstChild? {tree child : Tree} (first : tree.firstChild? = some child) :
    ∃ others, tree.leaves = child.leaves ++ others := by
  obtain ⟨label, rest, rfl⟩ := eq_node_of_firstChild? first
  simp only [leaves_eq_leavesBelow, leavesBelow_node, List.flatMap_cons]
  exact ⟨_, rfl⟩

theorem exists_endsOn (tree : Tree) : ∃ last, tree.EndsOn last := by
  induction tree with
  | leaf matched => exact ⟨leaf matched, .refl, rfl⟩
  | node label children ih =>
      cases children with
      | nil => exact ⟨node label [], .refl, rfl⟩
      | cons first rest =>
          obtain ⟨last, walked, ended⟩ := ih first (by simp)
          exact ⟨last, .head rfl walked, ended⟩

namespace EndsOn

variable {tree last : Tree}

theorem unique {other : Tree} (ends : tree.EndsOn last) (again : tree.EndsOn other) :
    other = last := by
  obtain ⟨walked, ended⟩ := ends
  induction walked using Relation.ReflTransGen.head_induction_on with
  | refl =>
      rcases again.walked.cases_head with same | ⟨child, first, _⟩
      · exact same.symm
      · simp [ended] at first
  | head first _ ih =>
      obtain ⟨walked, ended⟩ := again
      rcases walked.cases_head with rfl | ⟨child, same, rest⟩
      · simp [ended] at first
      · obtain rfl := Option.some.inj (first.symm.trans same)
        exact ih ⟨rest, ended⟩

theorem position_eq (ends : tree.EndsOn last) : tree.position = last.position := by
  obtain ⟨walked, _⟩ := ends
  induction walked using Relation.ReflTransGen.head_induction_on with
  | refl => rfl
  | head first _ ih => rw [position_of_firstChild? first, ih]

theorem leaves_eq (ends : tree.EndsOn last) : ∃ others, tree.leaves = last.leaves ++ others := by
  obtain ⟨walked, _⟩ := ends
  induction walked using Relation.ReflTransGen.head_induction_on with
  | refl => exact ⟨[], by simp⟩
  | head first _ ih =>
      obtain ⟨others, inner⟩ := ih
      obtain ⟨more, outer⟩ := leaves_of_firstChild? first
      exact ⟨others ++ more, by rw [outer, inner, List.append_assoc]⟩

theorem head?_leaves {matched : Leaf} (ends : tree.EndsOn (leaf matched)) :
    tree.leaves.head? = some matched := by
  obtain ⟨others, all⟩ := ends.leaves_eq
  rw [all, leaves_eq_leavesBelow, leavesBelow_leaf]
  rfl

end EndsOn

theorem mem_leaves_of_mem_preorder {root tree : Tree} (below : tree ∈ root.preorder)
    {matched : Leaf} (member : matched ∈ tree.leaves) : matched ∈ root.leaves := by
  rw [leaves_eq_leavesBelow] at member ⊢
  induction root with
  | leaf other =>
      obtain rfl : tree = leaf other := by simpa [preorder] using below
      exact member
  | node label children ih =>
      rw [preorder_node, List.mem_cons, List.mem_flatMap] at below
      rcases below with rfl | ⟨child, among, inside⟩
      · exact member
      · rw [leavesBelow_node]
        exact List.mem_flatMap.mpr ⟨child, among, ih child among inside⟩

theorem head?_leaves_of_position {tree : Tree} {position : Position}
    (shown : tree.position = some position) :
    ∃ first, tree.leaves.head? = some first ∧ first.position = some position := by
  obtain ⟨last, ends⟩ := exists_endsOn tree
  have same := ends.position_eq
  rcases (firstChild?_eq_none_iff last).mp ends.ended with ⟨matched, rfl⟩ | ⟨label, rfl⟩
  · exact ⟨matched, ends.head?_leaves, same.symm.trans shown⟩
  · rw [shown] at same
    simp [Tree.position] at same

/-- The walk along first children ends on the first leaf, whose position is the tree's, or on a
node without children, and then the tree has no position. A position that is shown fits its
margin, and is the same on both sides of an inlining. -/
theorem position_by_leftmost_walk (tree : Tree) :
    (∃ last, tree.EndsOn last ∧ (∀ other, tree.EndsOn other → other = last) ∧
      ((∃ matched, last = leaf matched) ∨ ∃ label, last = node label [])) ∧
    (∀ matched, tree.EndsOn (leaf matched) →
      tree.leaves.head? = some matched ∧ tree.position = matched.position) ∧
    (∀ label, tree.EndsOn (node label []) → tree.position = none) ∧
    (∀ position, tree.position = some position →
      (∃ first, tree.leaves.head? = some first ∧ first.position = some position) ∧
      ∀ root : Tree, tree ∈ root.preorder →
        position ∈ root.leaves.filterMap Leaf.position ∧ (Gutter.fit root).Holds position) ∧
    ∀ (policy : InlinePolicy) label children, tree = node label children →
      policy.shape children = .inlined →
      ∃ child, children = [child] ∧ tree.position = child.position := by
  refine ⟨?_, ?_, ?_, ?_, ?_⟩
  · obtain ⟨last, ends⟩ := exists_endsOn tree
    exact ⟨last, ends, fun other => ends.unique, (firstChild?_eq_none_iff last).mp ends.ended⟩
  · intro matched ends
    exact ⟨ends.head?_leaves, ends.position_eq⟩
  · intro label ends
    exact ends.position_eq
  · intro position shown
    obtain ⟨first, heads, placed⟩ := head?_leaves_of_position shown
    refine ⟨⟨first, heads, placed⟩, ?_⟩
    intro root below
    have member := mem_leaves_of_mem_preorder below (List.mem_of_head? heads)
    exact ⟨List.mem_filterMap.mpr ⟨first, member, placed⟩,
      Gutter.fit_holds root first position member placed⟩
  · rintro policy label children rfl inlined
    obtain ⟨child, rfl⟩ := InlinePolicy.exists_only_of_inlined inlined
    exact ⟨child, rfl, position_of_firstChild? rfl⟩

/-- An inlined node has the position of its child. The node around it has none, as its first child
is a node without children. -/
theorem position_by_leftmost_walk_childless :
    let name := node "name" [leaf ⟨"x", some ⟨12345, 0⟩⟩, leaf ⟨"y", none⟩]
    let link := node "stmt" [name]
    let root := node "file" [node "none" [], link]
    link.EndsOn (leaf ⟨"x", some ⟨12345, 0⟩⟩) ∧ link.leaves.head? = some ⟨"x", some ⟨12345, 0⟩⟩ ∧
      link.position = some ⟨12345, 0⟩ ∧ (Gutter.fit root).Holds ⟨12345, 0⟩ ∧
      InlinePolicy.always.shape [name] = .inlined ∧ link.position = name.position ∧
      root.EndsOn (node "none" []) ∧ root.position = none := by
  intro name link root
  have walked : link.EndsOn (leaf ⟨"x", some ⟨12345, 0⟩⟩) :=
    ⟨.head rfl (.head rfl .refl), rfl⟩
  have stopped : root.EndsOn (node "none" []) := ⟨.head rfl .refl, rfl⟩
  have below : link ∈ root.preorder := by simp [root, link, preorder, forestPreorder]
  obtain ⟨_, onLeaf, _, shown, inlined⟩ := position_by_leftmost_walk link
  obtain ⟨_, _, onNode, _, _⟩ := position_by_leftmost_walk root
  obtain ⟨heads, placed⟩ := onLeaf _ walked
  obtain ⟨_, sized⟩ := shown _ placed
  obtain ⟨_, fits⟩ := sized root below
  obtain ⟨child, single, same⟩ := inlined .always "stmt" [name] rfl rfl
  rw [← List.singleton_inj.mp single] at same
  exact ⟨walked, heads, placed, fits, rfl, same, stopped, onNode "none" stopped⟩

end Tree

end ParseView
