import ParseView.Proofs.Leaves

/-! The walk over the leaves of a tree, round by round: a leaf that comes first is yielded, and a
node that comes first gives way to its children. What was yielded and what is pending are all the
leaves of the tree at any time, and every round is one tree less to visit. -/

namespace ParseView

namespace LeafWalk

def round? : LeafWalk → Option (Option Leaf × LeafWalk)
  | ⟨[]⟩ => none
  | ⟨.leaf matched :: rest⟩ => some (some matched, ⟨rest⟩)
  | ⟨.node _ children :: rest⟩ => some (none, ⟨children ++ rest⟩)

theorem next?_eq (walk : LeafWalk) :
    walk.next? =
      match walk.round? with
      | none => none
      | some (some matched, later) => some (matched, later)
      | some (none, later) => later.next? := by
  obtain ⟨pending⟩ := walk
  rw [next?, nextFrom.eq_def]
  cases pending with
  | nil => rfl
  | cons first rest => cases first <;> rfl

/-- A number of rounds, the leaves that they yield in order, and the walk that is left. -/
inductive Rounds (start : LeafWalk) : Nat → List Leaf → LeafWalk → Prop where
  | zero : Rounds start 0 [] start
  | succ {count : Nat} {yielded : List Leaf} {walk later : LeafWalk} {found : Option Leaf} :
      Rounds start count yielded walk → walk.round? = some (found, later) →
      Rounds start (count + 1) (yielded ++ found.toList) later

def remaining (walk : LeafWalk) : List Leaf :=
  walk.pending.flatMap Tree.leavesBelow

section Round

variable {walk later : LeafWalk} {found : Option Leaf}

theorem round?_cases (next : walk.round? = some (found, later)) :
    (∃ matched rest, walk = ⟨.leaf matched :: rest⟩ ∧ found = some matched ∧ later = ⟨rest⟩) ∨
      ∃ label children rest, walk = ⟨.node label children :: rest⟩ ∧ found = none ∧
        later = ⟨children ++ rest⟩ := by
  unfold round? at next
  split at next
  · simp at next
  · obtain ⟨rfl, rfl⟩ := Prod.mk.inj (Option.some.inj next)
    exact .inl ⟨_, _, rfl, rfl, rfl⟩
  · obtain ⟨rfl, rfl⟩ := Prod.mk.inj (Option.some.inj next)
    exact .inr ⟨_, _, _, rfl, rfl, rfl⟩

theorem remaining_of_round? (next : walk.round? = some (found, later)) :
    walk.remaining = found.toList ++ later.remaining := by
  obtain ⟨matched, rest, rfl, rfl, rfl⟩ | ⟨label, children, rest, rfl, rfl, rfl⟩ :=
    round?_cases next
  · simp [remaining]
  · simp [remaining]

theorem size_of_round? (next : walk.round? = some (found, later)) :
    Tree.forestSize walk.pending = Tree.forestSize later.pending + 1 := by
  obtain ⟨matched, rest, rfl, rfl, rfl⟩ | ⟨label, children, rest, rfl, rfl, rfl⟩ :=
    round?_cases next
  · simp only [Tree.forestSize, Tree.size]
    omega
  · simp only [Tree.forestSize, Tree.size, Tree.forestSize_append]
    omega

theorem exists_round? (waiting : walk.pending ≠ []) :
    ∃ found later, walk.round? = some (found, later) := by
  obtain ⟨pending⟩ := walk
  cases pending with
  | nil => exact absurd rfl waiting
  | cons first rest =>
      cases first with
      | leaf matched => exact ⟨_, _, rfl⟩
      | node label children => exact ⟨_, _, rfl⟩

end Round

namespace Rounds

variable {start walk later : LeafWalk} {count : Nat} {yielded : List Leaf}

theorem single {found : Option Leaf} (next : walk.round? = some (found, later)) :
    Rounds walk 1 found.toList later := by
  simpa using Rounds.succ .zero next

theorem append {more : Nat} {others : List Leaf} (first : Rounds start count yielded walk)
    (second : Rounds walk more others later) :
    Rounds start (count + more) (yielded ++ others) later := by
  induction second with
  | zero => simpa using first
  | succ _ next ih =>
      rw [← List.append_assoc]
      exact .succ ih next

theorem remaining_eq (rounds : Rounds start count yielded walk) :
    start.remaining = yielded ++ walk.remaining := by
  induction rounds with
  | zero => rfl
  | succ _ next ih => rw [ih, remaining_of_round? next, List.append_assoc]

theorem size_eq (rounds : Rounds start count yielded walk) :
    Tree.forestSize start.pending = count + Tree.forestSize walk.pending := by
  induction rounds with
  | zero => simp
  | succ _ next ih =>
      rw [ih, size_of_round? next]
      omega

end Rounds

theorem rounds_of_next? {walk later : LeafWalk} {matched : Leaf}
    (found : walk.next? = some (matched, later)) : ∃ count, Rounds walk count [matched] later := by
  obtain ⟨pending⟩ := walk
  rw [next?] at found
  fun_induction nextFrom pending with
  | case1 => simp at found
  | case2 first rest =>
      obtain ⟨rfl, rfl⟩ := Prod.mk.inj (Option.some.inj found)
      have yields : (⟨.leaf first :: rest⟩ : LeafWalk).round? = some (some first, ⟨rest⟩) := rfl
      exact ⟨1, .single yields⟩
  | case3 label children rest ih =>
      obtain ⟨count, rounds⟩ := ih found
      have opening : (⟨.node label children :: rest⟩ : LeafWalk).round? =
          some (none, ⟨children ++ rest⟩) := rfl
      exact ⟨1 + count, (Rounds.single opening).append rounds⟩

theorem head?_remaining (walk : LeafWalk) :
    walk.remaining.head? = walk.next?.map Prod.fst := by
  rw [remaining, flatMap_of_nextFrom, next?]
  cases nextFrom walk.pending <;> rfl

theorem rounds_to_end (walk : LeafWalk) :
    Rounds walk (Tree.forestSize walk.pending) walk.remaining ⟨[]⟩ := by
  -- Every round leaves one tree less to visit, so the induction is on the number of trees.
  generalize measured : Tree.forestSize walk.pending = size
  induction size generalizing walk with
  | zero =>
      by_cases done : walk.pending = []
      · obtain rfl : walk = ⟨[]⟩ := by
          obtain ⟨pending⟩ := walk
          rw [show pending = [] from done]
        exact .zero
      · obtain ⟨found, later, next⟩ := exists_round? done
        have visited := size_of_round? next
        omega
  | succ size ih =>
      have waiting : walk.pending ≠ [] := by
        intro done
        simp [done, Tree.forestSize] at measured
      obtain ⟨found, later, next⟩ := exists_round? waiting
      have visited := size_of_round? next
      have rest := ih later (by omega)
      rw [remaining_of_round? next, Nat.add_comm]
      exact (Rounds.single next).append rest

end LeafWalk

namespace Tree

open LeafWalk

theorem remaining_eq_flatMap_leaves (walk : LeafWalk) :
    walk.remaining = walk.pending.flatMap leaves := by
  have same : leaves = leavesBelow := funext leaves_eq_leavesBelow
  rw [remaining, same]

theorem remaining_ofTree (tree : Tree) : (ofTree tree).remaining = tree.leaves := by
  simp [remaining_eq_flatMap_leaves, ofTree]

/-- The walk over the leaves of a tree finds the leaves of its children, in order. It takes a round
for every tree below, and at any time the leaves that it has yielded and the leaves of the pending
trees are all leaves; the search for the next one finds the first that is left. -/
theorem leaves_by_rounds :
    (∀ walk : LeafWalk, walk.next? =
      match walk.round? with
      | none => none
      | some (some matched, later) => some (matched, later)
      | some (none, later) => later.next?) ∧
    (∀ matched, (leaf matched).leaves = [matched]) ∧
    (∀ label children, (node label children).leaves = children.flatMap leaves) ∧
    ∀ tree : Tree, Rounds (ofTree tree) tree.size tree.leaves ⟨[]⟩ ∧
      ∀ count yielded walk, Rounds (ofTree tree) count yielded walk →
        yielded ++ walk.pending.flatMap leaves = tree.leaves ∧
        count + forestSize walk.pending = tree.size ∧
        walk.next?.map Prod.fst = (walk.pending.flatMap leaves).head? ∧
        ∀ matched later, walk.next? = some (matched, later) →
          ∃ more, Rounds (ofTree tree) (count + more) (yielded ++ [matched]) later := by
  have whole (tree : Tree) : forestSize (ofTree tree).pending = tree.size := by
    simp [ofTree, forestSize]
  refine ⟨next?_eq, ?_, ?_, ?_⟩
  · intro matched
    rw [leaves_eq_leavesBelow, leavesBelow_leaf]
  · intro label children
    have same : leaves = leavesBelow := funext leaves_eq_leavesBelow
    rw [same, leavesBelow_node]
  · intro tree
    refine ⟨?_, ?_⟩
    · rw [← whole, ← remaining_ofTree]
      exact rounds_to_end (ofTree tree)
    · intro count yielded walk rounds
      refine ⟨?_, ?_, ?_, ?_⟩
      · rw [← remaining_eq_flatMap_leaves, ← rounds.remaining_eq, remaining_ofTree]
      · rw [← whole, rounds.size_eq]
      · rw [← remaining_eq_flatMap_leaves, head?_remaining]
      · intro matched later found
        obtain ⟨more, searched⟩ := rounds_of_next? found
        exact ⟨more, rounds.append searched⟩

theorem leaves_by_rounds_childless :
    let rest := [node "none" [], leaf ⟨"2", some ⟨1, 4⟩⟩]
    let tree := node "sum" [node "term" [leaf ⟨"1", none⟩, node "tail" rest], leaf ⟨";", none⟩]
    Rounds (ofTree tree) 4 [⟨"1", none⟩] ⟨rest ++ [leaf ⟨";", none⟩]⟩ ∧
      [⟨"1", none⟩] ++ (rest ++ [leaf ⟨";", none⟩]).flatMap leaves = tree.leaves ∧
      4 + forestSize (rest ++ [leaf ⟨";", none⟩]) = tree.size := by
  intro rest tree
  have root : (ofTree tree).round? = some (none, ⟨[node "term" [leaf ⟨"1", none⟩,
    node "tail" rest], leaf ⟨";", none⟩]⟩) := rfl
  have term : (⟨[node "term" [leaf ⟨"1", none⟩, node "tail" rest],
    leaf ⟨";", none⟩]⟩ : LeafWalk).round? =
      some (none, ⟨[leaf ⟨"1", none⟩, node "tail" rest, leaf ⟨";", none⟩]⟩) := rfl
  have first : (⟨[leaf ⟨"1", none⟩, node "tail" rest, leaf ⟨";", none⟩]⟩ : LeafWalk).round? =
    some (some ⟨"1", none⟩, ⟨[node "tail" rest, leaf ⟨";", none⟩]⟩) := rfl
  have tail : (⟨[node "tail" rest, leaf ⟨";", none⟩]⟩ : LeafWalk).round? =
    some (none, ⟨rest ++ [leaf ⟨";", none⟩]⟩) := rfl
  have rounds : Rounds (ofTree tree) 4 [⟨"1", none⟩] ⟨rest ++ [leaf ⟨";", none⟩]⟩ :=
    .succ (.succ (.succ (.succ .zero root) term) first) tail
  obtain ⟨_, _, _, walks⟩ := leaves_by_rounds
  obtain ⟨_, reached⟩ := walks tree
  obtain ⟨all, size, _⟩ := reached 4 _ _ rounds
  exact ⟨rounds, all, size⟩

end Tree

end ParseView
