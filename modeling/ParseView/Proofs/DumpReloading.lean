import ParseView.Proofs.TreeDecoding

/-! Reading the compact dump of a tree that was itself read from a text. The compact dump spells out
the children of every node, so it may be nested one level deeper than the text was. -/

namespace ParseView

namespace Json

theorem depth_lt_of_mem_items {items : List Json} {item : Json} (member : item ∈ items) :
    item.depth < (list items).depth := by
  have each := (listDepth_le_iff items _).mp (Nat.le_refl _) item member
  rw [depth]
  omega

theorem depth_lt_of_mem_members {members : List (String × Json)} {key : String} {value : Json}
    (among : (key, value) ∈ members) : value.depth < (object members).depth := by
  have each : value.depth ≤ memberDepth members :=
    (memberDepth_le_iff members _).mp (Nat.le_refl _) (key, value) among
  rw [depth]
  omega

namespace NodeForm

variable {value : Json} {label : String} {items : List Json}

theorem depth_pos (form : NodeForm value label items) : 0 < value.depth := by
  cases form <;> simp [depth]

theorem depth_item (form : NodeForm value label items) {item : Json} (member : item ∈ items) :
    item.depth + 2 ≤ value.depth := by
  cases form with
  | object _ children =>
      have among := mem_named_iff.mp (children ▸ List.mem_singleton_self _)
      have outer := depth_lt_of_mem_members among
      have inner := depth_lt_of_mem_items member
      omega
  | listed =>
      have outer := depth_lt_of_mem_items
        (List.mem_cons_of_mem (text label) (List.mem_singleton_self (list items)))
      have inner := depth_lt_of_mem_items member
      omega
  | childless => simp at member
  | listedChildless => simp at member

end NodeForm

end Json

open Json

theorem Position.depth_pos {value : Json} {position : Position}
    (decoded : ofJson? value = some position) : 0 < value.depth := by
  cases value with
  | object members => simp [depth]
  | list items => simp [depth]
  | _ => simp [ofJson?] at decoded

theorem Position.exists_of_ofMember? {values : List Json} {position : Position}
    (decoded : ofMember? values = some (some position)) :
    ∃ value ∈ values, 0 < value.depth := by
  unfold ofMember? at decoded
  split at decoded
  · simp at decoded
  · simp at decoded
  · next value _ =>
      obtain ⟨found, read, _⟩ := Option.map_eq_some_iff.mp decoded
      exact ⟨value, by simp, depth_pos read⟩
  · simp at decoded

namespace Leaf

theorem depth_toJson_le_of_placed {text : String} {values : List Json}
    {position : Option Position} {value : Json} (placed : Position.ofMember? values = some position)
    (positive : 0 < value.depth) (inside : ∀ place ∈ values, place.depth < value.depth) :
    (toJson ⟨text, position⟩).depth ≤ value.depth := by
  cases position with
  | none =>
      have shown : (toJson ⟨text, none⟩).depth = 1 := rfl
      omega
  | some position =>
      obtain ⟨place, among, deep⟩ := Position.exists_of_ofMember? placed
      have below := inside place among
      have shown : (toJson ⟨text, some position⟩).depth = 2 := rfl
      omega

theorem depth_toJson_le {value : Json} {matched : Leaf} (decoded : ofJson? value = some matched) :
    matched.toJson.depth ≤ value.depth := by
  cases value with
  | object members =>
      obtain ⟨_, placed⟩ := members_of_ofJson? decoded
      refine depth_toJson_le_of_placed placed (by simp [depth]) fun place named => ?_
      exact depth_lt_of_mem_members (mem_named_iff.mp named)
  | list items =>
      cases items with
      | nil => simp [ofJson?] at decoded
      | cons first rest =>
          rw [ofJson?, Option.bind_eq_bind, Option.bind_eq_some_iff] at decoded
          obtain ⟨text, _, placing⟩ := decoded
          rw [Option.bind_eq_bind, Option.bind_eq_some_iff] at placing
          obtain ⟨found, placed, made⟩ := placing
          obtain rfl := Option.some.inj made
          refine depth_toJson_le_of_placed placed (by simp [depth]) fun place among => ?_
          exact depth_lt_of_mem_items (List.mem_cons_of_mem first among)
  | _ => simp [ofJson?] at decoded

end Leaf

namespace Tree

mutual
/-- How many nodes of the tree are nested in each other. -/
def nodeDepth : Tree → Nat
  | leaf _ => 0
  | node _ children => forestNodeDepth children + 1

def forestNodeDepth : List Tree → Nat
  | [] => 0
  | first :: rest => max (nodeDepth first) (forestNodeDepth rest)
end

theorem forestNodeDepth_le_iff (forest : List Tree) (bound : Nat) :
    forestNodeDepth forest ≤ bound ↔ ∀ tree ∈ forest, tree.nodeDepth ≤ bound := by
  induction forest with
  | nil => simp [forestNodeDepth]
  | cons first rest ih => rw [forestNodeDepth, Nat.max_le, ih, List.forall_mem_cons]

theorem nodeDepth_lt_of_mem {label : String} {children : List Tree} {child : Tree}
    (member : child ∈ children) : child.nodeDepth < (node label children).nodeDepth := by
  have each := (forestNodeDepth_le_iff children _).mp (Nat.le_refl _) child member
  rw [nodeDepth]
  omega

theorem two_mul_nodeDepth_node_le {label : String} {children : List Tree} {bound : Nat}
    (enough : 2 ≤ bound) (each : ∀ child ∈ children, 2 * child.nodeDepth + 2 ≤ bound) :
    2 * (node label children).nodeDepth ≤ bound := by
  have below : forestNodeDepth children ≤ (bound - 2) / 2 := by
    rw [forestNodeDepth_le_iff]
    intro child member
    have here := each child member
    omega
  rw [nodeDepth]
  omega

theorem depth_toJson_node_le_iff {label : String} {children : List Tree} {bound : Nat} :
    (node label children).toJson.depth ≤ bound + 2 ↔
      ∀ child ∈ children, child.toJson.depth ≤ bound := by
  have shown : (node label children).toJson.depth = listDepth (children.map toJson) + 2 := by
    simp [toJson, forestToJson_eq_map, depth, memberDepth]
  rw [shown, Nat.add_le_add_iff_right, listDepth_le_iff, List.forall_mem_map]

theorem two_mul_nodeDepth_le (tree : Tree) : 2 * tree.nodeDepth ≤ tree.toJson.depth := by
  induction tree with
  | leaf matched => simp [nodeDepth]
  | node label children ih =>
      have enough : 2 ≤ (node label children).toJson.depth := by
        simp [toJson, depth, memberDepth]
      refine two_mul_nodeDepth_node_le enough fun child member => ?_
      have here := ih child member
      obtain ⟨inner, deep⟩ : ∃ inner, (node label children).toJson.depth = inner + 2 :=
        ⟨_, (Nat.sub_add_cancel enough).symm⟩
      have below := depth_toJson_node_le_iff.mp (Nat.le_of_eq deep) child member
      omega

theorem exists_item_of_mem {items : List Json} {children : List Tree} {child : Tree}
    (each : List.Forall₂ (fun item child => ofJson? item = some child) items children)
    (member : child ∈ children) : ∃ item ∈ items, ofJson? item = some child := by
  induction each with
  | nil => simp at member
  | @cons item first items rest here _ ih =>
      rcases List.mem_cons.mp member with rfl | later
      · exact ⟨item, by simp, here⟩
      · obtain ⟨other, among, read⟩ := ih later
        exact ⟨other, by simp [among], read⟩

theorem two_mul_nodeDepth_le_of_decoded {value : Json} {tree : Tree}
    (decoded : ofJson? value = some tree) : 2 * tree.nodeDepth ≤ value.depth + 1 := by
  induction tree generalizing value with
  | leaf matched => simp [nodeDepth]
  | node label children ih =>
      obtain ⟨items, form, each⟩ := ofJson?_eq_some_node_iff.mp decoded
      have positive := form.depth_pos
      refine two_mul_nodeDepth_node_le (by omega) fun child member => ?_
      obtain ⟨item, among, read⟩ := exists_item_of_mem each member
      have here := ih child member read
      have inner := form.depth_item among
      omega

/-- Apart from its nodes, a tree takes up no more levels of the compact dump than of the text. -/
theorem depth_toJson_le_of_decoded {value : Json} {tree : Tree} {bound : Nat}
    (decoded : ofJson? value = some tree) (shallow : value.depth ≤ bound)
    (nodes : 2 * tree.nodeDepth ≤ bound) : tree.toJson.depth ≤ bound := by
  -- The bound is arbitrary: the elements of a node have two levels less of it left.
  induction tree generalizing value bound with
  | leaf matched =>
      obtain ⟨read, _⟩ := ofJson?_eq_some_leaf decoded
      exact Nat.le_trans (Leaf.depth_toJson_le read) shallow
  | node label children ih =>
      obtain ⟨items, form, each⟩ := ofJson?_eq_some_node_iff.mp decoded
      obtain ⟨bound, rfl⟩ : ∃ inner, bound = inner + 2 := by
        rw [nodeDepth] at nodes
        exact ⟨bound - 2, by omega⟩
      refine depth_toJson_node_le_iff.mpr fun child member => ?_
      obtain ⟨item, among, read⟩ := exists_item_of_mem each member
      have inner := form.depth_item among
      have fewer : child.nodeDepth < (node label children).nodeDepth := nodeDepth_lt_of_mem member
      exact ih child member read (by omega) (by omega)

/-- The compact dump of a tree that was read is read as that tree again, unless 64 nodes of the
tree are nested in each other: the dump is then nested one level too deep. -/
theorem ofDump_dump_of_loaded {text : String} {tree : Tree} (loaded : ofDump text = .ok tree) :
    ofDump tree.dump = (if tree.nodeDepth ≤ 63 then .ok tree else .error .tooDeep) ∧
      tree.nodeDepth ≤ 64 ∧ (tree.nodeDepth = 64 → nesting tree.dump = 128) ∧
      ∃ value, ofText text = .ok value ∧ nesting tree.dump ≤ value.depth + 1 := by
  obtain ⟨value, read, decoded⟩ := ofDump_eq_ok_iff.mp loaded
  have within := depth_le_of_ofText read
  have nodes := two_mul_nodeDepth_le_of_decoded decoded
  have written := two_mul_nodeDepth_le tree
  have above : tree.toJson.depth ≤ value.depth + 1 :=
    depth_toJson_le_of_decoded decoded (Nat.le_succ _) nodes
  have nested : nesting tree.dump = tree.toJson.depth := nesting_compact tree.integral_toJson
  rw [maxDepth] at within
  refine ⟨?_, by omega, ?_, value, read, nested ▸ above⟩
  · rw [ofDump_eq, maxDepth]
    by_cases few : tree.nodeDepth ≤ 63
    · rw [if_pos few, if_pos (depth_toJson_le_of_decoded decoded within (by omega))]
    · rw [if_neg few, if_neg (by omega)]
  · intro full
    rw [nested]
    omega

theorem ofDump_dump_of_loaded_lists :
    let value := Json.list [.text "a", .list [.list [.text "b"],
      .object [("position", .list [.ofWord 1, .ofWord 0]), ("x", .null), ("text", .text "c")]]]
    let tree := node "a" [node "b" [], leaf ⟨"c", some ⟨1, 0⟩⟩]
    ofDump value.compact = .ok tree ∧ tree.dump ≠ value.compact ∧ ofDump tree.dump = .ok tree := by
  intro value tree
  have integral : value.Integral := by
    simp [value, integral_object_iff, integral_list_iff, Integral.text, Integral.null,
      integral_ofWord]
  have loaded : ofDump value.compact = .ok tree :=
    ofDump_eq_ok_iff.mpr ⟨_, ofText_compact integral (by decide), rfl⟩
  obtain ⟨again, _⟩ := ofDump_dump_of_loaded loaded
  refine ⟨loaded, by decide, ?_⟩
  rw [again, if_pos (by decide)]

/-- Objects with a label in each other, the innermost without children. -/
def bareChain : Nat → Json
  | 0 => .object [("label", .text "a")]
  | inner + 1 => .object [("label", .text "a"), ("children", .list [bareChain inner])]

def nodeChain : Nat → Tree
  | 0 => node "a" []
  | inner + 1 => node "a" [nodeChain inner]

theorem integral_bareChain (inner : Nat) : (bareChain inner).Integral := by
  induction inner with
  | zero => simp [bareChain, integral_object_iff, Integral.text]
  | succ inner ih => simp [bareChain, integral_object_iff, integral_list_iff, Integral.text, ih]

theorem depth_bareChain (inner : Nat) : (bareChain inner).depth = 2 * inner + 1 := by
  induction inner with
  | zero => rfl
  | succ inner ih => simp [bareChain, depth, memberDepth, listDepth, ih]; omega

theorem ofJson?_bareChain (inner : Nat) : ofJson? (bareChain inner) = some (nodeChain inner) := by
  induction inner with
  | zero => rfl
  | succ inner ih =>
      exact ofJson?_eq_some_node_iff.mpr ⟨_, .object rfl rfl, .cons ih .nil⟩

theorem nodeDepth_nodeChain (inner : Nat) : (nodeChain inner).nodeDepth = inner + 1 := by
  induction inner with
  | zero => rfl
  | succ inner ih => simp [nodeChain, nodeDepth, forestNodeDepth, ih]

/-- A tree of 64 nodes in each other is read from a dump that leaves out the innermost children,
and its own compact dump is nested too deep to be read. -/
theorem compact_dump_refused :
    ofDump (bareChain 63).compact = .ok (nodeChain 63) ∧
      ofDump (nodeChain 63).dump = .error .tooDeep := by
  have within : (bareChain 63).depth ≤ maxDepth := by
    rw [depth_bareChain]
    decide
  have loaded : ofDump (bareChain 63).compact = .ok (nodeChain 63) :=
    ofDump_eq_ok_iff.mpr ⟨_, ofText_compact (integral_bareChain 63) within, ofJson?_bareChain 63⟩
  have deep : ¬(nodeChain 63).toJson.depth ≤ maxDepth := by
    have written := two_mul_nodeDepth_le (nodeChain 63)
    rw [nodeDepth_nodeChain] at written
    rw [maxDepth]
    omega
  refine ⟨loaded, ?_⟩
  rw [ofDump_eq, if_neg deep]

end Tree

end ParseView
