import ParseView.LoadError
import ParseView.Proofs.JsonNesting
import ParseView.Tree.Dump

/-! Tree dumps are read back as the trees that they were made of, unless they are nested deeper
than a reader follows. -/

namespace ParseView

theorem Json.word?_ofWord (value : UInt32) : (Json.ofWord value).word? = some value := by
  have small := value.toNat_lt
  have within : (0 : Int) ≤ value.toNat ∧ (value.toNat : Int) < UInt32.size := by
    simp only [UInt32.size]
    omega
  rw [Json.ofWord, Json.ofNat, Json.word?, if_pos within]
  simp

theorem Position.ofJson?_object {line column : Json} {position : Position}
    (lineWord : line.word? = some position.line)
    (columnWord : column.word? = some position.column) :
    ofJson? (.object [("line", line), ("column", column)]) = some position := by
  simp [ofJson?, Json.only?, Json.named, lineWord, columnWord]

theorem Position.ofJson?_toJson (position : Position) :
    ofJson? position.toJson = some position :=
  ofJson?_object (Json.word?_ofWord _) (Json.word?_ofWord _)

theorem Leaf.ofJson?_toJson (matched : Leaf) : ofJson? matched.toJson = some matched := by
  obtain ⟨text, position⟩ := matched
  cases position with
  | none => simp [toJson, ofJson?, Json.only?, Json.named, Json.text?, Position.ofMember?]
  | some position =>
      have back := position.ofJson?_toJson
      have member : Position.ofMember? [position.toJson] = some (some position) := by
        rw [Position.ofMember?, back]
        · rfl
        · rintro ⟨⟩
      simp [toJson, ofJson?, Json.only?, Json.named, Json.text?, member]

theorem Json.integral_ofWord (value : UInt32) : (ofWord value).Integral := by
  have small := value.toNat_lt
  have size : (UInt64.size : Int) = 18446744073709551616 := rfl
  have half : ((Nat.pow 2 63 : Nat) : Int) = 9223372036854775808 := rfl
  exact .integer (by omega) (by omega)

theorem Leaf.integral_toJson (matched : Leaf) : matched.toJson.Integral := by
  obtain ⟨text, position⟩ := matched
  cases position with
  | none => exact .object (by simp [Json.Integral.text])
  | some position =>
      have place : position.toJson.Integral :=
        .object (by simp [Json.integral_ofWord])
      exact .object (by simp [Json.Integral.text, place])

namespace Tree

theorem forestToJson_eq_map (forest : List Tree) : forestToJson forest = forest.map toJson := by
  induction forest with
  | nil => simp [forestToJson]
  | cons tree rest ih => simp [forestToJson, ih]

theorem forestOfJson?_map (forest : List Tree)
    (each : ∀ tree ∈ forest, ofJson? tree.toJson = some tree) :
    forestOfJson? (forest.map toJson) = some forest := by
  induction forest with
  | nil => simp [forestOfJson?]
  | cons tree rest ih =>
      have here := each tree (by simp)
      have later := ih fun other member => each other (by simp [member])
      simp [forestOfJson?, here, later]

theorem ofJson?_of_unlabeled (members : List (String × Json))
    (unlabeled : Json.named "label" members = []) :
    ofJson? (.object members) = (Leaf.ofJson? (.object members)).map leaf := by
  rw [ofJson?, Json.only?, unlabeled]
  rfl

theorem ofJson?_toJson (tree : Tree) : ofJson? tree.toJson = some tree := by
  induction tree with
  | leaf matched =>
      have back := matched.ofJson?_toJson
      have unlabeled : ∃ members, matched.toJson = .object members ∧
          Json.named "label" members = [] := by
        obtain ⟨text, position⟩ := matched
        cases position with
        | none => exact ⟨_, rfl, by simp [Json.named]⟩
        | some position => exact ⟨_, rfl, by simp [Json.named]⟩
      obtain ⟨members, shown, unlabeled⟩ := unlabeled
      rw [shown] at back
      rw [toJson, shown, ofJson?_of_unlabeled members unlabeled, back]
      rfl
  | node label children ih =>
      have below := forestOfJson?_map children ih
      simp [toJson, forestToJson_eq_map, ofJson?, childrenOfMembers?, Json.only?, Json.named,
        Json.text?, below]

theorem integral_toJson (tree : Tree) : tree.toJson.Integral := by
  induction tree with
  | leaf matched => exact matched.integral_toJson
  | node label children ih =>
      rw [toJson, forestToJson_eq_map]
      have below : (Json.list (children.map toJson)).Integral := by
        apply Json.Integral.list
        intro item member
        obtain ⟨child, among, rfl⟩ := List.mem_map.mp member
        exact ih child among
      exact .object (by simp [Json.Integral.text, below])

theorem ofDump_eq (tree : Tree) :
    ofDump tree.dump = if tree.toJson.depth ≤ Json.maxDepth then .ok tree else .error .tooDeep := by
  have ends : Json.EndsNumber [] := by simp [Json.EndsNumber]
  have shown : tree.dump.toList = tree.toJson.characters := by
    rw [dump, Json.compact, String.toList_ofList]
  have read := Json.run_readValue tree.toJson tree.integral_toJson Json.maxDepth [] ends
  rw [List.append_nil, ← shown] at read
  by_cases within : tree.toJson.depth ≤ Json.maxDepth
  · rw [if_pos within] at read ⊢
    apply Json.readDocument_of_ok
    rw [StateT.run_bind, read, Json.ok_bind, ofJson?_toJson]
    rfl
  · rw [if_neg within] at read ⊢
    apply Json.readDocument_of_error
    rw [StateT.run_bind, read]
    rfl

/-- The dump of a tree is read as that tree, as long as its brackets are nested at most 127 deep,
and refused if they are nested deeper. -/
theorem ofDump_dump (tree : Tree) :
    (ofDump tree.dump).mapError LoadError.dump =
      if Json.nesting tree.dump ≤ 127 then .ok tree else .error (.dump .tooDeep) := by
  rw [ofDump_eq, dump, Json.nesting_compact tree.integral_toJson, Json.maxDepth]
  split <;> rfl

end Tree

end ParseView
