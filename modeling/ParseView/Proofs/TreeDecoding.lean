import Mathlib.Data.List.Forall2
import ParseView.Proofs.JsonReading
import ParseView.Proofs.TreeDumps

/-! Which values of a dump are decoded to nodes, which to leaves, and which to neither. A value in
the form of a node is a node if all its children can be decoded, and may else be a leaf. -/

namespace ParseView

namespace Json

/-- The value has the form of a node with the label, and the values stand in it where trees are
expected. Other members than label and children do not matter. -/
inductive NodeForm : Json → String → List Json → Prop where
  | object {members : List (String × Json)} {label : String} {items : List Json} :
      named "label" members = [.text label] → named "children" members = [.list items] →
      NodeForm (.object members) label items
  | childless {members : List (String × Json)} {label : String} :
      named "label" members = [.text label] → named "children" members = [] →
      NodeForm (.object members) label []
  | listed {label : String} {items : List Json} :
      NodeForm (.list [.text label, .list items]) label items
  | listedChildless {label : String} : NodeForm (.list [.text label]) label []

theorem NodeForm.unique {value : Json} {label other : String} {items others : List Json}
    (form : NodeForm value label items) (again : NodeForm value other others) :
    label = other ∧ items = others := by
  cases form <;> cases again <;> simp_all

inductive HasElement (item : Json) : Json → Prop where
  | object {members : List (String × Json)} {items : List Json} :
      ("children", .list items) ∈ members → item ∈ items → HasElement item (.object members)
  | listed {first : Json} {items : List Json} :
      item ∈ items → HasElement item (.list [first, .list items])

theorem mem_named_iff {key : String} {members : List (String × Json)} {value : Json} :
    value ∈ named key members ↔ (key, value) ∈ members := by
  simp [named]

theorem NodeForm.mem_of_hasElement {value item : Json} {label : String} {items : List Json}
    (form : NodeForm value label items) (among : HasElement item value) : item ∈ items := by
  cases among with
  | object member inside =>
      rw [← mem_named_iff] at member
      cases form with
      | object _ children =>
          rw [children] at member
          simp_all
      | childless _ children => simp [children] at member
  | listed inside =>
      cases form with
      | listed => exact inside

theorem NodeForm.label_eq {members : List (String × Json)} {label other : String}
    {items : List Json} (form : NodeForm (.object members) label items)
    (member : ("label", .text other) ∈ members) : label = other := by
  rw [← mem_named_iff] at member
  cases form <;> simp_all

theorem named_of_only?_bind_text? {key : String} {members : List (String × Json)} {label : String}
    (labelled : (only? key members).bind text? = some label) :
    named key members = [.text label] := by
  unfold only? at labelled
  split at labelled
  · next value single =>
      cases value with
      | text value => simpa [single, text?] using labelled
      | _ => simp [text?] at labelled
  · simp at labelled

end Json

open Json

theorem Leaf.members_of_ofJson? {members : List (String × Json)} {matched : Leaf}
    (decoded : ofJson? (.object members) = some matched) :
    named "text" members = [.text matched.text] ∧
      Position.ofMember? (named "position" members) = some matched.position := by
  rw [ofJson?, Option.bind_eq_bind, Option.bind_eq_some_iff] at decoded
  obtain ⟨text, texted, rest⟩ := decoded
  rw [Option.bind_eq_bind, Option.bind_eq_some_iff] at rest
  obtain ⟨position, placed, made⟩ := rest
  obtain rfl := Option.some.inj made
  exact ⟨named_of_only?_bind_text? texted, placed⟩

namespace Tree

theorem childrenOfMembers?_eq (members : List (String × Json)) :
    childrenOfMembers? members =
      match named "children" members with
      | [] => some []
      | [.list items] => forestOfJson? items
      | _ => none := by
  induction members with
  | nil => simp [childrenOfMembers?, named]
  | cons member rest ih =>
      obtain ⟨key, value⟩ := member
      by_cases known : key = "children"
      · have front : named "children" ((key, value) :: rest) = value :: named "children" rest := by
          simp [named, known]
        cases value with
        | list items =>
            rw [childrenOfMembers?, if_pos known, front]
            cases named "children" rest <;> simp
        | _ => simp [childrenOfMembers?, known, named]
      · have front : named "children" ((key, value) :: rest) = named "children" rest := by
          simp [named, known]
        have skipped : childrenOfMembers? ((key, value) :: rest) = childrenOfMembers? rest := by
          cases value with
          | list items => rw [childrenOfMembers?, if_neg known]
          | _ => simp [childrenOfMembers?, known]
        rw [skipped, front, ih]

theorem forestOfJson?_eq_some_iff {items : List Json} {forest : List Tree} :
    forestOfJson? items = some forest ↔
      List.Forall₂ (fun item tree => ofJson? item = some tree) items forest := by
  induction items generalizing forest with
  | nil => simp [forestOfJson?, eq_comm]
  | cons first rest ih =>
      rw [forestOfJson?]
      constructor
      · intro decoded
        split at decoded
        · next here later =>
            obtain rfl := Option.some.inj decoded
            exact .cons here (ih.mp later)
        · simp at decoded
      · rintro (_ | ⟨here, later⟩)
        rw [here, ih.mpr later]

theorem forestOfJson?_eq_none_iff {items : List Json} :
    forestOfJson? items = none ↔ ∃ item ∈ items, ofJson? item = none := by
  induction items with
  | nil => simp [forestOfJson?]
  | cons first rest ih =>
      rw [forestOfJson?]
      cases here : ofJson? first with
      | none => simp [here]
      | some tree =>
          cases later : forestOfJson? rest with
          | none => simp_all
          | some trees => simp_all

theorem ofJson?_of_nodeForm {value : Json} {label : String} {items : List Json}
    (form : NodeForm value label items) :
    ofJson? value =
      match forestOfJson? items with
      | some children => some (node label children)
      | none => (Leaf.ofJson? value).map leaf := by
  cases form with
  | object labelled children =>
      simp only [ofJson?, childrenOfMembers?_eq, only?, labelled, children]
      cases forestOfJson? items <;> rfl
  | childless labelled children =>
      simp only [ofJson?, childrenOfMembers?_eq, only?, labelled, children]
      rfl
  | listed =>
      simp only [ofJson?, childrenOfItems?]
      cases forestOfJson? items <;> rfl
  | listedChildless => rfl

theorem nodeForm_or_ofJson?_eq (value : Json) :
    (∃ label items, NodeForm value label items) ∨
      ofJson? value = (Leaf.ofJson? value).map leaf := by
  cases value with
  | object members =>
      rw [ofJson?]
      split
      · next label children labelled filled =>
          have name := named_of_only?_bind_text? labelled
          rw [childrenOfMembers?_eq] at filled
          split at filled
          · next bare => exact .inl ⟨label, [], .childless name bare⟩
          · next items full => exact .inl ⟨label, items, .object name full⟩
          · simp at filled
      · exact .inr rfl
  | list items =>
      rcases items with _ | ⟨first, _ | ⟨second, _ | ⟨third, rest⟩⟩⟩
      · exact .inr rfl
      · cases first with
        | text label => exact .inl ⟨label, [], .listedChildless⟩
        | _ => exact .inr rfl
      · cases first with
        | text label =>
            cases second with
            | list items => exact .inl ⟨label, items, .listed⟩
            | _ => exact .inr rfl
        | _ => exact .inr (by cases second <;> rfl)
      · exact .inr (by cases first <;> cases second <;> rfl)
  | _ => exact .inr rfl

theorem ofJson?_eq_some_node_iff {value : Json} {label : String} {children : List Tree} :
    ofJson? value = some (node label children) ↔ ∃ items, NodeForm value label items ∧
      List.Forall₂ (fun item child => ofJson? item = some child) items children := by
  constructor
  · intro decoded
    rcases nodeForm_or_ofJson?_eq value with ⟨name, items, form⟩ | noNode
    · rw [ofJson?_of_nodeForm form] at decoded
      cases below : forestOfJson? items with
      | none => simp [below] at decoded
      | some forest =>
          obtain ⟨rfl, rfl⟩ : name = label ∧ forest = children := by simpa [below] using decoded
          exact ⟨items, form, forestOfJson?_eq_some_iff.mp below⟩
    · simp [noNode] at decoded
  · rintro ⟨items, form, each⟩
    rw [ofJson?_of_nodeForm form, forestOfJson?_eq_some_iff.mpr each]

theorem ofJson?_of_not_node {value : Json}
    (unfit : ∀ label items, NodeForm value label items → ∃ item ∈ items, ofJson? item = none) :
    ofJson? value = (Leaf.ofJson? value).map leaf := by
  rcases nodeForm_or_ofJson?_eq value with ⟨label, items, form⟩ | noNode
  · rw [ofJson?_of_nodeForm form, forestOfJson?_eq_none_iff.mpr (unfit label items form)]
  · exact noNode

theorem ofJson?_eq_some_leaf {value : Json} {matched : Leaf}
    (decoded : ofJson? value = some (leaf matched)) :
    Leaf.ofJson? value = some matched ∧
      ∀ label items, NodeForm value label items → ∃ item ∈ items, ofJson? item = none := by
  have unfit label items (form : NodeForm value label items) :
      ∃ item ∈ items, ofJson? item = none := by
    rw [ofJson?_of_nodeForm form] at decoded
    cases below : forestOfJson? items with
    | none => exact forestOfJson?_eq_none_iff.mp below
    | some forest => simp [below] at decoded
  refine ⟨?_, unfit⟩
  simpa [ofJson?_of_not_node unfit] using decoded

theorem ofJson?_eq_none_of_element {value item : Json} (among : HasElement item value)
    (undecoded : ofJson? item = none) (noLeaf : Leaf.ofJson? value = none) :
    ofJson? value = none := by
  rw [ofJson?_of_not_node fun label items form =>
    ⟨item, form.mem_of_hasElement among, undecoded⟩, noLeaf]
  rfl

theorem ofDump_eq_ok_iff {text : String} {tree : Tree} :
    ofDump text = .ok tree ↔ ∃ value, ofText text = .ok value ∧ ofJson? value = some tree := by
  simp only [ofDump, ofText, readDocument_eq_ok_iff]
  constructor
  · rintro ⟨rest, after, read, ended⟩
    obtain ⟨value, between, found, decided⟩ := run_bind_eq_ok_iff.mp read
    split at decided
    · next decoded =>
        obtain ⟨rfl, rfl⟩ := Prod.mk.inj (Except.ok.inj decided)
        exact ⟨value, ⟨between, after, found, ended⟩, decoded⟩
    · cases decided
  · rintro ⟨value, ⟨rest, after, found, ended⟩, decoded⟩
    refine ⟨rest, after, run_bind_eq_ok_iff.mpr ⟨value, rest, found, ?_⟩, ended⟩
    rw [decoded]
    rfl

theorem ofDump_of_undecoded {text : String} {value : Json} (read : ofText text = .ok value)
    (undecoded : ofJson? value = none) : ofDump text = .error .notTree := by
  obtain ⟨rest, _, found, _⟩ := readDocument_eq_ok_iff.mp read
  apply readDocument_of_error
  rw [StateT.run_bind, found, ok_bind, undecoded]
  rfl

/-- A value in a dump that stands where a tree is expected, and the tree that stands there. -/
inductive Stands (value : Json) (tree : Tree) : Json → Tree → Prop where
  | root : Stands value tree value tree
  | child {outer item : Json} {label : String} {items : List Json} {children : List Tree}
      {child : Tree} :
      Stands value tree outer (node label children) → NodeForm outer label items →
      (item, child) ∈ items.zip children → Stands value tree item child

theorem Stands.decoded {value item : Json} {tree found : Tree}
    (stands : Stands value tree item found) (decoded : ofJson? value = some tree) :
    ofJson? item = some found := by
  induction stands with
  | root => exact decoded
  | child _ form member ih =>
      obtain ⟨items, again, each⟩ := ofJson?_eq_some_node_iff.mp ih
      obtain ⟨_, rfl⟩ := form.unique again
      exact List.forall₂_zip each member

/-- What an object with a label is decoded to: a node with its elements, or else a leaf. -/
inductive DecodesLabelled (members : List (String × Json)) (label : String) : Tree → Prop where
  | node {items : List Json} {children : List Tree} :
      NodeForm (.object members) label items →
      List.Forall₂ (fun item child => ofJson? item = some child) items children →
      DecodesLabelled members label (node label children)
  | leaf {matched : Leaf} :
      (∀ items, NodeForm (.object members) label items → ∃ item ∈ items, ofJson? item = none) →
      named "text" members = [.text matched.text] →
      Position.ofMember? (named "position" members) = some matched.position →
      DecodesLabelled members label (leaf matched)

/-- The item stands in the value below the values around it, the innermost first, as an element
of the children of each. -/
inductive Encloses (value : Json) : List Json → Json → Prop where
  | root : Encloses value [] value
  | element {around : List Json} {outer item : Json} :
      Encloses value around outer → HasElement item outer → Encloses value (outer :: around) item

theorem decodesLabelled_of_decoded {members : List (String × Json)} {label : String} {found : Tree}
    (decoded : ofJson? (.object members) = some found)
    (labelled : ("label", .text label) ∈ members) : DecodesLabelled members label found := by
  cases found with
  | leaf matched =>
      obtain ⟨read, unfit⟩ := ofJson?_eq_some_leaf decoded
      obtain ⟨text, position⟩ := Leaf.members_of_ofJson? read
      exact .leaf (unfit label) text position
  | node name children =>
      obtain ⟨items, form, each⟩ := ofJson?_eq_some_node_iff.mp decoded
      obtain rfl := form.label_eq labelled
      exact .node form each

theorem Encloses.undecoded {value item : Json} {around : List Json}
    (encloses : Encloses value around item) (undecoded : ofJson? item = none)
    (noLeaf : ∀ outer ∈ around, Leaf.ofJson? outer = none) : ofJson? value = none := by
  induction encloses with
  | root => exact undecoded
  | element _ among ih =>
      rw [List.forall_mem_cons] at noLeaf
      exact ih (ofJson?_eq_none_of_element among undecoded noLeaf.1) noLeaf.2

/-- In a dump that is read, an object with a label is a node with one child for each of its
elements, or it is a leaf because not all of them can be decoded. A dump with an element that
cannot be decoded is refused, unless a value around the element is a leaf. -/
theorem labelled_objects_decoded (text : String) :
    (∀ tree, ofDump text = .ok tree → ∃ value, ofText text = .ok value ∧
      ∀ members label found, Stands value tree (.object members) found →
        ("label", .text label) ∈ members → DecodesLabelled members label found) ∧
    ∀ value, ofText text = .ok value → ∀ around item, Encloses value around item →
      ofJson? item = none → (∀ outer ∈ around, Leaf.ofJson? outer = none) →
      ofDump text = .error .notTree := by
  constructor
  · intro tree loaded
    obtain ⟨value, read, decoded⟩ := ofDump_eq_ok_iff.mp loaded
    refine ⟨value, read, ?_⟩
    intro members label found stands labelled
    exact decodesLabelled_of_decoded (stands.decoded decoded) labelled
  · intro value read around item encloses undecoded noLeaf
    exact ofDump_of_undecoded read (encloses.undecoded undecoded noLeaf)

theorem labelled_objects_decoded_nested :
    let dropped := [("label", Json.text "b"), ("children", .list [.boolean true]),
      ("text", .text "t")]
    let members := [("children", Json.list [.object dropped, .list [.text "c"]]), ("x", .null),
      ("label", .text "a")]
    let wrong := Json.list [.text "b", .null, .null]
    let refused := Json.list [.text "a", .list [.list [.text "c"], wrong]]
    let tree := node "a" [leaf ⟨"t", none⟩, node "c" []]
    ofDump (Json.object members).compact = .ok tree ∧
      DecodesLabelled members "a" tree ∧ DecodesLabelled dropped "b" (leaf ⟨"t", none⟩) ∧
      Encloses refused [refused] wrong ∧ ofJson? wrong = none ∧
      ofDump refused.compact = .error .notTree := by
  intro dropped members wrong refused tree
  have integral : (Json.object members).Integral := by
    simp [members, dropped, integral_object_iff, integral_list_iff, Integral.text, Integral.null,
      Integral.boolean]
  have read := ofText_compact integral (by decide)
  have loaded : ofDump (Json.object members).compact = .ok tree :=
    ofDump_eq_ok_iff.mpr ⟨_, read, rfl⟩
  obtain ⟨decoding, _⟩ := labelled_objects_decoded (Json.object members).compact
  obtain ⟨value, again, each⟩ := decoding tree loaded
  obtain rfl := Except.ok.inj (read.symm.trans again)
  have form : NodeForm (.object members) "a" [.object dropped, .list [.text "c"]] :=
    .object rfl rfl
  have below : Stands (.object members) tree (.object dropped) (leaf ⟨"t", none⟩) :=
    .child .root form (by simp)
  have integralRefused : refused.Integral := by
    simp [refused, wrong, integral_list_iff, Integral.text, Integral.null]
  have encloses : Encloses refused [refused] wrong := .element .root (.listed (by simp))
  obtain ⟨_, refusing⟩ := labelled_objects_decoded refused.compact
  have noLeaf : ∀ outer ∈ [refused], Leaf.ofJson? outer = none := by
    intro outer member
    obtain rfl := List.mem_singleton.mp member
    rfl
  have readRefused := ofText_compact integralRefused (by decide)
  exact ⟨loaded, each _ _ _ .root (by simp [members]), each _ _ _ below (by simp [dropped]),
    encloses, rfl, refusing refused readRefused [refused] wrong encloses rfl noLeaf⟩

/-- An object with a label is read as a leaf, although one of its children is no tree. -/
theorem labelled_object_becomes_leaf :
    let element := Json.object [("name", .text "x")]
    let members := [("label", Json.text "a"), ("children", .list [element]), ("text", .text "t")]
    let text := (Json.object members).compact
    text = "\x7b\"label\":\"a\",\"children\":[\x7b\"name\":\"x\"\x7d],\"text\":\"t\"\x7d" ∧
      ofText text = .ok (.object members) ∧ ofJson? element = none ∧
      ofDump text = .ok (leaf ⟨"t", none⟩) := by
  intro element members text
  have integral : (Json.object members).Integral := by
    simp [members, element, integral_object_iff, integral_list_iff, Integral.text]
  have read := ofText_compact integral (by decide)
  exact ⟨by decide, read, rfl, ofDump_eq_ok_iff.mpr ⟨_, read, rfl⟩⟩

end Tree

end ParseView
