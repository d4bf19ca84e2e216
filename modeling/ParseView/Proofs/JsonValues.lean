import ParseView.Proofs.JsonTokens

/-! Reading back whole JSON values from their compact text. A value is read if its lists and
objects are not nested too deep, and refused if they are. -/

namespace ParseView.Json

def separated (isFirst : Bool) : List (List Char) → List Char
  | [] => []
  | part :: rest => (if isFirst then [] else [',']) ++ part ++ separated false rest

def memberText (member : String × Json) : List Char :=
  textCharacters member.1 ++ ':' :: member.2.characters

theorem eq_separated {α : Type} (shown : α → List Char) (joined : List α → List Char)
    (nothing : joined [] = []) (single : ∀ last, joined [last] = shown last)
    (several : ∀ first next rest,
      joined (first :: next :: rest) = shown first ++ ',' :: joined (next :: rest))
    (items : List α) : joined items = separated true (items.map shown) := by
  have lead (first : α) (rest : List α) (isFirst : Bool) :
      (if isFirst then [] else [',']) ++ joined (first :: rest) =
        separated isFirst ((first :: rest).map shown) := by
    induction rest generalizing first isFirst with
    | nil => simp [single, separated]
    | cons next rest ih =>
        have later : ',' :: joined (next :: rest) = separated false ((next :: rest).map shown) := by
          simpa using ih next false
        rw [several, later]
        simp [separated]
  cases items with
  | nil => exact nothing
  | cons first rest => exact lead first rest true

theorem listCharacters_eq (items : List Json) :
    listCharacters items = separated true (items.map characters) := by
  apply eq_separated
  · rw [listCharacters]
  · intro last
    rw [listCharacters]
  · intro first next rest
    rw [listCharacters]

theorem memberCharacters_eq (members : List (String × Json)) :
    memberCharacters members = separated true (members.map memberText) := by
  apply eq_separated
  · rw [memberCharacters]
  · intro last
    rw [memberCharacters, memberText]
  · intro first next rest
    rw [memberCharacters, memberText]

theorem endsNumber_separated (parts : List (List Char)) (closer : Char) (rest : List Char)
    (closes : closer = ']' ∨ closer = '\x7d') :
    EndsNumber (separated false parts ++ closer :: rest) := by
  intro next leads
  cases parts with
  | nil =>
      obtain rfl : closer = next := by simpa [separated] using leads
      rcases closes with rfl | rfl <;> decide
  | cons part parts =>
      obtain rfl : ',' = next := by simpa [separated] using leads
      decide

theorem length_le_separated (isFirst : Bool) (parts : List (List Char))
    (nonempty : ∀ part ∈ parts, part ≠ []) : parts.length ≤ (separated isFirst parts).length := by
  induction parts generalizing isFirst with
  | nil => exact Nat.le_refl _
  | cons part rest ih =>
      have here := List.length_pos_iff.mpr (nonempty part (by simp))
      have later := ih false fun other member => nonempty other (by simp [member])
      simp only [separated, List.length_append, List.length_cons]
      omega

section Elements

variable {α : Type} (element : Reader α) (shown : α → List Char) (readable : α → Prop)
  [DecidablePred readable] (fault : Fault)

/-- The text of an item is read as that item, or refused with the fault if it is not readable. -/
structure ReadsBack (item : α) : Prop where
  starts : ∃ first rest, shown item = first :: rest ∧ isSpace first = false ∧ first ≠ ']'
  reads : ∀ rest, EndsNumber rest → element.run (shown item ++ rest) =
    if readable item then .ok (item, rest) else .error fault

variable {element shown readable fault}

theorem run_elementsFrom (items : List α)
    (each : ∀ item ∈ items, ReadsBack element shown readable fault item) (bound : List Char)
    (isFirst : Bool) (collected : List α) (rest : List Char)
    (enough : items.length < bound.length) :
    (elementsFrom element bound isFirst collected).run
        (separated isFirst (items.map shown) ++ ']' :: rest) =
      if ∀ item ∈ items, readable item then .ok (collected.reverse ++ items, ']' :: rest)
      else .error fault := by
  -- The bound loses a character with each element, and has more of them than there are elements.
  induction items generalizing bound isFirst collected with
  | nil =>
      obtain ⟨_, bound, rfl⟩ := List.exists_cons_of_length_pos enough
      simp [elementsFrom, separated, run_hasElement_close rest isFirst]
  | cons item items ih =>
      obtain ⟨_, bound, rfl⟩ := List.exists_cons_of_length_pos (Nat.zero_lt_of_lt enough)
      have back := each item (by simp)
      obtain ⟨first, tail, text, visible, opens⟩ := back.starts
      have following : (hasElement isFirst).run
            (separated isFirst ((item :: items).map shown) ++ ']' :: rest) =
          .ok (true, shown item ++ (separated false (items.map shown) ++ ']' :: rest)) := by
        cases isFirst with
        | true => simp [separated, text, run_hasElement_first first _ visible opens]
        | false => simp [separated, text, run_hasElement_next first _ visible opens]
      have read := back.reads _ (endsNumber_separated (items.map shown) ']' rest (.inl rfl))
      have later := ih (fun other member => each other (by simp [member])) bound false
        (item :: collected) (by simpa using enough)
      rw [elementsFrom, StateT.run_bind, following, ok_bind]
      by_cases good : readable item
      · simp [read, good, later]
      · simp [read, good]

theorem run_elements (items : List α)
    (each : ∀ item ∈ items, ReadsBack element shown readable fault item) (rest : List Char) :
    (elements element).run ('[' :: (separated true (items.map shown) ++ ']' :: rest)) =
      if ∀ item ∈ items, readable item then .ok (items, rest) else .error fault := by
  have nonempty : ∀ part ∈ items.map shown, part ≠ [] := by
    intro part member
    obtain ⟨item, among, rfl⟩ := List.mem_map.mp member
    obtain ⟨first, tail, text, _⟩ := (each item among).starts
    simp [text]
  have long := length_le_separated true (items.map shown) nonempty
  have read := run_elementsFrom items each (separated true (items.map shown) ++ ']' :: rest) true []
    rest (by simp only [List.length_map] at long; simp; omega)
  rw [elements, StateT.run_bind, run_advance, ok_bind, StateT.run_bind]
  simp only [StateT.run_bind, StateT.run_get, pure_eq_ok, ok_bind, List.tail_cons, read]
  split
  · simp [run_advance]
  · rfl

end Elements

section Members

variable {Gathered : Type} {member : String → Gathered → Reader Gathered}

/-- What comes of reading members one after the other, up to the first that is refused. -/
inductive Gathers (member : String → Gathered → Reader Gathered) :
    Gathered → List (String × Json) → Except Fault Gathered → Prop where
  | done (gathered : Gathered) : Gathers member gathered [] (.ok gathered)
  | read {key : String} {value : Json} {rest : List (String × Json)} {gathered next : Gathered}
      {outcome : Except Fault Gathered} :
      (∀ after, EndsNumber after →
        (member key gathered).run (':' :: value.characters ++ after) = .ok (next, after)) →
      Gathers member next rest outcome → Gathers member gathered ((key, value) :: rest) outcome
  | refused {key : String} {value : Json} {rest : List (String × Json)} {gathered : Gathered}
      {fault : Fault} :
      (∀ after, EndsNumber after →
        (member key gathered).run (':' :: value.characters ++ after) = .error fault) →
      Gathers member gathered ((key, value) :: rest) (.error fault)

theorem run_hasMember (isFirst : Bool) (first : String × Json) (members : List (String × Json))
    (rest : List Char) :
    (hasMember isFirst).run
        (separated isFirst ((first :: members).map memberText) ++ '\x7d' :: rest) =
      .ok (true, textCharacters first.1 ++ (':' :: first.2.characters ++
        (separated false (members.map memberText) ++ '\x7d' :: rest))) := by
  cases isFirst with
  | true => simp [separated, memberText, textCharacters, run_hasMember_first]
  | false => simp [separated, memberText, textCharacters, run_hasMember_next]

theorem run_membersFrom {gathered : Gathered} {members : List (String × Json)}
    {outcome : Except Fault Gathered} (gathers : Gathers member gathered members outcome)
    (bound : List Char) (isFirst : Bool) (rest : List Char)
    (enough : members.length < bound.length) :
    (membersFrom readText member bound isFirst gathered).run
        (separated isFirst (members.map memberText) ++ '\x7d' :: rest) =
      (fun value => (value, '\x7d' :: rest)) <$> outcome := by
  induction gathers generalizing bound isFirst with
  | done gathered =>
      obtain ⟨_, bound, rfl⟩ := List.exists_cons_of_length_pos enough
      simp [membersFrom, separated, run_hasMember_close rest isFirst]
  | @read key value members gathered next outcome reads _ ih =>
      obtain ⟨_, bound, rfl⟩ := List.exists_cons_of_length_pos (Nat.zero_lt_of_lt enough)
      have ends := endsNumber_separated (members.map memberText) '\x7d' rest (.inr rfl)
      rw [membersFrom, StateT.run_bind, run_hasMember, ok_bind, if_pos rfl, StateT.run_bind,
        run_readText, ok_bind, StateT.run_bind, reads _ ends, ok_bind]
      exact ih bound false (by simpa using enough)
  | @refused key value members gathered fault refuses =>
      obtain ⟨_, bound, rfl⟩ := List.exists_cons_of_length_pos (Nat.zero_lt_of_lt enough)
      have ends := endsNumber_separated (members.map memberText) '\x7d' rest (.inr rfl)
      rw [membersFrom, StateT.run_bind, run_hasMember, ok_bind, if_pos rfl, StateT.run_bind,
        run_readText, ok_bind, StateT.run_bind, refuses _ ends]
      rfl

theorem run_members {start : Gathered} {members : List (String × Json)}
    {outcome : Except Fault Gathered} (gathers : Gathers member start members outcome)
    (rest : List Char) :
    (Json.members readText member start).run
        ('\x7b' :: (separated true (members.map memberText) ++ '\x7d' :: rest)) =
      (fun value => (value, rest)) <$> outcome := by
  have nonempty : ∀ part ∈ members.map memberText, part ≠ [] := by
    intro part member
    obtain ⟨item, among, rfl⟩ := List.mem_map.mp member
    simp [memberText]
  have long := length_le_separated true (members.map memberText) nonempty
  have read := run_membersFrom gathers (separated true (members.map memberText) ++ '\x7d' :: rest)
    true rest (by simp only [List.length_map] at long; simp; omega)
  rw [Json.members, StateT.run_bind, run_advance, ok_bind]
  simp only [StateT.run_bind, StateT.run_get, pure_eq_ok, ok_bind, List.tail_cons, read]
  cases outcome with
  | ok value => simp [run_advance]
  | error fault => rfl

variable {value : Reader Json} {depth : Nat}

def ReadsValue (value : Reader Json) (depth : Nat) (item : Json) : Prop :=
  ∀ rest, EndsNumber rest → value.run (item.characters ++ rest) =
    if item.depth ≤ depth then .ok (item, rest) else .error .tooDeep

theorem run_addMember (member : String × Json) (reads : ReadsValue value depth member.2)
    (collected : List (String × Json)) (rest : List Char) (ends : EndsNumber rest) :
    (addMember value member.1 collected).run (':' :: member.2.characters ++ rest) =
      if member.2.depth ≤ depth then .ok (member :: collected, rest) else .error .tooDeep := by
  have read := reads rest ends
  rw [List.cons_append, addMember, StateT.run_bind, run_colon, ok_bind]
  simp only [StateT.run_bind, read]
  split <;> rfl

theorem gathers_addMember (members : List (String × Json))
    (each : ∀ member ∈ members, ReadsValue value depth member.2)
    (collected : List (String × Json)) :
    Gathers (addMember value) collected members
      (if ∀ member ∈ members, member.2.depth ≤ depth then .ok (members.reverse ++ collected)
      else .error .tooDeep) := by
  induction members generalizing collected with
  | nil => exact .done collected
  | cons member members ih =>
      have read := run_addMember member (each member (by simp)) collected
      have later := ih (fun other among => each other (by simp [among])) (member :: collected)
      by_cases good : member.2.depth ≤ depth
      · simp only [good, ↓reduceIte] at read
        simp only [List.forall_mem_cons, good, true_and, List.reverse_cons, List.append_assoc,
          List.singleton_append]
        exact .read read later
      · simp only [good, ↓reduceIte] at read
        simp only [List.forall_mem_cons, good, false_and, ↓reduceIte]
        exact .refused read

end Members

theorem listDepth_le_iff (items : List Json) (bound : Nat) :
    listDepth items ≤ bound ↔ ∀ item ∈ items, item.depth ≤ bound := by
  induction items with
  | nil => simp [listDepth]
  | cons first rest ih => rw [listDepth, Nat.max_le, ih, List.forall_mem_cons]

theorem memberDepth_eq_listDepth (members : List (String × Json)) :
    memberDepth members = listDepth (members.map Prod.snd) := by
  induction members with
  | nil => rfl
  | cons first rest ih => rw [memberDepth, ih, List.map_cons, listDepth]

theorem memberDepth_le_iff (members : List (String × Json)) (bound : Nat) :
    memberDepth members ≤ bound ↔ ∀ member ∈ members, member.2.depth ≤ bound := by
  rw [memberDepth_eq_listDepth, listDepth_le_iff, List.forall_mem_map]

/-- Every number of the value is an integer that 64 bits can hold. -/
inductive Integral : Json → Prop
  | null : Integral null
  | boolean (value : Bool) : Integral (boolean value)
  | integer {value : Int} : -Nat.pow 2 63 ≤ value → value < UInt64.size →
      Integral (number (.integer value))
  | text (value : String) : Integral (text value)
  | list {items : List Json} : (∀ item ∈ items, Integral item) → Integral (list items)
  | object {members : List (String × Json)} : (∀ member ∈ members, Integral member.2) →
      Integral (object members)

theorem run_word (expected rest : List Char) :
    (word expected).run (expected ++ rest) = .ok ((), rest) := by
  induction expected with
  | nil => rfl
  | cons first expected ih =>
      simp [word, run_head?, run_advance, ih]

def SignOrDigit (character : Char) : Prop :=
  character = '-' ∨ character.isDigit

instance (character : Char) : Decidable (SignOrDigit character) :=
  inferInstanceAs (Decidable (character = '-' ∨ character.isDigit))

theorem signOrDigit_of_mem {value : Int} {character : Char}
    (member : character ∈ (toString value).toList) : SignOrDigit character := by
  rw [Int.toString_eq_repr, Int.repr_eq_if] at member
  split at member
  · rw [Nat.repr_eq_ofList_toDigits, String.toList_ofList] at member
    exact .inr (isDigit_of_mem member)
  · rw [Nat.repr_eq_ofList_toDigits, String.toList_append, String.toList_ofList] at member
    rcases List.mem_append.mp member with sign | digit
    · exact .inl (List.mem_singleton.mp sign)
    · exact .inr (isDigit_of_mem (by simpa using digit))

theorem exists_signOrDigit (value : Int) :
    ∃ first rest, (toString value).toList = first :: rest ∧ SignOrDigit first := by
  have nonempty : (toString value).toList ≠ [] := by
    rw [Int.toString_eq_repr, Int.repr_eq_if]
    split <;> simp [Nat.repr_eq_ofList_toDigits, Nat.toDigits_ne_nil]
  obtain ⟨first, rest, shown⟩ := List.exists_cons_of_ne_nil nonempty
  exact ⟨first, rest, shown, signOrDigit_of_mem (shown ▸ List.mem_cons_self)⟩

theorem SignOrDigit.ne {first : Char} (starts : SignOrDigit first) (other : Char)
    (different : ¬SignOrDigit other) : first ≠ other := by
  rintro rfl
  exact different starts

theorem SignOrDigit.isSpace {first : Char} (starts : SignOrDigit first) :
    isSpace first = false := by
  simp [Json.isSpace, starts.ne ' ' (by decide), starts.ne '\t' (by decide),
    starts.ne '\n' (by decide), starts.ne '\r' (by decide)]

theorem readScalar_of_signOrDigit {first : Char} (starts : SignOrDigit first) :
    readScalar first = (do return .number (← readNumber)) := by
  have null := starts.ne 'n' (by decide)
  have yes := starts.ne 't' (by decide)
  have no := starts.ne 'f' (by decide)
  have quote := starts.ne '"' (by decide)
  unfold readScalar
  split
  · exact absurd rfl null
  · exact absurd rfl yes
  · exact absurd rfl no
  · exact absurd rfl quote
  · exact if_pos starts

section Scalars

variable (list object : Reader Json) (rest : List Char)

theorem run_readValueOf_scalar (first : Char) (visible : isSpace first = false)
    (scalar : first ≠ '[' ∧ first ≠ '\x7b') :
    (readValueOf list object).run (first :: rest) = (readScalar first).run (first :: rest) := by
  obtain ⟨notList, notObject⟩ := scalar
  rw [readValueOf, StateT.run_bind, run_peek first rest visible, ok_bind]
  simp

theorem run_readValueOf_literal (first : Char) (text : String) (value : Json)
    (starts : text.toList.head? = some first) (visible : isSpace first = false)
    (scalar : first ≠ '[' ∧ first ≠ '\x7b')
    (literal : readScalar first = (do word text.toList; return value)) :
    (readValueOf list object).run (text.toList ++ rest) = .ok (value, rest) := by
  have read : (readScalar first).run (text.toList ++ rest) = .ok (value, rest) := by
    rw [literal, StateT.run_bind, run_word]
    rfl
  obtain ⟨letters, shown⟩ := List.head?_eq_some_iff.mp starts
  rw [shown, List.cons_append] at read ⊢
  rw [run_readValueOf_scalar list object _ first visible scalar, read]

theorem run_readValueOf_text (value : String) :
    (readValueOf list object).run (textCharacters value ++ rest) = .ok (.text value, rest) := by
  have read : (readScalar '"').run (textCharacters value ++ rest) = .ok (.text value, rest) := by
    simp [readScalar, run_readText]
  rw [textCharacters, List.cons_append, List.cons_append] at read ⊢
  rw [run_readValueOf_scalar list object _ '"' (by decide) (by decide), read]

theorem run_readValueOf_number (value : Int) (ends : EndsNumber rest)
    (least : -Nat.pow 2 63 ≤ value) (greatest : value < UInt64.size) :
    (readValueOf list object).run ((toString value).toList ++ rest) =
      .ok (.number (.integer value), rest) := by
  have read := run_readNumber value rest ends least greatest
  obtain ⟨first, tail, shown, starts⟩ := exists_signOrDigit value
  rw [shown, List.cons_append] at read ⊢
  rw [run_readValueOf_scalar list object _ first starts.isSpace
    ⟨starts.ne '[' (by decide), starts.ne '\x7b' (by decide)⟩, readScalar_of_signOrDigit starts]
  simp [read]

theorem run_readValueOf_list :
    (readValueOf list object).run ('[' :: rest) = list.run ('[' :: rest) := by
  rw [readValueOf, StateT.run_bind, run_peek '[' rest (by decide)]
  rfl

theorem run_readValueOf_object :
    (readValueOf list object).run ('\x7b' :: rest) = object.run ('\x7b' :: rest) := by
  rw [readValueOf, StateT.run_bind, run_peek '\x7b' rest (by decide)]
  rfl

end Scalars

theorem exists_first_character {value : Json} (integral : value.Integral) :
    ∃ first rest, value.characters = first :: rest ∧ isSpace first = false ∧ first ≠ ']' := by
  cases integral with
  | null => exact ⟨'n', _, rfl, by decide, by decide⟩
  | boolean value => cases value <;> exact ⟨_, _, rfl, by decide, by decide⟩
  | @integer value least greatest =>
      obtain ⟨first, tail, shown, starts⟩ := exists_signOrDigit value
      exact ⟨first, tail, by rw [characters, Number.characters, shown], starts.isSpace,
        starts.ne ']' (by decide)⟩
  | text value => exact ⟨'"', _, rfl, by decide, by decide⟩
  | list each => exact ⟨'[', _, by rw [characters, List.cons_append], by decide, by decide⟩
  | object each => exact ⟨'\x7b', _, by rw [characters, List.cons_append], by decide, by decide⟩

theorem exists_readValue_eq (depth : Nat) :
    ∃ list object, readValue depth = readValueOf list object := by
  cases depth <;> exact ⟨_, _, rfl⟩

theorem readsValue_of_flat {value : Json} (flat : value.depth = 0)
    (read : ∀ list object rest, EndsNumber rest →
      (readValueOf list object).run (value.characters ++ rest) = .ok (value, rest))
    (depth : Nat) : ReadsValue (readValue depth) depth value := by
  intro rest ends
  obtain ⟨list, object, same⟩ := exists_readValue_eq depth
  rw [same, read list object rest ends, flat, if_pos (Nat.zero_le depth)]

theorem run_readValue (value : Json) (integral : value.Integral) (depth : Nat) :
    ReadsValue (readValue depth) depth value := by
  -- The depth is arbitrary: the parts of a value are read with less of it left.
  induction integral generalizing depth with
  | null =>
      refine readsValue_of_flat rfl (fun list object rest _ => ?_) depth
      exact run_readValueOf_literal list object rest 'n' "null" .null (by decide) (by decide)
        (by decide) rfl
  | boolean value =>
      refine readsValue_of_flat rfl (fun list object rest _ => ?_) depth
      cases value with
      | true =>
          exact run_readValueOf_literal list object rest 't' "true" (.boolean true) (by decide)
            (by decide) (by decide) rfl
      | false =>
          exact run_readValueOf_literal list object rest 'f' "false" (.boolean false) (by decide)
            (by decide) (by decide) rfl
  | @integer value least greatest =>
      refine readsValue_of_flat rfl (fun list object rest ends => ?_) depth
      exact run_readValueOf_number list object rest value ends least greatest
  | text value =>
      refine readsValue_of_flat rfl (fun list object rest _ => ?_) depth
      exact run_readValueOf_text list object rest value
  | @list items each ih =>
      intro rest ends
      have shown : (list items).characters ++ rest =
          '[' :: (separated true (items.map characters) ++ ']' :: rest) := by
        simp [characters, listCharacters_eq]
      rw [shown, Json.depth]
      cases depth with
      | zero =>
          rw [readValue, run_readValueOf_list, if_neg (Nat.not_succ_le_zero _)]
          rfl
      | succ depth =>
          have parts : ∀ item ∈ items, ReadsBack (readValue depth) characters
              (fun item => item.depth ≤ depth) .tooDeep item :=
            fun item member => ⟨exists_first_character (each item member), ih item member depth⟩
          rw [readValue, run_readValueOf_list, StateT.run_bind, run_elements items parts rest]
          simp only [Nat.add_le_add_iff_right, listDepth_le_iff]
          split <;> rfl
  | @object members each ih =>
      intro rest ends
      have shown : (object members).characters ++ rest =
          '\x7b' :: (separated true (members.map memberText) ++ '\x7d' :: rest) := by
        simp [characters, memberCharacters_eq]
      rw [shown, Json.depth]
      cases depth with
      | zero =>
          rw [readValue, run_readValueOf_object, if_neg (Nat.not_succ_le_zero _)]
          rfl
      | succ depth =>
          have parts : ∀ member ∈ members, ReadsValue (readValue depth) depth member.2 :=
            fun member among => ih member among depth
          rw [readValue, run_readValueOf_object, StateT.run_bind,
            run_members (gathers_addMember members parts []) rest]
          simp only [Nat.add_le_add_iff_right, memberDepth_le_iff]
          split
          · simp
          · rfl

end ParseView.Json
