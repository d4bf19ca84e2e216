import ParseView.Proofs.JsonValues

/-! What holds of every value that is read, whatever the text: its lists and objects are nested no
deeper than its reader allows. -/

namespace ParseView.Json

variable {α β : Type}

theorem run_bind_eq_ok_iff {first : Reader α} {next : α → Reader β} {input rest : List Char}
    {value : β} :
    (first >>= next).run input = .ok (value, rest) ↔
      ∃ content between, first.run input = .ok (content, between) ∧
        (next content).run between = .ok (value, rest) := by
  rw [StateT.run_bind]
  constructor
  · intro read
    cases found : first.run input with
    | error fault => simp [found] at read
    | ok reached =>
        rw [found, ok_bind] at read
        exact ⟨reached.1, reached.2, rfl, read⟩
  · rintro ⟨content, between, found, read⟩
    rw [found, ok_bind, read]

theorem readDocument_eq_ok_iff {document : Reader α} {text : String} {value : α} :
    readDocument document text = .ok value ↔
      ∃ rest after, document.run text.toList = .ok (value, rest) ∧
        finish.run rest = .ok ((), after) := by
  have whole : readDocument document text = .ok value ↔
      ∃ after, (do let value ← document; finish; return value : Reader α).run text.toList =
        .ok (value, after) := by
    rw [readDocument_eq]
    cases (do let value ← document; finish; return value : Reader α).run text.toList with
    | error fault => simp [Functor.map, Except.map]
    | ok found => simp [Prod.ext_iff]
  rw [whole]
  constructor
  · rintro ⟨after, read⟩
    obtain ⟨content, rest, found, later⟩ := run_bind_eq_ok_iff.mp read
    obtain ⟨_, between, ended, last⟩ := run_bind_eq_ok_iff.mp later
    obtain ⟨rfl, rfl⟩ := Prod.mk.inj (Except.ok.inj last)
    exact ⟨rest, between, found, ended⟩
  · rintro ⟨rest, after, found, ended⟩
    refine ⟨after, run_bind_eq_ok_iff.mpr ⟨value, rest, found, ?_⟩⟩
    exact run_bind_eq_ok_iff.mpr ⟨(), after, ended, rfl⟩

def Yields (reader : Reader α) (good : α → Prop) : Prop :=
  ∀ input value rest, reader.run input = .ok (value, rest) → good value

namespace Yields

variable {good : α → Prop} {fine : β → Prop}

theorem pure {value : α} (holds : good value) : Yields (Pure.pure value) good := by
  intro input content rest read
  obtain ⟨rfl, _⟩ := Prod.mk.inj (Except.ok.inj read)
  exact holds

theorem throw (fault : Fault) : Yields (MonadExcept.throw fault : Reader α) good := by
  intro input value rest read
  cases read

theorem bind {first : Reader α} {next : α → Reader β} (before : Yields first good)
    (after : ∀ content, good content → Yields (next content) fine) :
    Yields (first >>= next) fine := by
  intro input value rest read
  obtain ⟨content, between, found, later⟩ := run_bind_eq_ok_iff.mp read
  exact after content (before input content between found) between value rest later

theorem after {first : Reader α} {next : α → Reader β}
    (later : ∀ content, Yields (next content) fine) : Yields (first >>= next) fine := by
  have anything : Yields first fun _ => True := fun _ _ _ _ => trivial
  exact bind anything fun content _ => later content

theorem elementsFrom {element : Reader α} (each : Yields element good) (bound : List Char)
    (isFirst : Bool) (collected : List α) (before : ∀ item ∈ collected, good item) :
    Yields (elementsFrom element bound isFirst collected) fun items =>
      ∀ item ∈ items, good item := by
  induction bound generalizing isFirst collected with
  | nil => exact throw _
  | cons _ bound ih =>
      refine after fun another => ?_
      split
      · refine bind each fun item holds => ih false (item :: collected) ?_
        exact List.forall_mem_cons.mpr ⟨holds, before⟩
      · exact pure (by simpa using before)

theorem elements {element : Reader α} (each : Yields element good) :
    Yields (elements element) fun items => ∀ item ∈ items, good item := by
  refine after fun _ => after fun input => ?_
  refine bind (elementsFrom each input true [] (by simp)) fun items holds => ?_
  exact after fun _ => pure holds

section Members

variable {key : Reader String} {member : String → α → Reader α}
  (each : ∀ name gathered, good gathered → Yields (member name gathered) good)

include each

theorem membersFrom (bound : List Char) (isFirst : Bool) (gathered : α) (before : good gathered) :
    Yields (membersFrom key member bound isFirst gathered) good := by
  induction bound generalizing isFirst gathered with
  | nil => exact throw _
  | cons _ bound ih =>
      refine after fun another => ?_
      split
      · refine after fun name => bind (each name gathered before) fun next holds => ?_
        exact ih false next holds
      · exact pure before

theorem members {start : α} (initial : good start) : Yields (members key member start) good := by
  refine after fun _ => after fun input => ?_
  refine bind (membersFrom each input true start initial) fun gathered holds => ?_
  exact after fun _ => pure holds

end Members

end Yields

theorem yields_readScalar (first : Char) :
    Yields (readScalar first) fun value => value.depth = 0 := by
  unfold readScalar
  split
  · exact .after fun _ => .pure rfl
  · exact .after fun _ => .pure rfl
  · exact .after fun _ => .pure rfl
  · exact .after fun _ => .pure rfl
  · split
    · exact .after fun _ => .pure rfl
    · exact .throw _

theorem yields_readValueOf {list object : Reader Json} {bound : Nat}
    (lists : Yields list fun value => value.depth ≤ bound)
    (objects : Yields object fun value => value.depth ≤ bound) :
    Yields (readValueOf list object) fun value => value.depth ≤ bound := by
  refine .after fun first => ?_
  split
  · exact .throw _
  · exact lists
  · exact objects
  · next first _ _ =>
      intro input value rest read
      have flat := yields_readScalar first input value rest read
      omega

/-- A value that is read is nested no deeper than it may be. -/
theorem yields_readValue (depth : Nat) :
    Yields (readValue depth) fun value => value.depth ≤ depth := by
  induction depth with
  | zero => exact yields_readValueOf (.throw _) (.throw _)
  | succ depth ih =>
      refine yields_readValueOf ?_ ?_
      · refine .bind (.elements ih) fun items each => .pure ?_
        rw [Json.depth, Nat.add_le_add_iff_right, listDepth_le_iff]
        exact each
      · have step (name : String) (collected : List (String × Json))
            (before : ∀ member ∈ collected, member.2.depth ≤ depth) :
            Yields (addMember (readValue depth) name collected) fun members =>
              ∀ member ∈ members, member.2.depth ≤ depth := by
          refine .after fun _ => .bind ih fun value below => .pure ?_
          exact List.forall_mem_cons.mpr ⟨below, before⟩
        refine .bind (.members step (by simp)) fun members each => .pure ?_
        rw [Json.depth, Nat.add_le_add_iff_right, memberDepth_le_iff]
        simpa using each

def ofText (text : String) : Except Fault Json :=
  readDocument (readValue maxDepth) text

theorem depth_le_of_ofText {text : String} {value : Json} (read : ofText text = .ok value) :
    value.depth ≤ maxDepth := by
  obtain ⟨rest, _, found, _⟩ := readDocument_eq_ok_iff.mp read
  exact yields_readValue maxDepth text.toList value rest found

theorem integral_list_iff {items : List Json} :
    (list items).Integral ↔ ∀ item ∈ items, item.Integral :=
  ⟨fun | .list each => each, .list⟩

theorem integral_object_iff {members : List (String × Json)} :
    (object members).Integral ↔ ∀ member ∈ members, member.2.Integral :=
  ⟨fun | .object each => each, .object⟩

theorem ofText_compact {value : Json} (integral : value.Integral)
    (within : value.depth ≤ maxDepth) : ofText value.compact = .ok value := by
  have ends : EndsNumber [] := by simp [EndsNumber]
  have read := run_readValue value integral maxDepth [] ends
  rw [if_pos within, List.append_nil] at read
  apply readDocument_of_ok
  rw [compact, String.toList_ofList, read]

end ParseView.Json
