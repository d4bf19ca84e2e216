import ParseView.Json.Reader.Record
import ParseView.Proofs.JsonValues

/-! Reading values of known types back from the compact text of their JSON values: texts, numbers,
values that may be null, lists, and records. -/

namespace ParseView.Json

variable {α β : Type}

/-- What comes of reading the compact text of a value, with anything behind it. -/
def Reads (reader : Reader α) (value : Json) (outcome : Except Fault α) : Prop :=
  ∀ rest, EndsNumber rest →
    reader.run (value.characters ++ rest) = (fun content => (content, rest)) <$> outcome

theorem run_valueStart (first : Char) (rest : List Char) (visible : isSpace first = false) :
    valueStart.run (first :: rest) = .ok (first, first :: rest) := by
  rw [valueStart, StateT.run_bind, run_peek first rest visible]
  rfl

theorem reads_expectText (value : String) : Reads expectText (.text value) (.ok value) := by
  intro rest _
  have quoted := run_readText value rest
  have shown : (text value).characters ++ rest =
      '"' :: (value.toList.flatMap escapedChar ++ ['"'] ++ rest) := rfl
  rw [expectText, shown, StateT.run_bind, run_valueStart '"' _ (by decide), ok_bind]
  exact quoted

theorem reads_expectNatural (expected : Expected) {bound value : Nat} (below : value < bound)
    (fits : bound ≤ UInt64.size) :
    Reads (expectNatural expected bound) (ofNat value) (.ok value) := by
  intro rest ends
  have read := run_readNumber value rest ends (by omega) (by omega)
  obtain ⟨first, tail, shown, starts⟩ := exists_signOrDigit value
  have numeral : first = '-' ∨ first.isDigit := starts
  have within : (0 : Int) ≤ value ∧ (value : Int) < bound := by omega
  have text : (ofNat value).characters = first :: tail := by
    rw [ofNat, characters, Number.characters, shown]
  rw [shown, List.cons_append] at read
  rw [text, List.cons_append, expectNatural, StateT.run_bind,
    run_valueStart first _ starts.isSpace, ok_bind]
  simp [numeral, read, within]

theorem run_check {reader : Reader α} {outcome : Except Fault α} {input rest : List Char}
    (read : reader.run input = (fun content => (content, rest)) <$> outcome)
    (check : α → Except Fault β) :
    (do check (← reader) : Reader β).run input =
      (fun content => (content, rest)) <$> (outcome >>= check) := by
  rw [StateT.run_bind, read]
  cases outcome with
  | error fault => rfl
  | ok content =>
      change (check content >>= fun made => Except.ok (made, rest)) =
        (fun made => (made, rest)) <$> check content
      cases check content <;> rfl

theorem reads_expectWord (value : UInt32) : Reads expectWord (ofWord value) (.ok value) := by
  intro rest ends
  have small : value.toNat < UInt32.size := value.toNat_lt
  have read := reads_expectNatural .word small (by decide) rest ends
  rw [ofWord, expectWord, StateT.run_bind, read]
  simp

def StartsUnlikeNull (value : Json) : Prop :=
  ∃ first rest, value.characters = first :: rest ∧ isSpace first = false ∧ first ≠ 'n'

theorem startsUnlikeNull_text (value : String) : StartsUnlikeNull (.text value) :=
  ⟨'"', _, rfl, by decide, by decide⟩

theorem startsUnlikeNull_ofNat (value : Nat) : StartsUnlikeNull (ofNat value) := by
  obtain ⟨first, rest, shown, starts⟩ := exists_signOrDigit value
  refine ⟨first, rest, ?_, starts.isSpace, starts.ne 'n' (by decide)⟩
  rw [ofNat, characters, Number.characters, shown]

theorem reads_expectOption {reader : Reader α} {convert : α → Json} (content : Option α)
    (reads : ∀ value ∈ content, Reads reader (convert value) (.ok value))
    (unlike : ∀ value ∈ content, StartsUnlikeNull (convert value)) :
    Reads (expectOption reader) (ofOption convert content) (.ok content) := by
  intro rest ends
  cases content with
  | none =>
      have word : (word "null".toList).run ('n' :: ("ull".toList ++ rest)) = .ok ((), rest) :=
        run_word "null".toList rest
      have shown : (ofOption convert none).characters ++ rest = 'n' :: ("ull".toList ++ rest) := rfl
      rw [expectOption, shown, StateT.run_bind, run_peek 'n' _ (by decide), ok_bind]
      simp only [StateT.run_bind]
      rw [word]
      rfl
  | some value =>
      obtain ⟨first, tail, shown, visible, other⟩ := unlike value rfl
      have read := reads value rfl rest ends
      rw [shown, List.cons_append] at read
      rw [ofOption, expectOption, shown, List.cons_append, StateT.run_bind,
        run_peek first _ visible, ok_bind]
      split
      · simp_all
      · rw [StateT.run_bind, read]
        rfl

theorem reads_expectList {reader : Reader α} {convert : α → Json} (items : List α)
    (integral : ∀ item ∈ items, (convert item).Integral)
    (reads : ∀ item ∈ items, Reads reader (convert item) (.ok item)) :
    Reads (expectList reader) (.list (items.map convert)) (.ok items) := by
  intro rest ends
  have back : ∀ item ∈ items, ReadsBack reader (fun item => (convert item).characters)
      (fun _ => True) .endInList item := by
    intro item member
    refine ⟨exists_first_character (integral item member), ?_⟩
    intro after endsAfter
    simpa using reads item member after endsAfter
  have read := run_elements items back rest
  have shown : (Json.list (items.map convert)).characters ++ rest =
      '[' :: (separated true (items.map fun item => (convert item).characters) ++ ']' :: rest) := by
    simp [characters, listCharacters_eq, Function.comp_def]
  rw [shown, expectList, StateT.run_bind, run_valueStart '[' _ (by decide), ok_bind]
  simpa using read

namespace RecordType

theorem run_once {reader : Reader α} {value : Json} {outcome : Except Fault α}
    (reads : Reads reader value outcome) (key : String) (rest : List Char)
    (ends : EndsNumber rest) :
    (once key none reader).run (':' :: value.characters ++ rest) =
      (fun content => (some content, rest)) <$> outcome := by
  have read := reads rest ends
  have fresh : once key none reader = (do colon; return some (← reader)) := rfl
  rw [fresh, List.cons_append, StateT.run_bind, run_colon, ok_bind, StateT.run_bind, read]
  cases outcome <;> rfl

theorem run_enter {Fields : Type} {reader : Reader α} {value : Json} {outcome : Except Fault α}
    (reads : Reads reader value outcome) (key : String) (enter : Option α → Fields)
    (rest : List Char) (ends : EndsNumber rest) :
    (do return enter (← once key none reader) : Reader Fields).run
        (':' :: value.characters ++ rest) =
      (fun content => (enter (some content), rest)) <$> outcome := by
  rw [StateT.run_bind, run_once reads key rest ends]
  cases outcome <;> rfl

/-- A record is read from its members as they are gathered. -/
theorem reads_object {Record Fields : Type} (record : RecordType) (inOrder : Reader Record)
    {start : Fields} {member : String → Fields → Reader Fields}
    (complete : Fields → Except Fault Record) {members : List (String × Json)}
    {outcome : Except Fault Fields} (gathers : Gathers member start members outcome) :
    Reads (record.read inOrder start member complete) (.object members)
      (outcome >>= complete) := by
  intro rest ends
  have gathered := run_members gathers rest
  have shown : (Json.object members).characters ++ rest =
      '\x7b' :: (separated true (members.map memberText) ++ '\x7d' :: rest) := by
    simp [characters, memberCharacters_eq]
  rw [shown, RecordType.read, StateT.run_bind, run_valueStart '\x7b' _ (by decide), ok_bind]
  exact run_check gathered complete

end RecordType

end ParseView.Json
