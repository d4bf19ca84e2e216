import ParseView.Sink
import ParseView.Token.Render
import ParseView.Tree.Render

/-! Drawing into a sink that may fill up: it gets the first bytes of the drawing, and no write
comes after the first that fails. -/

namespace ParseView

/-- Texts written one after the other up to the first write that fails: what comes of it, and
the state that is left. -/
inductive WritesUntilFailure {Failure State : Type}
    (put : String → ExceptT Failure (StateM State) Unit) :
    List String → State → Except Failure Unit × State → Prop where
  | done (state : State) : WritesUntilFailure put [] state (.ok (), state)
  | written {text : String} {rest : List String} {state next : State}
      {outcome : Except Failure Unit × State} :
      (put text).run.run state = (.ok (), next) → WritesUntilFailure put rest next outcome →
      WritesUntilFailure put (text :: rest) state outcome
  | failed {text : String} {rest : List String} {state last : State} {failure : Failure} :
      (put text).run.run state = (.error failure, last) →
      WritesUntilFailure put (text :: rest) state (.error failure, last)

theorem writesUntilFailure_forM {Failure State : Type}
    (put : String → ExceptT Failure (StateM State) Unit) (texts : List String) (state : State) :
    WritesUntilFailure put texts state ((texts.forM put).run.run state) := by
  induction texts generalizing state with
  | nil => exact .done state
  | cons text rest ih =>
      have step : ((text :: rest).forM put).run.run state =
          match (put text).run.run state with
          | (.ok (), next) => (rest.forM put).run.run next
          | (.error failure, last) => (.error failure, last) := by
        simp only [List.forM_eq_forM, List.forM_cons, ExceptT.run_bind, StateT.run_bind]
        cases (put text).run.run state with
        | mk result next => cases result <;> rfl
      cases wrote : (put text).run.run state with
      | mk result next =>
          rw [step, wrote]
          cases result with
          | ok => exact .written wrote (ih next)
          | error failure => exact .failed wrote

namespace Sink

def utf8Bytes (text : String) : List UInt8 :=
  text.toUTF8.data.toList

theorem utf8Bytes_append (first second : String) :
    utf8Bytes (first ++ second) = utf8Bytes first ++ utf8Bytes second := by
  rw [utf8Bytes, String.toUTF8, String.toByteArray_append, ByteArray.toList_data_append]
  rfl

def Took (sink : Sink) (bytes : List UInt8) : Prop :=
  sink.received.data.toList = bytes.take sink.capacity

theorem run_write (text : String) (sink : Sink) :
    (write text).run.run sink =
      (if sink.room < (utf8Bytes text).length then .error .sinkFull else .ok (),
        sink.take text.toUTF8) := by
  have step : (write text).run.run sink =
      (if sink.room < (utf8Bytes text).length then throw .sinkFull else pure () :
        SinkM Unit).run.run (sink.take text.toUTF8) := rfl
  rw [step]
  split <;> rfl

theorem run_write_eq_ok_iff (text : String) (sink next : Sink) :
    (write text).run.run sink = (.ok (), next) ↔
      (utf8Bytes text).length ≤ sink.room ∧ sink.take text.toUTF8 = next := by
  rw [run_write]
  refine Prod.ext_iff.trans (and_congr_left fun _ => ?_)
  split
  next full => exact iff_of_false nofun (Nat.not_le_of_lt full)
  next room => exact iff_of_true rfl (Nat.le_of_not_lt room)

theorem run_write_eq_error_iff (text : String) (sink last : Sink) (failure : SinkFull) :
    (write text).run.run sink = (.error failure, last) ↔
      sink.room < (utf8Bytes text).length ∧ sink.take text.toUTF8 = last := by
  rw [run_write]
  refine Prod.ext_iff.trans (and_congr_left fun _ => ?_)
  cases failure
  split
  next full => exact iff_of_true rfl full
  next room => exact iff_of_false nofun room

theorem Took.room {sink : Sink} {bytes : List UInt8} (took : sink.Took bytes) :
    sink.room = sink.capacity - bytes.length := by
  have size : sink.received.size = min sink.capacity bytes.length := by
    rw [← ByteArray.size_data, ← Array.length_toList, took, List.length_take]
  rw [Sink.room, size]
  omega

theorem Took.take {sink : Sink} {bytes : List UInt8} (took : sink.Took bytes) (text : String) :
    (sink.take text.toUTF8).Took (bytes ++ utf8Bytes text) := by
  rw [Took, toList_take, took.room, took, ← utf8Bytes, ← List.take_append]
  rfl

theorem utf8Bytes_join_cons (text : String) (rest : List String) :
    utf8Bytes (String.join (text :: rest)) = utf8Bytes text ++ utf8Bytes (String.join rest) := by
  rw [String.join_cons, utf8Bytes_append]

/-- A run of writes that starts while there was room for everything so far fails if there is not
room for everything in the end, and leaves the first bytes of everything. -/
theorem run_writes {texts : List String} {sink : Sink} {outcome : Except SinkFull Unit × Sink}
    (run : WritesUntilFailure write texts sink outcome) {before : List UInt8}
    (took : sink.Took before) (fits : before.length ≤ sink.capacity) :
    outcome.1 = (if (before ++ utf8Bytes (String.join texts)).length ≤ sink.capacity then .ok ()
        else .error .sinkFull) ∧
      outcome.2.received.data.toList =
        (before ++ utf8Bytes (String.join texts)).take sink.capacity := by
  -- `before` is everything written so far, so that each write adds to it and the rest follows.
  induction run generalizing before with
  | done sink =>
      have nothing : utf8Bytes (String.join []) = [] := rfl
      rw [nothing, List.append_nil, if_pos fits]
      exact ⟨rfl, took⟩
  | @written text rest sink next outcome wrote later ih =>
      obtain ⟨room, rfl⟩ := (run_write_eq_ok_iff text sink next).mp wrote
      rw [took.room] at room
      rw [utf8Bytes_join_cons, ← List.append_assoc]
      refine ih (took.take text) ?_
      rw [List.length_append]
      change before.length + (utf8Bytes text).length ≤ sink.capacity
      omega
  | @failed text rest sink last failure wrote =>
      obtain ⟨full, rfl⟩ := (run_write_eq_error_iff text sink last failure).mp wrote
      rw [took.room] at full
      have beyond : sink.capacity < (before ++ utf8Bytes text).length := by
        rw [List.length_append]
        omega
      rw [utf8Bytes_join_cons, ← List.append_assoc]
      constructor
      · rw [List.length_append, if_neg (by omega)]
      · rw [List.take_append_of_le_length (Nat.le_of_lt beyond)]
        exact took.take text

theorem drawWithin_outcome {Slot : Type} (capacity : Nat) (fill : Slot → Char)
    (picture : Picture Slot) :
    (drawWithin capacity fill picture).1 =
        (if (utf8Bytes (picture.draw fill)).length ≤ capacity then .ok () else .error .sinkFull) ∧
      (drawWithin capacity fill picture).2.received.data.toList =
        (utf8Bytes (picture.draw fill)).take capacity := by
  have empty : Took { capacity := capacity } [] := by simp [Took]
  have run := writesUntilFailure_forM write (picture.map (Piece.draw fill)) { capacity := capacity }
  rw [← Picture.join_map_draw]
  exact run_writes run empty (Nat.zero_le capacity)

end Sink

/-- How a drawing is written, wherever it is written to: the first of its bytes into a sink of
limited capacity, and into any other sink its pieces up to the first write that fails. -/
structure WritingLaws (drawn : String)
    (render : {m : Type → Type} → [Monad m] → (String → m Unit) → m Unit) : Prop where
  succeeds_iff : ∀ capacity,
    (Sink.collect capacity (render Sink.write)).1 = .ok () ↔
      (Sink.utf8Bytes drawn).length ≤ capacity
  fails_iff : ∀ capacity,
    (Sink.collect capacity (render Sink.write)).1 = .error .sinkFull ↔
      capacity < (Sink.utf8Bytes drawn).length
  received : ∀ capacity,
    (Sink.collect capacity (render Sink.write)).2.received.data.toList =
      (Sink.utf8Bytes drawn).take (min capacity (Sink.utf8Bytes drawn).length)
  untilFailure : ∃ texts, String.join texts = drawn ∧
    ∀ {Failure State : Type} (put : String → ExceptT Failure (StateM State) Unit) (state : State),
      WritesUntilFailure put texts state ((render put).run.run state)

theorem writingLaws_of_eq_writeTo {Slot : Type} {fill : Slot → Char} {picture : Picture Slot}
    {render : {m : Type → Type} → [Monad m] → (String → m Unit) → m Unit}
    (writes : ∀ {m : Type → Type} [Monad m] [LawfulMonad m] (put : String → m Unit),
      render put = picture.writeTo put fill) :
    WritingLaws (picture.draw fill) render := by
  have outcome (capacity : Nat) := Sink.drawWithin_outcome capacity fill picture
  have same (capacity : Nat) :
      Sink.collect capacity (render Sink.write) = Sink.drawWithin capacity fill picture := by
    rw [writes]
    rfl
  refine ⟨?_, ?_, ?_, picture.map (Piece.draw fill), Picture.join_map_draw fill picture, ?_⟩
  · intro capacity
    rw [same, (outcome capacity).1]
    split
    next room => exact iff_of_true rfl room
    next full => exact iff_of_false nofun full
  · intro capacity
    rw [same, (outcome capacity).1]
    split
    next room => exact iff_of_false nofun (Nat.not_lt_of_le room)
    next full => exact iff_of_true rfl (Nat.lt_of_not_le full)
  · intro capacity
    rw [same, (outcome capacity).2, ← List.take_take, List.take_length]
  · intro Failure State put state
    rw [writes]
    exact writesUntilFailure_forM put _ state

theorem writingLaws_render [TextWidth] (glyphs : Glyphs) :
    (∀ (style : TreeStyle) (root : Tree), WritingLaws (root.draw glyphs style)
      fun put => root.render put glyphs style) ∧
    ∀ (table : TokenTable) (tokens : List Token), WritingLaws (table.draw glyphs tokens)
      fun put => table.render put glyphs tokens := by
  constructor
  · intro style root
    exact writingLaws_of_eq_writeTo fun put => Tree.render_eq put glyphs style root
  · intro table tokens
    exact writingLaws_of_eq_writeTo fun put => TokenTable.render_eq put glyphs table tokens

open OneColumnEach in
example : (Sink.collect 2 ((Tree.leaf ⟨"1é", none⟩).render Sink.write .ascii {})).2.received.data =
    #[0x31, 0xC3] := by rfl

end ParseView
