import ParseView.Picture

/-! A sink of limited capacity. The first write that does not fit fails. -/

namespace ParseView

/-- A sink that takes bytes until it is full, with the bytes that it took. -/
structure Sink where
  capacity : Nat
  received : ByteArray := ByteArray.empty

inductive SinkFull where
  | sinkFull
deriving DecidableEq, Repr

namespace SinkFull

def message : SinkFull → String
  | sinkFull => "sink full"

end SinkFull

abbrev SinkM := ExceptT SinkFull (StateM Sink)

namespace Sink

def room (sink : Sink) : Nat :=
  sink.capacity - sink.received.size

def take (sink : Sink) (bytes : ByteArray) : Sink :=
  { sink with received := sink.received ++ bytes.extract 0 sink.room }

theorem toList_take (sink : Sink) (bytes : ByteArray) :
    (sink.take bytes).received.data.toList =
      sink.received.data.toList ++ bytes.data.toList.take sink.room := by
  simp [take, ByteArray.data_extract]

/-- Takes the bytes that fit, and fails if there are more. -/
def write (text : String) : SinkM Unit := do
  let bytes := text.toUTF8
  let sink ← get
  set (sink.take bytes)
  if sink.room < bytes.size then
    throw .sinkFull

def collect (capacity : Nat) (writing : SinkM Unit) : Except SinkFull Unit × Sink :=
  writing.run.run { capacity := capacity }

def drawWithin {Slot : Type} (capacity : Nat) (fill : Slot → Char) (picture : Picture Slot) :
    Except SinkFull Unit × Sink :=
  collect capacity (picture.writeTo write fill)

/-- The text that the received bytes hold. A character of which the sink took only the first
bytes is left out. -/
def text (sink : Sink) : String :=
  let whole := (List.range 4).filterMap fun cut =>
    String.fromUTF8? (sink.received.extract 0 (sink.received.size - cut))
  whole.headD ""

end Sink

end ParseView
