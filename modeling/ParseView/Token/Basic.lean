/-! Tokens as a lexer reports them. -/

namespace ParseView

/-- A token: its kind, channel and text, and the line, counted from 1, and column, counted
from 0, where it starts. -/
structure Token where
  kind : UInt32
  channel : UInt32 := 0
  line : UInt32
  column : UInt32
  text : String
deriving DecidableEq, Repr

end ParseView
