/-! Sets of characters given by ranges of code points. -/

namespace ParseView

def inRanges (ranges : List (Nat × Nat)) (character : Char) : Bool :=
  ranges.any fun range => range.1 ≤ character.toNat && character.toNat ≤ range.2

end ParseView
