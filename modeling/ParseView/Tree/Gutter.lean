import ParseView.Glyphs
import ParseView.Picture
import ParseView.Tree.Leaves

/-! The margin that shows, before every line of a tree drawing, the position of the tree that
starts there. Its fields are as wide as the widest leaf position needs. -/

namespace ParseView

structure Gutter where
  lineDigits : Nat
  columnDigits : Nat
deriving DecidableEq, Repr

namespace Gutter

def minimal : Gutter := ⟨4, 3⟩

def log10 (number : Nat) : Nat :=
  if number < 10 then 0 else log10 (number / 10) + 1

def log10? (number : UInt32) : Option Nat :=
  if number = 0 then none else some (log10 number.toNat)

def digitCount (number : UInt32) : Nat :=
  match log10? number with
  | some log => log + 1
  | none => 1

def widen (gutter : Gutter) (position : Position) : Gutter :=
  ⟨max gutter.lineDigits (digitCount position.line),
   max gutter.columnDigits (digitCount position.column)⟩

/-- The narrowest margin, but no narrower than the minimal one, that has room for every leaf
position of the tree. -/
def fit (tree : Tree) : Gutter :=
  (tree.leaves.filterMap Leaf.position).foldl widen minimal

def width (gutter : Gutter) : Nat :=
  gutter.lineDigits + gutter.columnDigits + 4

def positionText (gutter : Gutter) (position : Position) : String :=
  let line := Nat.toDigits 10 position.line.toNat
  let column := Nat.toDigits 10 position.column.toNat
  String.ofList
    ('(' :: List.replicate (gutter.lineDigits - line.length) ' ' ++ line ++ ':' :: column ++
      List.replicate (gutter.columnDigits - column.length) ' ' ++ [')', ' '])

/-- The margin of one line; blank where no position is known. -/
def pieces (gutter : Gutter) : Option Position → Picture Connector
  | some position => [.text (gutter.positionText position)]
  | none => [.blank gutter.width]

end Gutter

end ParseView
