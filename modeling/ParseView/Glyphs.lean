/-! The places of a drawing that a character set fills in, and the two built-in sets. -/

namespace ParseView

/-- The places of a tree drawing. -/
inductive Connector where
  | frameOpen
  | frameClose
  | frameLeft
  | frameBranch
  | frameFill
  | frameRight
  | vertical
  | middle
  | last
  /-- Precedes a leaf, a leaf production or an inlined label. -/
  | leaf
  /-- Follows an inlined label, or the label of a leaf production that has leaves. -/
  | oneChild
deriving DecidableEq, Repr

namespace Connector

def all : List Connector :=
  [frameOpen, frameClose, frameLeft, frameBranch, frameFill, frameRight, vertical, middle, last,
   leaf, oneChild]

end Connector

inductive Rule where
  | top
  | header
  | bottom
deriving DecidableEq, Repr

inductive RulePart where
  | left
  | horizontal
  | division
  | right
deriving DecidableEq, Repr

namespace RulePart

def all : List RulePart := [left, horizontal, division, right]

end RulePart

inductive Stroke where
  | rule (line : Rule) (part : RulePart)
  | outerVertical
  | innerVertical
deriving DecidableEq, Repr

/-- One character for every place of a drawing. -/
structure Glyphs where
  connector : Connector → Char
  stroke : Stroke → Char

namespace Glyphs

def unicode : Glyphs where
  connector
    | .frameOpen => '╮'
    | .frameClose => '╭'
    | .frameLeft => '╰'
    | .frameBranch => '┬'
    | .frameFill => '─'
    | .frameRight => '╯'
    | .vertical => '│'
    | .middle => '├'
    | .last => '╰'
    | .leaf => '╴'
    | .oneChild => '╶'
  stroke
    | .rule .top .left => '╔'
    | .rule .top .division => '╤'
    | .rule .top .right => '╗'
    | .rule .header .left => '╠'
    | .rule .header .division => '╪'
    | .rule .header .right => '╣'
    | .rule .bottom .left => '╚'
    | .rule .bottom .division => '╧'
    | .rule .bottom .right => '╝'
    | .rule _ .horizontal => '═'
    | .outerVertical => '║'
    | .innerVertical => '│'

def ascii : Glyphs where
  connector
    | .frameOpen => '.'
    | .frameClose => '.'
    | .frameLeft => '\''
    | .frameBranch => '+'
    | .frameFill => '-'
    | .frameRight => '\''
    | .vertical => '|'
    | .middle => '+'
    | .last => '\\'
    | .leaf => '-'
    | .oneChild => '-'
  stroke
    | .rule _ .horizontal => '-'
    | .rule _ _ => '+'
    | .outerVertical => '|'
    | .innerVertical => '|'

instance : Inhabited Glyphs := ⟨unicode⟩

end Glyphs

end ParseView
