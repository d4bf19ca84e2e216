import ParseView.Json.Compact
import ParseView.Json.Reader.Value
import ParseView.Tree.Basic

/-! Tree dumps: trees as JSON values.

A node has a label and children, a leaf has a text and perhaps a position. A value is taken for
a node if it can be, and else for a leaf. Each is an object with the members of those names, or a
list of the same values in order. -/

namespace ParseView

namespace Position

def toJson (position : Position) : Json :=
  .object [("line", .ofWord position.line), ("column", .ofWord position.column)]

end Position

namespace Leaf

def toJson (leaf : Leaf) : Json :=
  .object (("text", .text leaf.text) ::
    match leaf.position with
    | none => []
    | some position => [("position", position.toJson)])

end Leaf

namespace Tree

mutual
def toJson : Tree → Json
  | leaf matched => matched.toJson
  | node label children =>
      .object [("label", .text label), ("children", .list (forestToJson children))]

def forestToJson : List Tree → List Json
  | [] => []
  | first :: rest => toJson first :: forestToJson rest
end

def dump (tree : Tree) : String :=
  tree.toJson.compact

end Tree

namespace Json

def word? : Json → Option UInt32
  | number (.integer value) =>
      if 0 ≤ value ∧ value < UInt32.size then some (UInt32.ofNat value.toNat) else none
  | _ => none

def text? : Json → Option String
  | text value => some value
  | _ => none

def named (key : String) (members : List (String × Json)) : List Json :=
  (members.filter fun member => member.1 = key).map Prod.snd

/-- The only member with the given key. There may be members with other keys, but no second one
with this key. -/
def only? (key : String) (members : List (String × Json)) : Option Json :=
  match named key members with
  | [value] => some value
  | _ => none

end Json

namespace Position

/-- An object may hold other members too, a list holds just line and column. -/
def ofJson? : Json → Option Position
  | .object members => do
      let line ← (Json.only? "line" members).bind Json.word?
      let column ← (Json.only? "column" members).bind Json.word?
      return ⟨line, column⟩
  | .list [line, column] => do return ⟨← line.word?, ← column.word?⟩
  | _ => none

def ofMember? : List Json → Option (Option Position)
  | [] => some none
  | [.null] => some none
  | [value] => (ofJson? value).map some
  | _ :: _ :: _ => none

end Position

namespace Leaf

def ofJson? : Json → Option Leaf
  | .object members => do
      let text ← (Json.only? "text" members).bind Json.text?
      let position ← Position.ofMember? (Json.named "position" members)
      return ⟨text, position⟩
  | .list (text :: position) => do return ⟨← text.text?, ← Position.ofMember? position⟩
  | _ => none

end Leaf

namespace Tree

mutual
def ofJson? : Json → Option Tree
  | .object members =>
      match (Json.only? "label" members).bind Json.text?, childrenOfMembers? members with
      | some label, some children => some (node label children)
      | _, _ => (Leaf.ofJson? (.object members)).map leaf
  | .list items =>
      match items, childrenOfItems? items with
      | .text label :: _, some children => some (node label children)
      | _, _ => (Leaf.ofJson? (.list items)).map leaf
  | _ => none

def forestOfJson? : List Json → Option (List Tree)
  | [] => some []
  | first :: rest =>
      match ofJson? first, forestOfJson? rest with
      | some tree, some forest => some (tree :: forest)
      | _, _ => none

def childrenOfItems? : List Json → Option (List Tree)
  | [_] => some []
  | [_, .list children] => forestOfJson? children
  | _ => none

/-- The children of a node given as an object: those of the only member of that name, or none if
there is no such member. -/
def childrenOfMembers? : List (String × Json) → Option (List Tree)
  | [] => some []
  | (key, value) :: rest =>
      if key = "children" then
        match value with
        | .list children =>
            if (Json.named "children" rest).isEmpty then forestOfJson? children else none
        | _ => none
      else
        childrenOfMembers? rest
end

/-- Reads a tree dump. The whole value is read before it is taken for a tree, and what follows
it is looked at last. -/
def ofDump (text : String) : Except Json.Fault Tree :=
  Json.readDocument (do
    match ofJson? (← Json.readValue Json.maxDepth) with
    | some tree => return tree
    | none => throw .notTree) text

end Tree

end ParseView
