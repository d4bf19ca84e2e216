/-! JSON values. -/

namespace ParseView

/-- An integer that fits into 64 bits, or any other number as a floating-point one. -/
inductive Json.Number where
  | integer (value : Int)
  | real (value : Float)

/-- The members of an object are kept in their order, repeated keys included. -/
inductive Json where
  | null
  | boolean (value : Bool)
  | number (value : Json.Number)
  | text (value : String)
  | list (items : List Json)
  | object (members : List (String × Json))

namespace Json

def ofNat (value : Nat) : Json := number (.integer value)

def ofWord (value : UInt32) : Json := ofNat value.toNat

def ofOption {α : Type} (convert : α → Json) : Option α → Json
  | none => null
  | some value => convert value

mutual
def depth : Json → Nat
  | list items => listDepth items + 1
  | object members => memberDepth members + 1
  | _ => 0

def listDepth : List Json → Nat
  | [] => 0
  | first :: rest => max (depth first) (listDepth rest)

def memberDepth : List (String × Json) → Nat
  | [] => 0
  | (_, value) :: rest => max (depth value) (memberDepth rest)
end

end Json

end ParseView
