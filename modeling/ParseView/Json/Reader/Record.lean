import ParseView.Json.Reader.Number
import ParseView.Json.Reader.Skip

/-! Reading values of known types straight from the text. A value of another type is a fault at
its place: a scalar is read to its end first, a list or an object is refused at its bracket. -/

namespace ParseView.Json

def refuse {α : Type} (expected : Expected) (first : Char) : Reader α := do
  match first with
  | 'n' => word "null".toList; throw (.wrongType .null expected)
  | 't' => word "true".toList; throw (.wrongType (.boolean true) expected)
  | 'f' => word "false".toList; throw (.wrongType (.boolean false) expected)
  | '"' => throw (.wrongType (.text (← readText)) expected)
  | '[' => throw (.wrongType .list expected)
  | '\x7b' => throw (.wrongType .object expected)
  | other =>
      if other = '-' ∨ other.isDigit then
        match ← readNumber with
        | .integer value => throw (.wrongType (.integer value) expected)
        | .real value => throw (.wrongType (.real value) expected)
      else
        throw .expectedValue

def valueStart : Reader Char := do
  match ← peek with
  | none => throw .endInValue
  | some first => return first

def expectText : Reader String := do
  match ← valueStart with
  | '"' => readText
  | first => refuse .text first

def expectNatural (expected : Expected) (bound : Nat) : Reader Nat := do
  let first ← valueStart
  if first = '-' ∨ first.isDigit then
    match ← readNumber with
    | .real value => throw (.wrongType (.real value) expected)
    | .integer value =>
        if 0 ≤ value ∧ value < bound then return value.toNat
        else throw (.integerOutOfRange value expected)
  else
    refuse expected first

def expectWord : Reader UInt32 := do
  return UInt32.ofNat (← expectNatural .word UInt32.size)

def expectIndex : Reader Nat :=
  expectNatural .index UInt64.size

def expectOption {α : Type} (value : Reader α) : Reader (Option α) := do
  match ← peek with
  | some 'n' => word "null".toList; return none
  | _ => return some (← value)

def expectList {α : Type} (element : Reader α) : Reader (List α) := do
  match ← valueStart with
  | '[' => elements element
  | first => refuse .list first

structure RecordType where
  name : String
  fieldCount : Nat

namespace RecordType

def field? {α : Type} (index : Nat) (value : Reader α) : Reader (Option α) := do
  if ← hasElement (index == 0) then return some (← value) else return none

def field {α : Type} (record : RecordType) (index : Nat) (value : Reader α) : Reader α := do
  match ← field? index value with
  | some content => return content
  | none => throw (.tooShort index record.name record.fieldCount)

def closeList : Reader Unit := do
  match ← peek with
  | none => throw .endInList
  | some ']' => advance
  | some ',' =>
      advance
      if (← peek) = some ']' then throw .trailingComma else throw .trailingCharacters
  | some _ => throw .trailingCharacters

def once {α : Type} (key : String) (met : Option α) (value : Reader α) : Reader (Option α) := do
  if met.isSome then throw (.duplicateField key)
  colon
  return some (← value)

def ignore : Reader Unit := do
  colon
  skipValue

def require {α : Type} (key : String) : Option α → Except Fault α
  | some content => .ok content
  | none => .error (.missingField key)

/-- Reads a record, given as a list of its fields in order or as an object with their names.
`member` reads one member into the fields met so far, and `complete` makes the record of them. -/
def read {Record Fields : Type} (record : RecordType) (inOrder : Reader Record)
    (start : Fields) (member : String → Fields → Reader Fields)
    (complete : Fields → Except Fault Record) : Reader Record := do
  match ← valueStart with
  | '[' =>
      advance
      let content ← inOrder
      closeList
      return content
  | '\x7b' => complete (← members readText member start)
  | first => refuse (.record record.name) first

end RecordType

end ParseView.Json
