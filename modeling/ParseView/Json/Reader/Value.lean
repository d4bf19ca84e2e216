import ParseView.Json.Reader.Number
import ParseView.Json.Reader.Text

/-! Reading whole JSON values. -/

namespace ParseView.Json

/-- How deep the lists and objects of a value may be nested. -/
def maxDepth : Nat := 127

def readScalar (first : Char) : Reader Json := do
  match first with
  | 'n' => word "null".toList; return .null
  | 't' => word "true".toList; return .boolean true
  | 'f' => word "false".toList; return .boolean false
  | '"' => return .text (← readText)
  | other =>
      if other = '-' ∨ other.isDigit then return .number (← readNumber) else throw .expectedValue

def readValueOf (list object : Reader Json) : Reader Json := do
  match ← peek with
  | none => throw .endInValue
  | some '[' => list
  | some '\x7b' => object
  | some first => readScalar first

def addMember (value : Reader Json) (key : String) (collected : List (String × Json)) :
    Reader (List (String × Json)) := do
  colon
  return (key, ← value) :: collected

/-- Reads a value in which lists and objects are nested at most `depth` deep. -/
def readValue : (depth : Nat) → Reader Json
  | 0 => readValueOf (throw .tooDeep) (throw .tooDeep)
  | depth + 1 =>
      readValueOf
        (do return .list (← elements (readValue depth)))
        (do return .object (← members readText (addMember (readValue depth)) []).reverse)

end ParseView.Json
