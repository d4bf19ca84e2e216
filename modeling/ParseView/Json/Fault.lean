import ParseView.Json.FloatText
import ParseView.Text.Quoted
import ParseView.Token.Channels

/-! What can be wrong with a JSON text that is read as a dump. -/

namespace ParseView.Json

inductive Found where
  | null
  | boolean (value : Bool)
  | integer (value : Int)
  | real (value : Float)
  | text (value : String)
  | list
  | object

inductive Expected where
  | record (name : String)
  | list
  | text
  | word
  | index
deriving DecidableEq, Repr

inductive Fault where
  | endInValue
  | endInList
  | endInObject
  | endInText
  | expectedValue
  | expectedLiteral
  | expectedColon
  | expectedListSeparator
  | expectedObjectSeparator
  | keyNotText
  | trailingComma
  | trailingCharacters
  | controlCharacter
  | invalidEscape
  | loneSurrogate
  | unfinishedSurrogatePair
  | invalidNumber
  | numberOutOfRange
  | tooDeep
  | wrongType (found : Found) (expected : Expected)
  | integerOutOfRange (value : Int) (expected : Expected)
  | tooShort (length : Nat) (record : String) (fieldCount : Nat)
  | duplicateField (name : String)
  | missingField (name : String)
  | notTree
  | channel (fault : ChannelFault)

structure Place where
  line : Nat
  column : Nat
deriving DecidableEq, Repr

/-- Where the reader of a text says that a fault of it lies. Not every fault has a place. -/
class FaultPlaces where
  placeOf : String → Fault → Option Place

export FaultPlaces (placeOf)

namespace FaultsAtStart

/-- The places of faults in an empty text. -/
scoped instance places : FaultPlaces where
  placeOf _ _ := some ⟨1, 0⟩

end FaultsAtStart

inductive Category where
  | unfinished
  | malformed
  | unsuitable
deriving DecidableEq, Repr

namespace Found

def message : Found → String
  | null => "null"
  | boolean value => "boolean `" ++ toString value ++ "`"
  | integer value => "integer `" ++ toString value ++ "`"
  | real value => "floating point `" ++ floatText value ++ "`"
  | text value => "string " ++ Quoted.quote value
  | list => "sequence"
  | object => "map"

end Found

namespace Expected

def message : Expected → String
  | record name => "struct " ++ name
  | list => "a sequence"
  | text => "a string"
  | word => "u32"
  | index => "usize"

end Expected

namespace Fault

def category : Fault → Category
  | endInValue | endInList | endInObject | endInText => .unfinished
  | wrongType _ _ | integerOutOfRange _ _ | tooShort _ _ _ | duplicateField _ | missingField _
  | notTree | channel _ => .unsuitable
  | _ => .malformed

def message : Fault → String
  | endInValue => "EOF while parsing a value"
  | endInList => "EOF while parsing a list"
  | endInObject => "EOF while parsing an object"
  | endInText => "EOF while parsing a string"
  | expectedValue => "expected value"
  | expectedLiteral => "expected ident"
  | expectedColon => "expected `:`"
  | expectedListSeparator => "expected `,` or `]`"
  | expectedObjectSeparator => "expected `,` or `\x7d`"
  | keyNotText => "key must be a string"
  | trailingComma => "trailing comma"
  | trailingCharacters => "trailing characters"
  | controlCharacter => "control character (\\u0000-\\u001F) found while parsing a string"
  | invalidEscape => "invalid escape"
  | loneSurrogate => "lone leading surrogate in hex escape"
  | unfinishedSurrogatePair => "unexpected end of hex escape"
  | invalidNumber => "invalid number"
  | numberOutOfRange => "number out of range"
  | tooDeep => "recursion limit exceeded"
  | wrongType found expected =>
      "invalid type: " ++ found.message ++ ", expected " ++ expected.message
  | integerOutOfRange value expected =>
      "invalid value: " ++ (Found.integer value).message ++ ", expected " ++ expected.message
  | tooShort length record fieldCount =>
      "invalid length " ++ toString length ++ ", expected struct " ++ record ++ " with " ++
        toString fieldCount ++ if fieldCount = 1 then " element" else " elements"
  | duplicateField name => "duplicate field `" ++ name ++ "`"
  | missingField name => "missing field `" ++ name ++ "`"
  | notTree => "data did not match any variant of untagged enum Tree"
  | channel fault => fault.message

def messageAt (place : Option Place) (fault : Fault) : String :=
  match place with
  | some place =>
      fault.message ++ " at line " ++ toString place.line ++ " column " ++ toString place.column
  | none => fault.message

end Fault

end ParseView.Json
