import ParseView.Json.FloatText
import ParseView.Json.Value

/-! The compact text of JSON values: no spaces, and no escapes but the necessary ones. -/

namespace ParseView.Json

def hexDigit (value : Nat) : Char :=
  Nat.digitChar (value % 16)

def escapedChar : Char → List Char
  | '"' => ['\\', '"']
  | '\\' => ['\\', '\\']
  | '\x08' => ['\\', 'b']
  | '\t' => ['\\', 't']
  | '\n' => ['\\', 'n']
  | '\x0c' => ['\\', 'f']
  | '\r' => ['\\', 'r']
  | other =>
      if other.toNat < 0x20 then
        ['\\', 'u', '0', '0', hexDigit (other.toNat / 16), hexDigit other.toNat]
      else
        [other]

def textCharacters (value : String) : List Char :=
  '"' :: value.toList.flatMap escapedChar ++ ['"']

def Number.characters : Number → List Char
  | integer value => (toString value).toList
  | real value => (floatText value).toList

mutual
def characters : Json → List Char
  | null => "null".toList
  | boolean true => "true".toList
  | boolean false => "false".toList
  | number value => value.characters
  | text value => textCharacters value
  | list items => '[' :: listCharacters items ++ [']']
  | object members => '\x7b' :: memberCharacters members ++ ['\x7d']

def listCharacters : List Json → List Char
  | [] => []
  | [last] => characters last
  | first :: next :: rest => characters first ++ ',' :: listCharacters (next :: rest)

def memberCharacters : List (String × Json) → List Char
  | [] => []
  | [(key, last)] => textCharacters key ++ ':' :: characters last
  | (key, value) :: next :: rest =>
      textCharacters key ++ ':' :: characters value ++ ',' :: memberCharacters (next :: rest)
end

def compact (value : Json) : String :=
  String.ofList value.characters

end ParseView.Json
