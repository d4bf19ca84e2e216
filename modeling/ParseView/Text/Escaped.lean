/-! Token text written on a single line: control characters by a backslash and a letter,
spaces at either end by a visible marker, and a run of one character by its count. -/

namespace ParseView

/-- Stands for a space at either end of a text. -/
def spaceMarker : Char := '⍽'

/-- Texts of one repeated character that are at least this long are written as a count. -/
def repeatThreshold : Nat := 5

def escapeChar : Char → List Char
  | '\\' => ['\\', '\\']
  | '\x08' => ['\\', 'b']
  | '\x0c' => ['\\', 'f']
  | '\n' => ['\\', 'n']
  | '\r' => ['\\', 'r']
  | '\t' => ['\\', 't']
  | other => [other]

def markLeading : List Char → List Char
  | [] => []
  | first :: rest => if first = ' ' then spaceMarker :: markLeading rest else first :: rest

def markTrailing (characters : List Char) : List Char :=
  (markLeading characters.reverse).reverse

def repeated? : List Char → Option (Char × Nat)
  | [] => none
  | first :: rest =>
      if repeatThreshold ≤ rest.length + 1 ∧ rest.all (· == first) then
        some (first, rest.length + 1)
      else
        none

/-- A run is recognised after its leading spaces are marked, so a text of spaces only is
written as a count of markers. -/
def escapeChars (characters : List Char) : List Char :=
  let marked := markLeading (characters.flatMap escapeChar)
  match repeated? marked with
  | some (repeatedChar, count) => repeatedChar :: ' ' :: '×' :: ' ' :: Nat.toDigits 10 count
  | none => markTrailing marked

def escape (text : String) : String :=
  String.ofList (escapeChars text.toList)

theorem toList_escape (text : String) : (escape text).toList = escapeChars text.toList := by
  simp [escape]

end ParseView
