import ParseView.Text.Blank
import ParseView.Token.Vocabulary

/-! Vocabularies written as `.tokens` files. Every line that is not blank is `name=kind` or
`'literal'=kind`, and the last `=` of the line is the one that separates. -/

namespace ParseView

inductive KindFault where
  | empty
  | invalidDigit
  | tooLarge
deriving DecidableEq, Repr

inductive EntryFault where
  | noEquals
  | badKind (fault : KindFault)
  | emptyName
  | outOfRange (kind : Nat) (limit : Nat)
deriving DecidableEq, Repr

structure VocabularyFault where
  line : Nat
  fault : EntryFault
deriving DecidableEq, Repr

namespace KindFault

def message : KindFault → String
  | empty => "cannot parse integer from empty string"
  | invalidDigit => "invalid digit found in string"
  | tooLarge => "number too large to fit in target type"

end KindFault

namespace EntryFault

def message : EntryFault → String
  | noEquals => "expected `name=kind`"
  | badKind fault => "token kind is not a number: " ++ fault.message
  | emptyName => "empty token name"
  | outOfRange kind limit =>
      "token kind " ++ toString kind ++ " is out of range (at most " ++ toString limit ++ ")"

end EntryFault

namespace VocabularyFault

def message (failure : VocabularyFault) : String :=
  "vocabulary line " ++ toString failure.line ++ ": " ++ failure.fault.message

end VocabularyFault

structure VocabularyEntry where
  line : Nat
  name : List Char
  kind : UInt32
deriving DecidableEq, Repr

namespace VocabularyEntry

/-- Reads digits after a number already read. A character that is no digit is met before the
number can grow too large at it. -/
def kindAfter (value : UInt32) : List Char → Except KindFault UInt32
  | [] => .ok value
  | digit :: rest =>
      if digit.isDigit then
        let larger := value.toNat * 10 + (digit.toNat - '0'.toNat)
        if larger < UInt32.size then kindAfter (UInt32.ofNat larger) rest else .error .tooLarge
      else
        .error .invalidDigit

def readKind : List Char → Except KindFault UInt32
  | [] => .error .empty
  | ['+'] => .error .invalidDigit
  | '+' :: digits => kindAfter 0 digits
  | digits => kindAfter 0 digits

def splitAtLast (separator : Char) : List Char → Option (List Char × List Char)
  | [] => none
  | first :: rest =>
      match splitAtLast separator rest with
      | some (before, after) => some (first :: before, after)
      | none => if first = separator then some ([], rest) else none

def ofLine (number : Nat) (line : List Char) : Except EntryFault VocabularyEntry := do
  let some (name, kind) := splitAtLast '=' line | throw .noEquals
  let kind ← (readKind (trim kind)).mapError EntryFault.badKind
  let name := trim name
  if name.isEmpty then throw .emptyName
  return { line := number, name := name, kind := kind }

def isLiteral (name : List Char) : Bool :=
  2 ≤ name.length && name.head? == some '\'' && name.getLast? == some '\''

end VocabularyEntry

namespace Vocabulary

/-- How far past the number of entries a kind may lie. -/
def maxKindGap : Nat := 256

def linesOf : List Char → List (List Char)
  | [] => [[]]
  | '\n' :: rest => [] :: linesOf rest
  | first :: rest =>
      match linesOf rest with
      | [] => [[first]]
      | line :: lines => (first :: line) :: lines

def entryLines (text : String) : List (Nat × List Char) :=
  (((linesOf text.toList).map trim).zipIdx 1).filterMap fun (line, number) =>
    if line.isEmpty then none else some (number, line)

def readEntries (lines : List (Nat × List Char)) : Except VocabularyFault (List VocabularyEntry) :=
  lines.mapM fun (number, line) =>
    (VocabularyEntry.ofLine number line).mapError fun fault => ⟨number, fault⟩

def add (vocabulary : Vocabulary) (entry : VocabularyEntry) : Vocabulary :=
  let name := String.ofList entry.name
  if VocabularyEntry.isLiteral entry.name then
    { vocabulary with literal := enter vocabulary.literal entry.kind.toNat name }
  else
    { vocabulary with symbolic := enter vocabulary.symbolic entry.kind.toNat name }

def addWithin (limit : Nat) (vocabulary : Vocabulary) (entry : VocabularyEntry) :
    Except VocabularyFault Vocabulary :=
  if entry.kind.toNat ≤ limit then .ok (vocabulary.add entry)
  else .error ⟨entry.line, .outOfRange entry.kind.toNat limit⟩

/-- Reads a `.tokens` file. All lines are read before any kind is checked against the number of
entries, and a later name takes the place of an earlier one. -/
def ofTokensFile (text : String) : Except VocabularyFault Vocabulary := do
  let entries ← readEntries (entryLines text)
  entries.foldlM (addWithin (entries.length + maxKindGap)) {}

end Vocabulary

end ParseView
