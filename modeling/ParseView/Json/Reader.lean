import ParseView.Json.Fault
import ParseView.Json.Value

/-! Reading JSON text from left to right: blanks, single characters, words, and the frames of
lists and objects. -/

namespace ParseView.Json

/-- A reader of the characters still to come. -/
abbrev Reader := StateT (List Char) (Except Fault)

def isSpace (character : Char) : Bool :=
  character == ' ' || character == '\t' || character == '\n' || character == '\r'

def head? : Reader (Option Char) := do
  return (← get).head?

def skipSpace : Reader Unit :=
  modify (List.dropWhile isSpace)

/-- The next character after blanks, which stays unread. -/
def peek : Reader (Option Char) := do
  skipSpace
  head?

def advance : Reader Unit :=
  modify List.tail

def word : List Char → Reader Unit
  | [] => pure ()
  | expected :: rest => do
      match ← head? with
      | none => throw .endInValue
      | some found =>
          if found = expected then
            advance
            word rest
          else
            throw .expectedLiteral

def hasElement (isFirst : Bool) : Reader Bool := do
  match ← peek with
  | none => throw .endInList
  | some ']' => return false
  | some found =>
      if isFirst then
        return true
      else if found = ',' then
        advance
        match ← peek with
        | none => throw .endInValue
        | some ']' => throw .trailingComma
        | some _ => return true
      else
        throw .expectedListSeparator

/-- Reads elements up to the closing bracket, which stays unread. Every element takes a
character at least, so there are no more of them than `bound`, the characters that remain at the
start; when none do, the list has ended too early. -/
def elementsFrom {α : Type} (element : Reader α) :
    (bound : List Char) → (isFirst : Bool) → (collected : List α) → Reader (List α)
  | [], _, _ => throw .endInList
  | _ :: bound, isFirst, collected => do
      if ← hasElement isFirst then
        let value ← element
        elementsFrom element bound false (value :: collected)
      else
        return collected.reverse

def elements {α : Type} (element : Reader α) : Reader (List α) := do
  advance
  let items ← elementsFrom element (← get) true []
  advance
  return items

def hasMember (isFirst : Bool) : Reader Bool := do
  match ← peek with
  | none => throw .endInObject
  | some '\x7d' => return false
  | some found =>
      if isFirst then
        if found = '"' then return true else throw .keyNotText
      else if found = ',' then
        advance
        match ← peek with
        | none => throw .endInValue
        | some '"' => return true
        | some '\x7d' => throw .trailingComma
        | some _ => throw .keyNotText
      else
        throw .expectedObjectSeparator

def colon : Reader Unit := do
  match ← peek with
  | none => throw .endInObject
  | some ':' => advance
  | some _ => throw .expectedColon

/-- Reads members up to the closing brace, which stays unread. `member` is given the key and
what was gathered so far, and starts at the colon. The bound is as in `elementsFrom`. -/
def membersFrom {α : Type} (key : Reader String) (member : String → α → Reader α) :
    (bound : List Char) → (isFirst : Bool) → (gathered : α) → Reader α
  | [], _, _ => throw .endInObject
  | _ :: bound, isFirst, gathered => do
      if ← hasMember isFirst then
        let name ← key
        let gathered ← member name gathered
        membersFrom key member bound false gathered
      else
        return gathered

def members {α : Type} (key : Reader String) (member : String → α → Reader α) (start : α) :
    Reader α := do
  advance
  let gathered ← membersFrom key member (← get) true start
  advance
  return gathered

def finish : Reader Unit := do
  match ← peek with
  | none => pure ()
  | some _ => throw .trailingCharacters

def readDocument {α : Type} (document : Reader α) (text : String) : Except Fault α :=
  ((do let value ← document; finish; return value : Reader α)).run' text.toList

end ParseView.Json
