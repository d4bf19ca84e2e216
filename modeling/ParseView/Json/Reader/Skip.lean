import ParseView.Json.Reader.Text

/-! Passing over values that nobody asks for. They are only scanned: nesting has no limit,
numbers may be of any size, and surrogates need not come in pairs. -/

namespace ParseView.Json

inductive Bracket where
  | list
  | object
deriving DecidableEq, Repr

namespace Bracket

def closer : Bracket → Char
  | list => ']'
  | object => '\x7d'

def unfinished : Bracket → Fault
  | list => .endInList
  | object => .endInObject

def separatorMissing : Bracket → Fault
  | list => .expectedListSeparator
  | object => .expectedObjectSeparator

end Bracket

def isDigitNext : Reader Bool := do
  return (← head?).any Char.isDigit

def skipDigits : Reader Unit :=
  modify (List.dropWhile Char.isDigit)

def skipSomeDigits : Reader Unit := do
  if ← isDigitNext then skipDigits else throw .invalidNumber

def skipExponent : Reader Unit := do
  match ← head? with
  | some 'e' | some 'E' =>
      advance
      let sign ← head?
      if sign = some '+' ∨ sign = some '-' then advance
      skipSomeDigits
  | _ => pure ()

def skipNumber : Reader Unit := do
  if (← head?) = some '-' then advance
  if (← head?) = some '0' then
    advance
    if ← isDigitNext then throw .invalidNumber
  else
    skipSomeDigits
  if (← head?) = some '.' then
    advance
    skipSomeDigits
  skipExponent

def escapeLength : List Char → Except Fault Nat
  | [] => throw .endInText
  | 'u' :: digits => do
      let _ ← codeUnit digits
      return 5
  | letter :: _ =>
      if (letterEscape? letter).isSome then return 1 else throw .invalidEscape

/-- Passes over a text up to and including its closing quotation mark. The first `covered`
characters belong to an escape that is checked already. -/
def skipTextFrom : (covered : Nat) → List Char → Except Fault (List Char)
  | _, [] => throw .endInText
  | covered + 1, _ :: rest => skipTextFrom covered rest
  | 0, '"' :: rest => return rest
  | 0, '\\' :: rest => do
      let length ← escapeLength rest
      skipTextFrom length rest
  | 0, first :: rest =>
      if first.toNat < 0x20 then throw .controlCharacter else skipTextFrom 0 rest

def skipText : Reader Unit := do
  advance
  set (← (skipTextFrom 0 (← get) : Except Fault (List Char)))

def skipKey : Reader Unit := do
  match ← peek with
  | none => throw .endInObject
  | some '"' =>
      skipText
      colon
  | some _ => throw .keyNotText

def skipStart : Reader (Option Bracket) := do
  match ← peek with
  | none => throw .endInValue
  | some '[' => advance; return some .list
  | some '\x7b' => advance; return some .object
  | some 'n' => word "null".toList; return none
  | some 't' => word "true".toList; return none
  | some 'f' => word "false".toList; return none
  | some '"' => skipText; return none
  | some other =>
      if other = '-' ∨ other.isDigit then
        skipNumber
        return none
      else
        throw .expectedValue

/-- Passes over all that is left inside the open brackets, the innermost first, and over their
closers. Every round takes a character at least, so there are no more of them than `bound`, the
characters that remain at the start. -/
def skipOpen : (bound : List Char) → (isFirst : Bool) → (opened : List Bracket) → Reader Unit
  | _, _, [] => pure ()
  | [], _, bracket :: _ => throw bracket.unfinished
  | _ :: bound, isFirst, bracket :: outer => do
      match ← peek with
      | none => throw bracket.unfinished
      | some found =>
          if found = bracket.closer then
            advance
            skipOpen bound false outer
          else
            if !isFirst then
              if found = ',' then advance else throw bracket.separatorMissing
            if bracket = .object then skipKey
            match ← skipStart with
            | none => skipOpen bound false (bracket :: outer)
            | some inner => skipOpen bound true (inner :: bracket :: outer)

def skipValue : Reader Unit := do
  match ← skipStart with
  | none => pure ()
  | some bracket => skipOpen (← get) true [bracket]

end ParseView.Json
