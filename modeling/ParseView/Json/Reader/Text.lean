import ParseView.Json.Reader

/-! Reading the texts in quotation marks that a JSON text holds. -/

namespace ParseView.Json

def hexValue? (digit : Char) : Option Nat :=
  if digit.isDigit then some (digit.toNat - '0'.toNat)
  else if 'a' ≤ digit ∧ digit ≤ 'f' then some (digit.toNat - 'a'.toNat + 10)
  else if 'A' ≤ digit ∧ digit ≤ 'F' then some (digit.toNat - 'A'.toNat + 10)
  else none

/-- The number that four hexadecimal digits at the start of the characters stand for. Where
fewer than four bytes remain, the text has ended too early. -/
def codeUnit : List Char → Except Fault Nat
  | first :: second :: third :: fourth :: _ =>
      match hexValue? first, hexValue? second, hexValue? third, hexValue? fourth with
      | some high, some upper, some lower, some low =>
          .ok (((high * 16 + upper) * 16 + lower) * 16 + low)
      | _, _, _, _ => .error .invalidEscape
  | short =>
      if (String.ofList short).utf8ByteSize < 4 then .error .endInText else .error .invalidEscape

def isLeadingSurrogate (unit : Nat) : Bool := 0xD800 ≤ unit && unit ≤ 0xDBFF

def isTrailingSurrogate (unit : Nat) : Bool := 0xDC00 ≤ unit && unit ≤ 0xDFFF

def joinSurrogates (leading trailing : Nat) : Char :=
  Char.ofNat ((leading - 0xD800) * 0x400 + (trailing - 0xDC00) + 0x10000)

def trailingUnit : List Char → Except Fault Nat
  | '\\' :: 'u' :: digits => do
      let unit ← codeUnit digits
      if isTrailingSurrogate unit then return unit else throw .loneSurrogate
  | [] | ['\\'] => throw .endInText
  | _ => throw .unfinishedSurrogatePair

def letterEscape? : Char → Option Char
  | '"' => some '"'
  | '\\' => some '\\'
  | '/' => some '/'
  | 'b' => some '\x08'
  | 'f' => some '\x0c'
  | 'n' => some '\n'
  | 'r' => some '\r'
  | 't' => some '\t'
  | _ => none

/-- The character that the escape after a backslash stands for, and the number of characters
that the escape takes up. -/
def readEscape : List Char → Except Fault (Char × Nat)
  | [] => throw .endInText
  | 'u' :: digits => do
      let unit ← codeUnit digits
      if isTrailingSurrogate unit then
        throw .loneSurrogate
      else if isLeadingSurrogate unit then
        let trailing ← trailingUnit (digits.drop 4)
        return (joinSurrogates unit trailing, 11)
      else
        return (Char.ofNat unit, 5)
  | letter :: _ =>
      match letterEscape? letter with
      | some character => return (character, 1)
      | none => throw .invalidEscape

/-- Reads up to the closing quotation mark. The first `covered` characters belong to an escape
that is read already. -/
def textFrom (collected : List Char) : (covered : Nat) → List Char →
    Except Fault (String × List Char)
  | _, [] => throw .endInText
  | covered + 1, _ :: rest => textFrom collected covered rest
  | 0, '"' :: rest => return (String.ofList collected.reverse, rest)
  | 0, '\\' :: rest => do
      let (character, length) ← readEscape rest
      textFrom (character :: collected) length rest
  | 0, first :: rest =>
      if first.toNat < 0x20 then throw .controlCharacter
      else textFrom (first :: collected) 0 rest

def readText : Reader String := do
  advance
  fun characters => textFrom [] 0 characters

end ParseView.Json
