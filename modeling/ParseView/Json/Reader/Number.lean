import ParseView.Json.Reader

/-! Reading JSON numbers.

The digits of a number are gathered into a significand of 64 bits, as far as they fit, and the
number is that significand scaled by a power of ten. -/

namespace ParseView.Json

def digits : Reader (List Nat) := do
  let characters ← get
  set (characters.dropWhile Char.isDigit)
  return (characters.takeWhile Char.isDigit).map fun digit => digit.toNat - '0'.toNat

def someDigits : Reader (List Nat) := do
  match ← digits with
  | [] =>
      match ← head? with
      | none => throw .endInValue
      | some _ => throw .invalidNumber
  | first :: rest => return first :: rest

/-- Adds digits to a significand as long as it stays below `2 ^ 64`, and gives the digits that
are left. -/
def gather (significand : Nat) : List Nat → Nat × List Nat
  | [] => (significand, [])
  | digit :: rest =>
      if significand * 10 + digit < UInt64.size then gather (significand * 10 + digit) rest
      else (significand, digit :: rest)

def powerOfTen (exponent : Nat) : Float :=
  Float.ofScientific 1 false exponent

/-- Divides by a power of ten, in steps that floating-point numbers can hold. -/
def scaleDown (value : Float) (exponent : Nat) : Float :=
  if exponent ≤ 308 then value / powerOfTen exponent
  else if value == 0 then value
  else scaleDown (value / powerOfTen 308) (exponent - 308)
termination_by exponent

def magnitude (significand : Nat) (exponent : Int) : Except Fault Float :=
  let value := Float.ofNat significand
  if exponent < 0 then
    return scaleDown value exponent.natAbs
  else if exponent ≤ 308 then
    let scaled := value * powerOfTen exponent.natAbs
    if scaled.isInf then throw .numberOutOfRange else return scaled
  else if value == 0 then
    return value
  else
    throw .numberOutOfRange

def exponentPart : Reader (Option Int) := do
  match ← head? with
  | some 'e' | some 'E' =>
      advance
      let sign ← head?
      if sign = some '+' ∨ sign = some '-' then advance
      let exponent : Nat := (← someDigits).foldl (fun value digit => value * 10 + digit) 0
      return some (if sign = some '-' then -(exponent : Int) else (exponent : Int))
  | _ => return none

def fractionPart : Reader (List Nat) := do
  match ← head? with
  | some '.' =>
      advance
      someDigits
  | _ => return []

def wholeNumber (negative : Bool) (significand : Nat) : Number :=
  if !negative then .integer significand
  else if 0 < significand ∧ significand ≤ Nat.pow 2 63 then .integer (-(significand : Int))
  else .real (-(Float.ofNat significand))

def readNumber : Reader Number := do
  let negative := (← head?) == some '-'
  if negative then advance
  let whole ← someDigits
  if whole.head? = some 0 ∧ 1 < whole.length then throw .invalidNumber
  let fraction ← fractionPart
  let exponent ← exponentPart
  let (significand, dropped) := gather 0 whole
  if fraction.isEmpty ∧ exponent.isNone ∧ dropped.isEmpty then
    return wholeNumber negative significand
  else
    let (significand, ignored) := gather significand fraction
    let places : Int := dropped.length - (fraction.length - ignored.length : Int)
    let value ← (magnitude significand (places + exponent.getD 0) : Except Fault Float)
    return .real (if negative then -value else value)

end ParseView.Json
