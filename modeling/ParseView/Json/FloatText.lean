import ParseView.Decimal.Shortest

/-! The text of floating-point numbers. -/

namespace ParseView.Json

structure FloatLayout where
  least : Int
  greatest : Int
deriving DecidableEq, Repr

/-- Numbers from a hundred thousandth up to, and not including, ten quadrillion have no
exponent. -/
def floatLayout : FloatLayout := ⟨-5, 15⟩

def zeros (count : Int) : List Char := List.replicate count.toNat '0'

/-- The digits of a number whose first digit stands for a multiple of `10 ^ exponent`. A number
without exponent has a point and a digit on both sides of it. -/
def placeDigits (layout : FloatLayout) (digits : List Char) (exponent : Int) : List Char :=
  if layout.least ≤ exponent ∧ exponent ≤ layout.greatest then
    if exponent < 0 then ['0', '.'] ++ zeros (-exponent - 1) ++ digits
    else
      let whole := (exponent + 1).toNat
      let fraction := digits.drop whole
      digits.take whole ++ zeros (exponent + 1 - digits.length) ++ ['.'] ++
        (if fraction.isEmpty then ['0'] else fraction)
  else
    let point := if digits.length ≤ 1 then [] else ['.']
    digits.take 1 ++ point ++ digits.drop 1 ++ ['e', if exponent < 0 then '-' else '+'] ++
      Nat.toDigits 10 exponent.natAbs

def floatText (value : Float) : String :=
  let bits := value.toBits
  let sign := if bits.toNat < Nat.pow 2 63 then [] else ['-']
  let magnitude :=
    match (Decimal.Binary.ofBits bits).shortest? with
    | none => ['0', '.', '0']
    | some decimal =>
        let digits := Nat.toDigits 10 decimal.digits
        placeDigits floatLayout digits (decimal.exponent + digits.length - 1)
  String.ofList (sign ++ magnitude)

end ParseView.Json
