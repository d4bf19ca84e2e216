/-! The decimal with the fewest digits that reads back as a given binary floating-point number.

A finite number is a whole significand times a power of two. The reals that round to it form an
interval around it, which holds its ends if and only if the significand is even. On each decimal
grid only the two neighbours of the number can be the nearest point of that interval, so going
from coarse grids to fine ones finds the shortest decimal first. -/

namespace ParseView

/-- The number `digits * 10 ^ exponent`. -/
structure Decimal where
  digits : Nat
  exponent : Int
deriving DecidableEq, Repr

namespace Decimal

/-- A finite number `significand * 2 ^ exponent`, with the reals that round to it: from
`significand - 1/2` or, below a power of two, from `significand - 1/4` up to
`significand + 1/2`, times the same power. -/
structure Binary where
  significand : Nat
  exponent : Int
  narrowBelow : Bool
deriving DecidableEq, Repr

namespace Binary

def ofBits (bits : UInt64) : Binary :=
  let fraction : Nat := bits.toNat % Nat.pow 2 52
  let biased : Nat := bits.toNat / Nat.pow 2 52 % Nat.pow 2 11
  if biased = 0 then ⟨fraction, -1074, false⟩
  else ⟨Nat.pow 2 52 + fraction, (biased : Int) - 1075, fraction = 0 && 1 < biased⟩

/-- The neighbours of the number on the grid of multiples of `10 ^ exponent`, if one rounds to
it; of two that do, the nearer one, and of two equally near ones the even one. -/
def onGrid? (number : Binary) (exponent : Int) : Option Decimal :=
  let quarter := number.exponent - 2
  let above := Nat.pow 2 quarter.toNat * Nat.pow 10 (-exponent).toNat
  let below := Nat.pow 2 (-quarter).toNat * Nat.pow 10 exponent.toNat
  let middle := 4 * number.significand * above
  let low := (4 * number.significand - if number.narrowBelow then 1 else 2) * above
  let high := (4 * number.significand + 2) * above
  let rounds (point : Nat) : Bool :=
    if number.significand % 2 = 0 then low ≤ point * below && point * below ≤ high
    else low < point * below && point * below < high
  let lower := middle / below
  let upper := lower + 1
  match rounds lower, rounds upper with
  | false, false => none
  | true, false => some ⟨lower, exponent⟩
  | false, true => some ⟨upper, exponent⟩
  | true, true =>
      let down := middle - lower * below
      let up := upper * below - middle
      if down < up || (down == up && lower % 2 == 0) then some ⟨lower, exponent⟩
      else some ⟨upper, exponent⟩

def grids : List Int :=
  (List.range 640).map fun (step : Nat) => (310 : Int) - step

/-- Zero, which every grid holds, has no shortest decimal. -/
def shortest? (number : Binary) : Option Decimal :=
  if number.significand = 0 then none else grids.findSome? number.onGrid?

end Binary

end Decimal

end ParseView
