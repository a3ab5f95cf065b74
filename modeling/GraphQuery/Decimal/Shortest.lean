import GraphQuery.Decimal.Binary64

/-! The fewest decimal digits that read back as the same number. One unit divided by four is
5^1076 * 10^-1076, so a number, and the two midpoints between it and its neighbours, are whole
multiples of 10^-1076, and the search runs in natural numbers. -/
namespace GraphQuery

/-- The number `digits * 10 ^ exponent`. -/
structure Decimal where
  digits : Nat
  exponent : Int
  deriving DecidableEq, Repr

/-- The choice between two decimals of equal length at equal distance. -/
inductive Tie where
  | up
  | even
  deriving DecidableEq, Repr

namespace Decimal

/-- Remove the zeros at the end of the digits. -/
def dropZeros (d : Decimal) : Nat → Decimal
  | 0 => d
  | n + 1 =>
    if d.digits % 10 = 0 then dropZeros ⟨d.digits / 10, d.exponent + 1⟩ n else d

end Decimal

namespace Binary64

/-- The value and the two midpoints around it, in multiples of 10^-1076. -/
structure Around where
  low : Nat
  value : Nat
  high : Nat
  closed : Bool
  deriving DecidableEq

/-- Below a power of two the neighbour is half as far as above it. A midpoint reads back as the
number whose significand is even. -/
def around (x : Binary64) : Around :=
  let step := Nat.pow 2 x.shift * Nat.pow 5 1076
  let below := if x.significand = 4503599627370496 ∧ x.shift ≠ 0 then 1 else 2
  ⟨4 * x.significand * step - below * step, 4 * x.significand * step,
    4 * x.significand * step + 2 * step, x.significand % 2 == 0⟩

namespace Around

def contains (a : Around) (v : Nat) : Bool :=
  if a.closed then a.low ≤ v && v ≤ a.high else a.low < v && v < a.high

/-- The multiple of `grid` that reads back and is nearest to the value. -/
def nearestOn? (a : Around) (tie : Tie) (grid : Nat) : Option Nat :=
  let q := a.value / grid
  let down := a.contains (q * grid)
  let up := a.contains ((q + 1) * grid)
  let r := a.value % grid
  if down && up then
    if 2 * r < grid then some q
    else if grid < 2 * r then some (q + 1)
    else match tie with
      | .up => some (q + 1)
      | .even => some (q + q % 2)
  else if down then some q
  else if up then some (q + 1)
  else none

/-- Try ever finer grids, beginning with one digit. -/
def search (a : Around) (tie : Tie) (length : Nat) : Nat → Decimal
  | 0 => ⟨a.value, -1076⟩
  | n + 1 =>
    let place := length - (17 - n)
    match a.nearestOn? tie (Nat.pow 10 place) with
    | some q => ⟨q, place - 1076⟩
    | none => search a tie length n

end Around

/-- Of the decimals that read back as the magnitude of the number, one with the fewest digits,
and of these the nearest. -/
def shortest (x : Binary64) (tie : Tie) : Decimal :=
  if x.isZero then ⟨0, 0⟩
  else
    let a := x.around
    (a.search tie (Nat.toDigits 10 a.value).length 17).dropZeros 17

example : (ofDecimal? false 1 (-1)).map (shortest · .up) = some ⟨1, -1⟩ := by decide +kernel
example : (ofDecimal? false 3 (-1)).map (shortest · .even) = some ⟨3, -1⟩ := by decide +kernel
example : (ofDecimal? false 5 (-324)).map (shortest · .up) = some ⟨5, -324⟩ := by decide +kernel
example : (ofDecimal? false 17976931348623157 292).map (shortest · .up) =
    some ⟨17976931348623157, 292⟩ := by decide +kernel
example : (ofDecimal? false 1 22).map (shortest · .up) = some ⟨1, 22⟩ := by decide +kernel

end Binary64
end GraphQuery
