import GraphQuery.Decimal.Shortest

/-! Ways of writing a decimal: with all its places, or with one digit before the point and a
power of ten. -/
namespace GraphQuery.Decimal

def zeros (n : Nat) : List Char := List.replicate n '0'

/-- The number of digits before the point. -/
def point (d : Decimal) : Int := d.exponent + (Nat.toDigits 10 d.digits).length

/-- All places written out, and no point in a whole number. -/
def positional (d : Decimal) : List Char :=
  let ds := Nat.toDigits 10 d.digits
  if 0 ≤ d.exponent then ds ++ zeros d.exponent.toNat
  else if 0 < d.point then ds.take d.point.toNat ++ '.' :: ds.drop d.point.toNat
  else '0' :: '.' :: (zeros (-d.point).toNat ++ ds)

/-- One digit, the others after a point, and after an `e` the power of ten with its sign. -/
def scientific (d : Decimal) : List Char :=
  let power := d.point - 1
  let power := (if power < 0 then '-' else '+') :: Nat.toDigits 10 power.natAbs
  match Nat.toDigits 10 d.digits with
  | [] => []
  | [c] => c :: 'e' :: power
  | c :: rest => c :: '.' :: (rest ++ 'e' :: power)

example : positional ⟨15, 3⟩ = "15000".toList := by decide
example : positional ⟨1234, -2⟩ = "12.34".toList := by decide
example : positional ⟨12, -4⟩ = "0.0012".toList := by decide
example : scientific ⟨1234, 30⟩ = "1.234e+33".toList := by decide
example : scientific ⟨1, -7⟩ = "1e-7".toList := by decide

end GraphQuery.Decimal
