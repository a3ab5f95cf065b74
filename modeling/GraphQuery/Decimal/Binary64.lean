/-! Finite numbers of the binary64 format, held exactly. The unit is the least positive number
of the format, 2^-1074, and every finite number is a sign and a whole number of units. -/
namespace GraphQuery

/-- The magnitude is `significand * 2 ^ shift` units. The significand has at most 53 bits, and a
shift above zero uses all of them, so two numbers with the same fields are the only ones with the
same value, the two zeros apart. -/
structure Binary64 where
  negative : Bool
  significand : Nat
  shift : Nat
  significand_lt : significand < 9007199254740992
  shift_le : shift ≤ 2045
  normal : shift = 0 ∨ 4503599627370496 ≤ significand
  deriving DecidableEq

namespace Binary64

def units (x : Binary64) : Nat := x.significand * Nat.pow 2 x.shift

def isZero (x : Binary64) : Bool := x.significand == 0

/-- Equality of values: the two zeros are equal. -/
def same (x y : Binary64) : Bool := (x.isZero && y.isZero) || x == y

@[simp] theorem same_self (x : Binary64) : x.same x = true := by simp [same]

def zero (negative : Bool) : Binary64 := ⟨negative, 0, 0, by decide, by decide, by decide⟩

def ofParts? (negative : Bool) (significand shift : Nat) : Option Binary64 :=
  if h : significand < 9007199254740992 ∧ shift ≤ 2045 ∧ (shift = 0 ∨ 4503599627370496 ≤ significand) then
    some ⟨negative, significand, shift, h.1, h.2.1, h.2.2⟩
  else none

/-- The quotient rounded to the nearest whole number, a half to the even one. -/
def divNearest (n d : Nat) : Nat :=
  let q := n / d
  let r := n % d
  if 2 * r < d then q else if d < 2 * r then q + 1 else q + q % 2

/-- The number nearest to `n / d`; none when that overflows. -/
def ofRatio? (negative : Bool) (n d : Nat) : Option Binary64 :=
  let scaled := n * Nat.pow 2 1074
  let shift := Nat.log2 (scaled / d) - 52
  let significand := divNearest scaled (d * Nat.pow 2 shift)
  if significand < 9007199254740992 then ofParts? negative significand shift
  else ofParts? negative 4503599627370496 (shift + 1)

/-- The number nearest to `digits * 10 ^ exponent`; none when that overflows. -/
def ofDecimal? (negative : Bool) (digits : Nat) (exponent : Int) : Option Binary64 :=
  let point := exponent + (Nat.toDigits 10 digits).length
  if digits = 0 ∨ point < -330 then some (zero negative)
  else if 310 < point then none
  else if 0 ≤ exponent then ofRatio? negative (digits * Nat.pow 10 exponent.toNat) 1
  else ofRatio? negative digits (Nat.pow 10 (-exponent).toNat)

example : (ofDecimal? false 1 0).map units = some (2 ^ 1074) := by decide +kernel
example : (ofDecimal? true 25 (-1)).map units = some (5 * 2 ^ 1073) := by decide +kernel
example : (ofDecimal? false 3 (-324)).map units = some 1 := by decide +kernel
example : (ofDecimal? false 2 (-324)).map units = some 0 := by decide +kernel
example : ofDecimal? false 18 307 = none := by decide +kernel
example : (ofRatio? false (2 ^ 64 - 1) 1).map units = some (2 ^ 64 * 2 ^ 1074) := by decide +kernel

end Binary64
end GraphQuery
