import Mathlib

/-!
Kubernetes quantities as exact fractions, without floating point rounding.
-/
namespace Expbuild.Quantities

/-- The powers of ten of the decimal suffixes. -/
def decimalPower : Char → Option Int
  | 'n' => some (-9)
  | 'u' => some (-6)
  | 'm' => some (-3)
  | 'k' => some 3
  | 'M' => some 6
  | 'G' => some 9
  | 'T' => some 12
  | 'P' => some 15
  | 'E' => some 18
  | _ => none

/-- The powers of 1024 of the binary suffixes. -/
def binaryPower : Char → Option Nat
  | 'K' => some 1
  | 'M' => some 2
  | 'G' => some 3
  | 'T' => some 4
  | 'P' => some 5
  | 'E' => some 6
  | _ => none

/-- `+`, `-` or nothing, then at least one digit. -/
def exponent (text : List Char) : Option Int :=
  let (negative,digits) := match text with
    | '+' :: rest => (false,rest)
    | '-' :: rest => (true,rest)
    | rest => (false,rest)
  if digits ≠ [] ∧ digits.all Char.isDigit then
    let n := Nat.ofDigitChars 10 digits 0
    some (if negative then -(n : Int) else n)
  else none

/-- Multiplies a fraction by a power of ten. -/
def scale (power : Int) (fraction : Nat × Nat) : Nat × Nat :=
  if 0 ≤ power then (fraction.1 * 10 ^ power.toNat,fraction.2) else (fraction.1,fraction.2 * 10 ^ (-power).toNat)

/-- Applies the suffix of a quantity to its fraction. -/
def withSuffix (fraction : Nat × Nat) : List Char → Option (Nat × Nat)
  | [] => some fraction
  | [c] => (decimalPower c).map (fun power => scale power fraction)
  | [c,'i'] => (binaryPower c).map (fun power => (fraction.1 * 1024 ^ power,fraction.2))
  | c :: rest => do
    guard (c = 'e' ∨ c = 'E')
    let power ← exponent rest
    guard (power.natAbs ≤ 128)
    return scale power fraction

/-- A nonnegative quantity as numerator and denominator. -/
def rational (value : String) : Option (Nat × Nat) := do
  guard (value.length ≤ 128)
  let text := match value.toList with
    | '+' :: rest => rest
    | rest => rest
  let whole := text.takeWhile Char.isDigit
  let (fraction,suffix) := match text.dropWhile Char.isDigit with
    | '.' :: rest => (rest.takeWhile Char.isDigit,rest.dropWhile Char.isDigit)
    | rest => ([],rest)
  guard (whole ≠ [] ∨ fraction ≠ [])
  withSuffix (Nat.ofDigitChars 10 (whole ++ fraction) 0,10 ^ fraction.length) suffix

/-- Whether a quantity is larger than what is reserved; none where one is invalid. -/
def quantityExceeds (actual reserved : String) : Option Bool := do
  let (a,ad) ← rational actual
  let (r,rd) ← rational reserved
  return decide (a * rd > r * ad)

/-- The quantity in units, rounded up; none where it is invalid or too large. -/
def quantityCeil (actual unit : String) : Option Nat := do
  let (a,ad) ← rational actual
  let (u,ud) ← rational unit
  guard (0 < u)
  let numerator := a * ud
  let denominator := ad * u
  let rounded := (numerator + denominator - 1) / denominator
  guard (rounded ≤ 2147483647)
  return rounded

example : quantityCeil "1.5Gi" "1Gi" = some 2 := by decide
example : quantityCeil "1e" "1Gi" = none := by decide

end Expbuild.Quantities
