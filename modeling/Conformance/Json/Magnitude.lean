/-!
How large a number is as a double.

The digits of a number are taken in order, as far as 64 bits hold them, and the
number is then a product: those digits times a power of ten. Both factors and
the product are rounded to the nearest double, and half a step goes to the even
neighbour. Next to the largest double it depends on these roundings, and not
only on what is written, whether a number is too large.
-/

namespace Conformance.Json

/-! ## Digits -/

/-- The value of a decimal digit. -/
def digitValue (c : Char) : Nat := c.toNat - '0'.toNat

/-- The value of a list of decimal digits. -/
def digitsValue (digits : List Char) : Nat :=
  digits.foldl (fun n c => n * 10 + digitValue c) 0

/-- Appends digits to a number as long as it stays below 64 bits. The second
part counts the digits from the first one on that does not fit. -/
def appendDigits (n : Nat) : List Char → Nat × Nat
  | [] => (n, 0)
  | c :: rest =>
    if n * 10 + digitValue c < UInt64.size then appendDigits (n * 10 + digitValue c) rest
    else (n, rest.length + 1)

/-! ## Doubles -/

/-- The double next to a whole number: its first 53 binary digits, rounded. -/
def nearestDouble (n : Nat) : Nat :=
  let step := 1 <<< (n.log2 - 52)
  let quotient := n / step
  let rest := n % step
  if step < 2 * rest ∨ 2 * rest = step ∧ quotient % 2 = 1 then (quotient + 1) * step
  else quotient * step

/-- The least number that is rounded to no finite double: half a step beyond
the largest one. -/
def doubleBound : Nat := 1 <<< 1024 - 1 <<< 970

/-- The largest power of ten that is a double. -/
def maxPower : Int := 308

/-- Whether a number is too large for a double. A part of it that is written in
front of the point and does not fit counts as noughts. -/
def exceedsDouble (whole fraction : List Char) (exponent : Int) : Bool :=
  let (front, dropped) := appendDigits 0 whole
  let (digits, unused) := appendDigits front fraction
  let power := exponent + dropped - (fraction.length - unused : Nat)
  if digits = 0 ∨ power < 0 then false
  else if maxPower < power then true
  else decide (doubleBound ≤ nearestDouble digits * nearestDouble (Nat.pow 10 power.toNat))

end Conformance.Json
