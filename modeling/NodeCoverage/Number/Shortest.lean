import NodeCoverage.Number.Binary64
/-!
# The shortest decimal of a number

A number of the binary format is written with the fewest decimal digits that are still read as that
number, and of the decimals with so few digits with the one nearest to it. Seventeen digits are
always enough. What is written reads back: `readsBack_of_shortest`.
-/

namespace NodeCoverage
namespace Number

/-- The decimal `digits * 10 ^ exponent`. -/
structure Decimal where
  digits : Nat
  exponent : Int
deriving DecidableEq

namespace Decimal

/-- The integer `e` with `10 ^ e ≤ x < 10 ^ (e + 1)`, for positive `x`. -/
def magnitude (x : Rat) : Int :=
  let n := x.num.natAbs
  let d := x.den
  let e := Int.ofNat (Nat.toDigits 10 n).length - Int.ofNat (Nat.toDigits 10 d).length
  let reached :=
    if 0 ≤ e then d * Nat.pow 10 e.toNat ≤ n else d ≤ n * Nat.pow 10 (-e).toNat
  if reached then e else e - 1

/-- The number of units of `10 ^ e` in `x`, as a quotient of natural numbers. -/
def units (x : Rat) (e : Int) : Nat × Nat :=
  if 0 ≤ e then (x.num.natAbs, x.den * Nat.pow 10 e.toNat)
  else (x.num.natAbs * Nat.pow 10 (-e).toNat, x.den)

def readsBack (d : Decimal) (x : Rat) : Bool :=
  Binary64.ofDecimal (Int.ofNat d.digits) d.exponent == x

/-- The two decimals next to `x` that have `count` digits, the nearer one first and the even one of
two that are equally near. -/
def neighbours (x : Rat) (count : Nat) : List Decimal :=
  let e := magnitude x + 1 - Int.ofNat count
  let (n, d) := units x e
  let near := nearest n d
  let far := if near = n / d then near + 1 else n / d
  [⟨near, e⟩, ⟨far, e⟩]

/-- The decimal that is written for a positive number of the format. -/
def shortest? (x : Rat) : Option Decimal :=
  ((List.range 17).flatMap fun i => neighbours x (i + 1)).find? fun d => d.readsBack x

theorem readsBack_of_shortest {x : Rat} {d : Decimal} (h : shortest? x = some d) :
    d.readsBack x = true := by
  have found := List.find?_some h
  exact found

end Decimal
end Number
end NodeCoverage
