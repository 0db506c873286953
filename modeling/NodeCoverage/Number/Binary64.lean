import NodeCoverage.Number.Rounding
/-!
# Numbers with 53 significant bits

The values of the binary format of 64 bits are the multiples `m * 2 ^ q` with `|m| ≤ 2 ^ 53` and
`-1074 ≤ q`. Every rational number is rounded to the nearest of them, to an even `m` when two are
equally near. The format's greatest value is left out of this rule: most results here are cut down
to a bound far below it, and where that is not so `limit` tells apart what lies above it.
-/

namespace NodeCoverage
namespace Number
namespace Binary64

/-- The integer `e` with `2 ^ e ≤ n / d < 2 ^ (e + 1)`, for positive `n` and `d`. -/
def exponent (n d : Nat) : Int :=
  let e : Int := Int.ofNat n.log2 - Int.ofNat d.log2
  let reached := if 0 ≤ e then d * Nat.pow 2 e.toNat ≤ n else d ≤ n * Nat.pow 2 (-e).toNat
  if reached then e else e - 1

/-- The exponent of the last bit that is kept of `n / d`. -/
def lastBit (n d : Nat) : Int :=
  max (exponent n d - 52) (-1074)

def roundQuotient (n d : Nat) : Rat :=
  let q := lastBit n d
  if 0 ≤ q then
    let unit := Nat.pow 2 q.toNat
    (nearest n (d * unit) * unit : Nat)
  else
    let units := Nat.pow 2 (-q).toNat
    mkRat (nearest (n * units) d) units

/-- The nearest number of the format. -/
def round (x : Rat) : Rat :=
  if x.num = 0 then 0
  else if 0 < x.num then roundQuotient x.num.natAbs x.den
  else -roundQuotient x.num.natAbs x.den

def add (x y : Rat) : Rat := round (x + y)

def mul (x y : Rat) : Rat := round (x * y)

def ofDecimal (mantissa exponent : Int) : Rat :=
  if 0 ≤ exponent then round (mantissa * Int.ofNat (Nat.pow 10 exponent.toNat) : Int)
  else round (mkRat mantissa (Nat.pow 10 (-exponent).toNat))

def div (x y : Rat) : Rat := round (x / y)

/-- The least power of two above all numbers of the format. -/
def limit : Nat := Nat.pow 2 1024

/-- The exponent of the greatest power of ten in the format. -/
def greatestPower : Nat := 308

def power (e : Nat) : Rat :=
  round (Int.ofNat (Nat.pow 10 e) : Int)

/-- The number `x / 10 ^ e`, with a rounded division for each of the powers that `10 ^ e` consists
of. -/
def divideByPower (x : Rat) (e : Nat) : Rat :=
  if x = 0 then 0
  else if e ≤ greatestPower then div x (power e)
  else divideByPower (div x (power greatestPower)) (e - greatestPower)
termination_by e
decreasing_by simp only [greatestPower] at *; omega

/-- The number `n * 10 ^ e`, if it is below the limit: `n` is rounded and then multiplied or divided
by powers of ten, each result being rounded. This may miss the nearest number of the format by a
little. -/
def scaled? (n : Nat) (e : Int) : Option Rat :=
  let x := round (Int.ofNat n : Int)
  if e < 0 then some (divideByPower x (-e).toNat)
  else if n = 0 then some 0
  else if Int.ofNat greatestPower < e then none
  else
    let y := mul x (power e.toNat)
    if y < (Int.ofNat limit : Int) then some y else none

end Binary64
end Number
end NodeCoverage
