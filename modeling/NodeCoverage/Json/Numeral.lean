import NodeCoverage.Number.Binary64
import NodeCoverage.Text.Digits
/-!
# Numbers of a JSON text

A numeral has digits without a needless zero in front, perhaps a point with digits after it, and
perhaps an exponent. Integers of 64 bits are exact. All other numbers are read in the binary format
of 64 bits, from as many digits as fit into 64 bits and with one rounding for each power of ten, so
that the value may miss the nearest number of the format.
-/

namespace NodeCoverage
namespace Json

/-- Appends digits to a number as long as it has 64 bits, and counts those that are left over. -/
def appendDigits (n : Nat) : List Char → Nat × Nat
  | [] => (n, 0)
  | c :: ds =>
    let m := 10 * n + Text.digitValue c
    if m < Nat.pow 2 64 then appendDigits m ds else (n, ds.length + 1)

structure Numeral where
  whole : List Char
  fraction : Option (List Char)
  exponent : Option Int

namespace Numeral

def fraction? : List Char → Option (Option (List Char) × List Char)
  | '.' :: s =>
    let ds := s.takeWhile Char.isDigit
    if ds = [] then none else some (some ds, s.dropWhile Char.isDigit)
  | s => some (none, s)

/-- An exponent and nothing behind it. -/
def exponent? : List Char → Option (Option Int)
  | [] => some none
  | e :: s =>
    if e = 'e' ∨ e = 'E' then
      let (negative, ds) := match s with
        | '-' :: ds => (true, ds)
        | '+' :: ds => (false, ds)
        | ds => (false, ds)
      if ds = [] ∨ ds.any (fun c => !c.isDigit) then none
      else
        let n := Int.ofNat (Text.ofDigits ds)
        some (some (if negative then -n else n))
    else none

def ofText? (s : List Char) : Option Numeral := do
  let whole := s.takeWhile Char.isDigit
  if whole = [] ∨ (whole.length > 1 ∧ whole.head? = some '0') then none
  else
    let (fraction, rest) ← fraction? (s.dropWhile Char.isDigit)
    pure ⟨whole, fraction, ← exponent? rest⟩

/-- The integer that the numeral denotes, if it is one of 64 bits; minus zero is none. -/
def integer? (negative : Bool) (n : Numeral) : Option Int :=
  match n.fraction, n.exponent, appendDigits 0 n.whole with
  | none, none, (m, 0) =>
    if !negative then some m
    else if 0 < m ∧ m ≤ Nat.pow 2 63 then some (-Int.ofNat m)
    else none
  | _, _, _ => none

/-- The magnitude of the numeral, if it is in the binary format. Digits that do not fit into 64 bits
together with those before them count as zeros. -/
def magnitude? (n : Numeral) : Option Rat :=
  let (head, dropped) := appendDigits 0 n.whole
  let fraction := n.fraction.getD []
  let (m, ignored) := appendDigits head fraction
  let places := fraction.length - ignored
  Number.Binary64.scaled? m (Int.ofNat dropped - Int.ofNat places + n.exponent.getD 0)

end Numeral
end Json
end NodeCoverage
