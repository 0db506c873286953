import NodeCoverage.Json.Basic
import NodeCoverage.Number.Shortest
/-!
# Writing JSON

Values are written without spaces. In a string, quotes, backslashes and the characters below
`U+0020` are escaped and everything else stands for itself. A number that is no integer has the
fewest digits that tell it apart from others.
-/

namespace NodeCoverage
namespace Json

def fourDigits (n : Nat) : List Char :=
  let ds := Nat.toDigits 16 n
  List.replicate (4 - ds.length) '0' ++ ds

def escapeChar (c : Char) : List Char :=
  if c = '"' then ['\\', '"']
  else if c = '\\' then ['\\', '\\']
  else if c = '\x08' then ['\\', 'b']
  else if c = '\x0c' then ['\\', 'f']
  else if c = '\n' then ['\\', 'n']
  else if c = '\r' then ['\\', 'r']
  else if c = '\t' then ['\\', 't']
  else if c.toNat < 0x20 then ['\\', 'u'] ++ fourDigits c.toNat
  else [c]

def renderString (s : String) : String :=
  String.ofList ('"' :: (s.toList.flatMap escapeChar ++ ['"']))

/-- Digits with a point behind the first `whole` of them. -/
def pointed (digits : List Char) (whole : Nat) : List Char :=
  digits.take whole ++ '.' :: digits.drop whole

/-- A power of ten, always with a sign. -/
def exponentText (e : Int) : List Char :=
  'e' :: (if e < 0 then '-' else '+') :: Nat.toDigits 10 e.natAbs

/-- The notation of the number with these digits before `zeros` powers of ten. It is positional
from `10 ^ -5` up to `10 ^ 16` and always shows that the number is no integer of 64 bits. -/
def floatNotation (digits : List Char) (zeros : Int) : List Char :=
  let whole := digits.length + zeros
  if 0 ≤ zeros ∧ whole ≤ 16 then digits ++ List.replicate zeros.toNat '0' ++ ['.', '0']
  else if 0 < whole ∧ whole ≤ 16 then pointed digits whole.toNat
  else if -5 < whole ∧ whole ≤ 0 then '0' :: '.' :: List.replicate whole.natAbs '0' ++ digits
  else (if digits.length = 1 then digits else pointed digits 1) ++ exponentText (whole - 1)

/-- The digits of a number without the zeros at its end, and how many zeros these are. -/
def significantDigits (n : Nat) : List Char × Nat :=
  let ds := (Nat.toDigits 10 n).reverse
  ((ds.dropWhile (· = '0')).reverse, (ds.takeWhile (· = '0')).length)

def magnitudeText (x : Rat) : String :=
  if x = 0 then "0.0"
  else match Number.Decimal.shortest? x with
    | some d =>
      let (digits, zeros) := significantDigits d.digits
      String.ofList (floatNotation digits (d.exponent + zeros))
    | none => "null"

def renderFloat (negative : Bool) (magnitude : Rat) : String :=
  (if negative then "-" else "") ++ magnitudeText magnitude

mutual

/-- The text of a value; what is unreadable has that of `null`. -/
def render : Json → String
  | .null | .unreadable => "null"
  | .bool true => "true"
  | .bool false => "false"
  | .integer i => toString i
  | .float negative magnitude => renderFloat negative magnitude
  | .string s => renderString s
  | .array js => "[" ++ String.intercalate "," (renderItems js) ++ "]"
  | .object ms => "\x7b" ++ String.intercalate "," (renderMembers ms) ++ "\x7d"

def renderItems : List Json → List String
  | [] => []
  | j :: js => render j :: renderItems js

def renderMembers : List (String × Json) → List String
  | [] => []
  | (k, v) :: ms => (renderString k ++ ":" ++ render v) :: renderMembers ms

end

mutual

/-- The same value with the members of every object in the order of their keys. -/
def sortKeys : Json → Json
  | .array js => .array (sortKeysItems js)
  | .object ms => .object ((sortKeysMembers ms).mergeSort fun a b => decide (a.1 ≤ b.1))
  | j => j

def sortKeysItems : List Json → List Json
  | [] => []
  | j :: js => sortKeys j :: sortKeysItems js

def sortKeysMembers : List (String × Json) → List (String × Json)
  | [] => []
  | (k, v) :: ms => (k, sortKeys v) :: sortKeysMembers ms

end

end Json
end NodeCoverage
