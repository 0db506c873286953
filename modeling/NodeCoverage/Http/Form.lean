import NodeCoverage.Text.Hexadecimal
import NodeCoverage.Text.Split
import NodeCoverage.Text.Utf8
/-!
# Form encoding

A list of pairs is written as `name=value` with `&` before each pair. Bytes other than the ASCII
letters, the digits and `*`, `-`, `.`, `_` are written as `%` and two hexadecimal digits, and a
blank as `+`. Reading accepts any text: pieces of nothing are skipped, a piece without a sign is a
name, and a `%` that is not followed by two digits stands for itself.
-/

namespace NodeCoverage
namespace Http
namespace Form

def isPlain (c : Char) : Bool :=
  c.isAlphanum || c = '*' || c = '-' || c = '.' || c = '_'

def encodeByte (b : UInt8) : List Char :=
  let c := Char.ofNat b.toNat
  if b < 128 && isPlain c then [c]
  else if b = 32 then ['+']
  else ['%', Text.hexDigit (b.toNat / 16), Text.hexDigit (b.toNat % 16)]

def encodeText (s : String) : List Char :=
  s.toUTF8.toList.flatMap encodeByte

/-- A list of pairs, each behind the sign that keeps it apart from what stands before it. -/
def encode (pairs : List (String × String)) : List Char :=
  pairs.flatMap fun (name, value) => '&' :: (encodeText name ++ '=' :: encodeText value)

def decodeBytes : List Char → List UInt8
  | [] => []
  | '+' :: s => 32 :: decodeBytes s
  | '%' :: a :: b :: s =>
    match Text.hexValue? a, Text.hexValue? b with
    | some m, some n => UInt8.ofNat (16 * m + n) :: decodeBytes s
    | _, _ => '%'.toUInt8 :: decodeBytes (a :: b :: s)
  | c :: s => (String.singleton c).toUTF8.toList ++ decodeBytes s

/-- The text that a name or a value stands for. -/
def decodeText (s : List Char) : String :=
  Text.ofUtf8 (decodeBytes s)

def decodePair (piece : List Char) : String × String :=
  match Text.cutAtFirst '=' piece with
  | some (name, value) => (decodeText name, decodeText value)
  | none => (decodeText piece, "")

def decode (s : List Char) : List (String × String) :=
  ((Text.pieces '&' s).filter fun piece => !piece.isEmpty).map decodePair

end Form
end Http
end NodeCoverage
