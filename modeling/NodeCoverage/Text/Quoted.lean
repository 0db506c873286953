import NodeCoverage.Text.Quoted.Table
/-!
# Quoted texts

A text is quoted by writing it between double quotes. A quote or a backslash inside is preceded by
a backslash, the null, tab, newline and return characters have escapes of one letter, and every
other character that does not show by itself is written as its code point in hexadecimal.
-/

namespace NodeCoverage
namespace Text
namespace Quoted

def isHidden (c : Char) : Bool :=
  c.toNat < 0x20 || hiddenRanges.any fun (first, last) => first ≤ c.toNat && c.toNat ≤ last

/-- The digits of a number in hexadecimal, in lower case and without leading zeros. -/
def hexadecimal (n : Nat) : List Char :=
  Nat.toDigits 16 n

/-- How one character is written between the quotes. -/
def encodeChar (c : Char) : List Char :=
  if c = '"' then ['\\', '"']
  else if c = '\\' then ['\\', '\\']
  else if c = '\n' then ['\\', 'n']
  else if c = '\t' then ['\\', 't']
  else if c = '\r' then ['\\', 'r']
  else if c = '\x00' then ['\\', '0']
  else if isHidden c then ['\\', 'u', '\x7b'] ++ hexadecimal c.toNat ++ ['\x7d']
  else [c]

/-- The characters of the quoted form, without the quotes around them. -/
def encode (s : List Char) : List Char :=
  s.flatMap encodeChar

end Quoted

/-- The text between quotes, with everything escaped that would not show. -/
def quoted (s : String) : String :=
  String.ofList ('"' :: (Quoted.encode s.toList ++ ['"']))

end Text
end NodeCoverage
