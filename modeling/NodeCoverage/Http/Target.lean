import NodeCoverage.Http.Form
/-!
# Targets of requests

A target is a path, a query behind the first question mark, and a fragment behind the first number
sign, which is not sent. Only some of the ASCII characters may stand in a path or in a query, and a
target must not be too long.
-/

namespace NodeCoverage
namespace Http

structure Target where
  path : String
  query : List (String × String)
deriving DecidableEq

namespace Target

/-- The greatest length of a target, in bytes. -/
def maxLength : Nat := 65534

/-- The part before the first `mark`, and what follows it. -/
def cut (mark : Char) (s : List Char) : List Char × List Char :=
  (Text.cutAtFirst mark s).getD (s, [])

/-- The signs and digits that may stand anywhere. -/
def isCommonChar (c : Char) : Bool :=
  c = '!' || ('$' ≤ c && c ≤ ';') || c = '='

def isPathChar (c : Char) : Bool :=
  isCommonChar c || c = '"' || ('@' ≤ c && c.toNat ≠ 0x60 && c.toNat ≠ 0x7F)

def isQueryChar (c : Char) : Bool :=
  isCommonChar c || ('?' ≤ c && c.toNat ≠ 0x7F)

def ofText? (s : List Char) : Option Target :=
  let (sent, _) := cut '#' s
  let (path, query) := cut '?' sent
  if (String.ofList s).utf8ByteSize ≤ maxLength && path.all isPathChar && query.all isQueryChar
  then some ⟨String.ofList path, Form.decode query⟩
  else none

end Target
end Http
end NodeCoverage
