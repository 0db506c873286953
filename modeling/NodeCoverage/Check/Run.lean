import NodeCoverage.Hash.SipHash
import NodeCoverage.Text.Blank
import NodeCoverage.Text.Lowercase
/-!
# The identity of a run

A run is known by a base name, the identity of the process that makes it, and the second at which
it began. The workload it creates is named after all three. A name that would be too long is cut
and gets a hash of the whole in front of the time, which is always kept.
-/

namespace NodeCoverage

structure Run where
  base : String
  /-- Identity of the process, normally the name of its pod. -/
  host : String
  /-- The second at which the run began; later runs have greater ones. -/
  timestamp : Int
deriving DecidableEq

namespace Run

def maxNameLength : Nat := 63

/-- A hash of the text: the lower half of the hash of its bytes followed by one byte with all bits
set. -/
def digest (s : String) : UInt32 :=
  (SipHash.hash (s.toUTF8.toList ++ [0xff])).toUInt32

/-- A digest in eight hexadecimal digits. -/
def spell (digest : UInt32) : String :=
  let ds := Nat.toDigits 16 digest.toNat
  String.ofList (List.replicate (8 - ds.length) '0' ++ ds)

def stem (r : Run) : String :=
  r.base ++ "-" ++ r.host

def fullName (r : Run) : String :=
  r.stem ++ "-" ++ toString r.timestamp

/-- Removes hyphens and dots at the end. -/
def trimJoints (s : List Char) : List Char :=
  (s.reverse.dropWhile fun c => c = '-' ∨ c = '.').reverse

def shortSuffix (r : Run) (digest : UInt32) : String :=
  spell digest ++ "-" ++ toString r.timestamp

/-- The beginning of a name that was cut: as many characters as there is room for bytes. -/
def shortHead (r : Run) (digest : UInt32) : List Char :=
  trimJoints (r.stem.toList.take (maxNameLength - ((r.shortSuffix digest).utf8ByteSize + 1)))

/-- The name of the run, with the digest that is used if the full name is too long. -/
def nameWith (r : Run) (digest : UInt32) : String :=
  if r.fullName.utf8ByteSize ≤ maxNameLength then r.fullName
  else if (r.shortHead digest).isEmpty then r.shortSuffix digest
  else String.ofList (r.shortHead digest) ++ "-" ++ r.shortSuffix digest

def workloadName (r : Run) : String :=
  r.nameWith (digest r.fullName)

/-- The identity of a process whose host has no name. -/
def defaultHost : String := "kuberhealthy"

def hostIdentity (hostname : Option String) : String :=
  match hostname with
  | none => defaultHost
  | some h => if Text.blank h then defaultHost else Text.lowercase (Text.trim h)

end Run
end NodeCoverage
