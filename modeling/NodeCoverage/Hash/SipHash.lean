/-!
# SipHash

A hash of 64 bits over a sequence of bytes, with one round for each block of eight bytes, three
rounds at the end, and zero for both keys. The last block ends in the length of the sequence.
-/

namespace NodeCoverage
namespace SipHash

structure State where
  v0 : UInt64
  v1 : UInt64
  v2 : UInt64
  v3 : UInt64

/-- A rotation to the left by `0 < n < 64` bits. -/
def rotate (x : UInt64) (n : UInt64) : UInt64 :=
  (x <<< n) ||| (x >>> (64 - n))

def initial : State where
  v0 := 0x736f6d6570736575
  v1 := 0x646f72616e646f6d
  v2 := 0x6c7967656e657261
  v3 := 0x7465646279746573

def round (s : State) : State :=
  let v0 := s.v0 + s.v1
  let v1 := rotate s.v1 13 ^^^ v0
  let v0 := rotate v0 32
  let v2 := s.v2 + s.v3
  let v3 := rotate s.v3 16 ^^^ v2
  let v0 := v0 + v3
  let v3 := rotate v3 21 ^^^ v0
  let v2 := v2 + v1
  let v1 := rotate v1 17 ^^^ v2
  let v2 := rotate v2 32
  ⟨v0, v1, v2, v3⟩

def absorb (s : State) (m : UInt64) : State :=
  let s := round { s with v3 := s.v3 ^^^ m }
  { s with v0 := s.v0 ^^^ m }

/-- Takes in the bytes in blocks of eight, the first byte of a block being its lowest. `count` bytes
of the block `word` are there already. -/
def absorbBytes (s : State) (word : UInt64) (count length : Nat) : List UInt8 → State × UInt64
  | [] => (s, word ||| (UInt64.ofNat length <<< 56))
  | b :: bs =>
    let word := word ||| (b.toUInt64 <<< UInt64.ofNat (8 * count))
    if count = 7 then absorbBytes (absorb s word) 0 0 (length + 1) bs
    else absorbBytes s word (count + 1) (length + 1) bs

def hash (bytes : List UInt8) : UInt64 :=
  let (s, last) := absorbBytes initial 0 0 0 bytes
  let s := absorb s last
  let s := round (round (round { s with v2 := s.v2 ^^^ 0xff }))
  s.v0 ^^^ s.v1 ^^^ s.v2 ^^^ s.v3

end SipHash
end NodeCoverage
