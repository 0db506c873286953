/-!
# Reading UTF-8

Bytes are read as characters one after the other. Bytes that are no character do not end the
reading: the beginning of a character that is broken off, and any other byte that does not belong,
is read as the replacement character. Bytes of ASCII are read as themselves: `decode_ascii`.
-/

namespace NodeCoverage
namespace Text
namespace Utf8

def replacement : Char := '\ufffd'

/-- A character that has begun: the bits read so far, how many bytes are missing, and the least and
the greatest value of the next one. -/
structure Unfinished where
  bits : Nat
  missing : Nat
  least : Nat
  greatest : Nat
deriving DecidableEq

/-- The first byte of a character: what is read already, and what has begun. Second bytes that would
make a character longer than it must be, a surrogate, or too great, are left out. -/
def first (b : UInt8) : List Char × Option Unfinished :=
  let n := b.toNat
  if n < 0x80 then ([Char.ofNat n], none)
  else if 0xC2 ≤ n ∧ n ≤ 0xDF then ([], some ⟨n % 32, 1, 0x80, 0xBF⟩)
  else if 0xE0 ≤ n ∧ n ≤ 0xEF then
    ([], some ⟨n % 16, 2, if n = 0xE0 then 0xA0 else 0x80, if n = 0xED then 0x9F else 0xBF⟩)
  else if 0xF0 ≤ n ∧ n ≤ 0xF4 then
    ([], some ⟨n % 8, 3, if n = 0xF0 then 0x90 else 0x80, if n = 0xF4 then 0x8F else 0xBF⟩)
  else ([replacement], none)

def step (u : Option Unfinished) (b : UInt8) : List Char × Option Unfinished :=
  match u with
  | none => first b
  | some u =>
    if u.least ≤ b.toNat ∧ b.toNat ≤ u.greatest then
      let bits := u.bits * 64 + b.toNat % 64
      if u.missing ≤ 1 then ([Char.ofNat bits], none)
      else ([], some ⟨bits, u.missing - 1, 0x80, 0xBF⟩)
    else
      let (read, next) := first b
      (replacement :: read, next)

def decodeFrom (u : Option Unfinished) : List UInt8 → List Char
  | [] => if u.isSome then [replacement] else []
  | b :: bs =>
    let (read, next) := step u b
    read ++ decodeFrom next bs

theorem decode_ascii {bs : List UInt8} (h : ∀ b ∈ bs, b.toNat < 0x80) :
    decodeFrom none bs = bs.map fun b => Char.ofNat b.toNat := by
  induction bs with
  | nil => rfl
  | cons b bs ih =>
    have hb := h b (by simp)
    have hbs := ih fun d hd => h d (by simp [hd])
    simp [decodeFrom, step, first, hb, hbs]

end Utf8

def ofUtf8 (bytes : List UInt8) : String :=
  String.ofList (Utf8.decodeFrom none bytes)

end Text
end NodeCoverage
