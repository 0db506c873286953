/-!
# Runs of decimal digits

The number that a run of the digits `0` to `9` denotes. Writing a run behind another shifts the
number of the first one to the left: `ofDigits_append`.
-/

namespace NodeCoverage
namespace Text

def digitValue (c : Char) : Nat :=
  c.toNat - '0'.toNat

/-- The number that a run of digits denotes. -/
def ofDigits (ds : List Char) : Nat :=
  ds.foldl (fun n c => 10 * n + digitValue c) 0

private theorem foldl_digits (ds : List Char) (n : Nat) :
    ds.foldl (fun n c => 10 * n + digitValue c) n
      = n * Nat.pow 10 ds.length + ofDigits ds := by
  unfold ofDigits
  induction ds generalizing n with
  | nil => exact (Nat.mul_one n).symm
  | cons c ds ih =>
    have step : Nat.pow 10 (c :: ds).length = 10 * Nat.pow 10 ds.length := Nat.mul_comm _ _
    simp only [List.foldl_cons]
    rw [ih (10 * n + digitValue c), ih (10 * 0 + digitValue c), step, Nat.add_mul,
      Nat.mul_zero, Nat.zero_add, Nat.mul_comm 10 n, Nat.mul_assoc, Nat.add_assoc]

/-- A run in front of another is multiplied by ten for each digit of the other. -/
theorem ofDigits_append (ds es : List Char) :
    ofDigits (ds ++ es) = ofDigits ds * Nat.pow 10 es.length + ofDigits es := by
  unfold ofDigits
  rw [List.foldl_append, foldl_digits es]
  rfl

end Text
end NodeCoverage
