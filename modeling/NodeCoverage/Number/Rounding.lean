/-!
# Rounding to the nearest integer

A quotient is rounded to the nearest integer, and a quotient half-way between two integers to the
even one. The result is never more than a half away from the quotient.
-/

namespace NodeCoverage
namespace Number

/-- The integer nearest to `n / d`, the even one of two that are equally near. -/
def nearest (n d : Nat) : Nat :=
  let q := n / d
  let r := n % d
  if 2 * r < d then q
  else if d < 2 * r then q + 1
  else if q % 2 = 0 then q else q + 1

/-- The rounded value is at most a half below the quotient. -/
theorem two_mul_le_of_nearest (n : Nat) {d : Nat} (hd : 0 < d) :
    2 * n ≤ 2 * (nearest n d * d) + d := by
  have h := Nat.div_add_mod n d
  have hr := Nat.mod_lt n hd
  unfold nearest
  simp only
  generalize n / d = q at *
  generalize n % d = r at *
  have e : (q + 1) * d = q * d + d := Nat.succ_mul q d
  rw [Nat.mul_comm] at h
  split
  · omega
  · split
    · omega
    · split <;> omega

/-- The rounded value is at most a half above the quotient. -/
theorem nearest_mul_le (n : Nat) {d : Nat} (hd : 0 < d) :
    2 * (nearest n d * d) ≤ 2 * n + d := by
  have h := Nat.div_add_mod n d
  have hr := Nat.mod_lt n hd
  unfold nearest
  simp only
  generalize n / d = q at *
  generalize n % d = r at *
  have e : (q + 1) * d = q * d + d := Nat.succ_mul q d
  rw [Nat.mul_comm] at h
  split
  · omega
  · split
    · omega
    · split <;> omega

theorem nearest_mod_two_of_tie {n d : Nat} (h : 2 * (n % d) = d) : nearest n d % 2 = 0 := by
  unfold nearest
  simp only [h, Nat.lt_irrefl, if_false]
  split <;> omega

theorem nearest_mul_self (q : Nat) {d : Nat} (hd : 0 < d) : nearest (q * d) d = q := by
  unfold nearest
  simp [Nat.mul_div_cancel q hd, hd]

end Number
end NodeCoverage
