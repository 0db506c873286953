import Mathlib.Algebra.Order.Ring.Rat
import Mathlib.Data.Nat.Cast.Order.Ring
import Mathlib.Tactic
import NodeCoverage.Number.Binary64
/-!
# How far rounding is off

A quotient and the integer nearest to it differ by at most a half, and a greater quotient has no
smaller nearest integer. Hence a number and the nearest one with 53 significant bits differ by at
most a half of the last bit that is kept: by one part in `2 ^ 53`, and by `2 ^ (k - 54)` below
`2 ^ k`. Integers up to `2 ^ 53` are kept as they are.
-/

namespace NodeCoverage
namespace Number

section Nearest

variable {n d m e : Nat}

theorem abs_nearest_sub_le (n : Nat) (hd : 0 < d) : |(nearest n d : ℚ) - n / d| ≤ 1 / 2 := by
  have hdq : (0 : ℚ) < d := by exact_mod_cast hd
  have hlow : (2 * n : ℚ) ≤ 2 * (nearest n d * d) + d := by
    exact_mod_cast two_mul_le_of_nearest n hd
  have hhigh : (2 * (nearest n d * d) : ℚ) ≤ 2 * n + d := by exact_mod_cast nearest_mul_le n hd
  have hge : (n / d : ℚ) ≤ nearest n d + 1 / 2 := by
    rw [div_le_iff₀ hdq]
    linarith
  have hle : (nearest n d - 1 / 2 : ℚ) ≤ n / d := by
    rw [le_div_iff₀ hdq]
    linarith
  rw [abs_le]
  constructor <;> linarith

/-- Of two quotients the greater one has no smaller nearest integer. -/
theorem nearest_le_of_lt (hd : 0 < d) (he : 0 < e) (h : (n / d : ℚ) < m / e) :
    nearest n d ≤ nearest m e := by
  have hn := (abs_le.mp (abs_nearest_sub_le n hd)).2
  have hm := (abs_le.mp (abs_nearest_sub_le m he)).1
  have hlt : (nearest n d : ℚ) < nearest m e + 1 := by linarith
  exact Nat.lt_succ_iff.mp (by exact_mod_cast hlt)

theorem nearest_le_of_le (hd : 0 < d) (h : (n / d : ℚ) ≤ m) : nearest n d ≤ m := by
  have hn := (abs_le.mp (abs_nearest_sub_le n hd)).2
  have hlt : (nearest n d : ℚ) < m + 1 := by linarith
  exact Nat.lt_succ_iff.mp (by exact_mod_cast hlt)

theorem le_nearest_of_le (hd : 0 < d) (h : (m : ℚ) ≤ n / d) : m ≤ nearest n d := by
  have hn := (abs_le.mp (abs_nearest_sub_le n hd)).1
  have hlt : (m : ℚ) < nearest n d + 1 := by linarith
  exact Nat.lt_succ_iff.mp (by exact_mod_cast hlt)

theorem nearest_eq_of_abs_lt (hd : 0 < d) (h : |(n / d : ℚ) - m| < 1 / 2) : nearest n d = m := by
  have hn := abs_le.mp (abs_nearest_sub_le n hd)
  have hm := abs_lt.mp h
  have hlt : (nearest n d : ℚ) < m + 1 := by linarith
  have hgt : (m : ℚ) < nearest n d + 1 := by linarith
  have hle : nearest n d < m + 1 := by exact_mod_cast hlt
  have hge : m < nearest n d + 1 := by exact_mod_cast hgt
  omega

end Nearest

namespace Binary64

variable {n d : Nat}

theorem two_zpow_mul_le_iff {e : Int} : (2 : ℚ) ^ e * d ≤ n ↔
    if 0 ≤ e then d * Nat.pow 2 e.toNat ≤ n else d ≤ n * Nat.pow 2 (-e).toNat := by
  split
  · next he =>
    have hpow : (2 : ℚ) ^ e = 2 ^ e.toNat := by rw [← zpow_natCast, Int.toNat_of_nonneg he]
    rw [hpow, mul_comm]
    exact_mod_cast Iff.rfl
  · next he =>
    have hpow : (2 : ℚ) ^ e = (2 ^ (-e).toNat)⁻¹ := by
      rw [← zpow_natCast, Int.toNat_of_nonneg (by omega), zpow_neg, inv_inv]
    rw [hpow, inv_mul_le_iff₀ (by positivity), mul_comm]
    exact_mod_cast Iff.rfl

theorem exponent_cases (n d : Nat) :
    (2 : ℚ) ^ ((n.log2 : Int) - d.log2) * d ≤ n ∧ exponent n d = n.log2 - d.log2 ∨
      n < (2 : ℚ) ^ ((n.log2 : Int) - d.log2) * d ∧ exponent n d = n.log2 - d.log2 - 1 := by
  by_cases h : (2 : ℚ) ^ ((n.log2 : Int) - d.log2) * d ≤ n
  · exact .inl ⟨h, if_pos (two_zpow_mul_le_iff.mp h)⟩
  · exact .inr ⟨not_le.mp h, if_neg fun hreached => h (two_zpow_mul_le_iff.mpr hreached)⟩

theorem two_zpow_exponent_le (hn : 0 < n) (hd : 0 < d) : (2 : ℚ) ^ exponent n d ≤ n / d := by
  have hdq : (0 : ℚ) < d := by exact_mod_cast hd
  rw [le_div_iff₀ hdq]
  rcases exponent_cases n d with ⟨hle, he⟩ | ⟨-, he⟩
  · rwa [he]
  · have hdlt : (d : ℚ) ≤ 2 ^ ((d.log2 : Int) + 1) := by
      exact_mod_cast Nat.lt_log2_self.le
    have hnge : (2 : ℚ) ^ (n.log2 : Int) ≤ n := by
      exact_mod_cast Nat.log2_self_le hn.ne'
    calc (2 : ℚ) ^ exponent n d * d
        ≤ 2 ^ exponent n d * 2 ^ ((d.log2 : Int) + 1) := by gcongr
      _ = 2 ^ (n.log2 : Int) := by
        rw [← zpow_add₀ two_ne_zero, he]
        congr 1
        omega
      _ ≤ n := hnge

theorem lt_two_zpow_exponent (n : Nat) (hd : 0 < d) :
    (n / d : ℚ) < 2 ^ (exponent n d + 1) := by
  have hdq : (0 : ℚ) < d := by exact_mod_cast hd
  rw [div_lt_iff₀ hdq]
  rcases exponent_cases n d with ⟨-, he⟩ | ⟨hlt, he⟩
  · have hnlt : (n : ℚ) < 2 ^ ((n.log2 : Int) + 1) := by exact_mod_cast Nat.lt_log2_self
    have hdge : (2 : ℚ) ^ (d.log2 : Int) ≤ d := by exact_mod_cast Nat.log2_self_le hd.ne'
    calc (n : ℚ) < 2 ^ ((n.log2 : Int) + 1) := hnlt
      _ = 2 ^ (exponent n d + 1) * 2 ^ (d.log2 : Int) := by
        rw [← zpow_add₀ two_ne_zero, he]
        congr 1
        omega
      _ ≤ 2 ^ (exponent n d + 1) * d := by gcongr
  · rwa [he, sub_add_cancel]

theorem roundQuotient_nonneg (n d : Nat) : 0 ≤ roundQuotient n d := by
  unfold roundQuotient
  dsimp only
  split
  · exact Nat.cast_nonneg _
  · exact Rat.mkRat_nonneg (Int.natCast_nonneg _) _

theorem abs_mul_sub_mul_le {x y u : ℚ} (hu : 0 < u) (h : |x - y| ≤ 1 / 2) :
    |x * u - y * u| ≤ u / 2 := by
  rw [← sub_mul, abs_mul, abs_of_pos hu]
  linarith [mul_le_mul_of_nonneg_right h hu.le]

theorem roundQuotient_eq (n : Nat) (hd : 0 < d) : ∃ m e : Nat, 0 < e ∧
    (n / d : ℚ) = m / e * 2 ^ lastBit n d ∧
      roundQuotient n d = nearest m e * 2 ^ lastBit n d := by
  have hdq : (d : ℚ) ≠ 0 := by exact_mod_cast hd.ne'
  unfold roundQuotient
  dsimp only
  generalize lastBit n d = q
  split
  · next hq =>
    have hpow : (2 : ℚ) ^ q = Nat.pow 2 q.toNat := by
      rw [← Int.toNat_of_nonneg hq, zpow_natCast, Int.toNat_natCast]
      norm_cast
    refine ⟨n, d * Nat.pow 2 q.toNat, Nat.mul_pos hd (Nat.pow_pos Nat.two_pos), ?_, ?_⟩
    · rw [Nat.cast_mul, ← hpow]
      field_simp
    · rw [Nat.cast_mul, ← hpow]
  · next hq =>
    have hpow : (2 : ℚ) ^ (-q) = Nat.pow 2 (-q).toNat := by
      rw [← Int.toNat_of_nonneg (show 0 ≤ -q by omega), zpow_natCast, Int.toNat_natCast]
      norm_cast
    refine ⟨n * Nat.pow 2 (-q).toNat, d, hd, ?_, ?_⟩
    · rw [Nat.cast_mul, ← hpow, zpow_neg]
      field_simp
    · rw [Rat.mkRat_eq_div, ← hpow, zpow_neg]
      field_simp
      norm_cast

/-- What is kept differs from the quotient by at most a half of the last bit. -/
theorem abs_roundQuotient_sub_le (n : Nat) (hd : 0 < d) :
    |roundQuotient n d - n / d| ≤ (2 : ℚ) ^ lastBit n d / 2 := by
  obtain ⟨m, e, he, hquotient, hrounded⟩ := roundQuotient_eq n hd
  rw [hquotient, hrounded]
  exact abs_mul_sub_mul_le (by positivity) (abs_nearest_sub_le m he)

/-! ### Numbers that are not negative -/

section Nonneg

variable {x : ℚ}

theorem round_of_pos (hx : 0 < x) : round x = roundQuotient x.num.natAbs x.den := by
  have hnum : 0 < x.num := Rat.num_pos.mpr hx
  rw [round, if_neg hnum.ne', if_pos hnum]

theorem round_nonneg (hx : 0 ≤ x) : 0 ≤ round x := by
  rcases hx.eq_or_lt with rfl | hx
  · exact le_rfl
  · rw [round_of_pos hx]
    exact roundQuotient_nonneg ..

theorem natAbs_num_div_den (hx : 0 ≤ x) : (x.num.natAbs / x.den : ℚ) = x := by
  rw [Nat.cast_natAbs, abs_of_nonneg (Rat.num_nonneg.mpr hx), Rat.num_div_den]

theorem lastBit_le_of_lt {k : Int} (hx : 0 < x) (hk : -1021 ≤ k) (h : x < 2 ^ k) :
    lastBit x.num.natAbs x.den ≤ k - 53 := by
  have hnum : 0 < x.num.natAbs := Int.natAbs_pos.mpr (Rat.num_pos.mpr hx).ne'
  have hexp := two_zpow_exponent_le hnum x.den_pos
  rw [natAbs_num_div_den hx.le] at hexp
  have hlt : exponent x.num.natAbs x.den < k :=
    (zpow_lt_zpow_iff_right₀ one_lt_two).mp (hexp.trans_lt h)
  unfold lastBit
  omega

theorem abs_round_sub_le (hx : 0 < x) :
    |round x - x| ≤ 2 ^ lastBit x.num.natAbs x.den / 2 := by
  have hround := abs_roundQuotient_sub_le x.num.natAbs x.den_pos
  rwa [natAbs_num_div_den hx.le, ← round_of_pos hx] at hround

theorem abs_round_sub_le_of_lt {k : Int} (hx : 0 ≤ x) (hk : -1021 ≤ k) (h : x < 2 ^ k) :
    |round x - x| ≤ 2 ^ (k - 54) := by
  rcases hx.eq_or_lt with rfl | hx
  · have hzero : round 0 = 0 := rfl
    rw [hzero, sub_zero, abs_zero]
    positivity
  · calc |round x - x| ≤ 2 ^ lastBit x.num.natAbs x.den / 2 := abs_round_sub_le hx
      _ ≤ 2 ^ (k - 53) / 2 := by
        gcongr
        · exact one_le_two
        · exact lastBit_le_of_lt hx hk h
      _ = 2 ^ (k - 54) := by
        rw [show k - 53 = k - 54 + 1 by omega, zpow_add_one₀ two_ne_zero]
        ring

/-- What is lost of a number that is not too small is at most one part in `2 ^ 53`. -/
theorem abs_round_sub_le_div (h : x = 0 ∨ 2 ^ (-1022 : Int) ≤ x) : |round x - x| ≤ x / 2 ^ 53 := by
  rcases h with rfl | hx
  · have hzero : round 0 = 0 := rfl
    rw [hzero, sub_zero, abs_zero, zero_div]
  have hpos : 0 < x := lt_of_lt_of_le (by positivity) hx
  have hnum : 0 < x.num.natAbs := Int.natAbs_pos.mpr (Rat.num_pos.mpr hpos).ne'
  have hexp := two_zpow_exponent_le hnum x.den_pos
  rw [natAbs_num_div_den hpos.le] at hexp
  have hshift (q : Int) : (2 : ℚ) ^ q * 2 ^ 52 = 2 ^ (q + 52) := by
    rw [zpow_add₀ two_ne_zero]
    rfl
  have hbit : (2 : ℚ) ^ lastBit x.num.natAbs x.den ≤ x / 2 ^ 52 := by
    rw [le_div_iff₀ (by positivity), hshift, lastBit]
    rcases max_choice (exponent x.num.natAbs x.den - 52) (-1074) with hmax | hmax
    · rwa [hmax, sub_add_cancel]
    · rwa [hmax]
  calc |round x - x| ≤ 2 ^ lastBit x.num.natAbs x.den / 2 := abs_round_sub_le hpos
    _ ≤ x / 2 ^ 52 / 2 := by gcongr
    _ = x / 2 ^ 53 := by ring

/-- Integers that have no more than 53 bits are kept. -/
theorem round_natCast {n : Nat} (h : n < 2 ^ 53) : round n = n := by
  rcases Nat.eq_zero_or_pos n with rfl | hn
  · rfl
  have hpos : (0 : ℚ) < n := by exact_mod_cast hn
  have hlt : (n : ℚ) < 2 ^ (53 : Int) := by exact_mod_cast h
  have hbit := lastBit_le_of_lt hpos (by decide) hlt
  have hround := round_of_pos hpos
  rw [Rat.num_natCast, Rat.den_natCast, Int.natAbs_natCast] at hbit hround
  rw [hround, roundQuotient]
  generalize lastBit n 1 = q at *
  have hone (m : Nat) : nearest m 1 = m := by simpa using nearest_mul_self m Nat.one_pos
  dsimp only
  split
  · next hq =>
    obtain rfl : q = 0 := le_antisymm hbit hq
    rw [show Nat.pow 2 (Int.toNat 0) = 1 from rfl, Nat.mul_one, Nat.mul_one, hone]
  · rw [hone, Rat.mkRat_eq_div]
    have hunits : (Nat.pow 2 (-q).toNat : ℚ) ≠ 0 := by simp
    push_cast
    field_simp

theorem two_zpow_le_round (hx : 0 < x) {q : Int} (hq : lastBit x.num.natAbs x.den = q)
    (h : (2 : ℚ) ^ (q + 52) ≤ x) : 2 ^ (q + 52) ≤ round x := by
  have hshift : (2 : ℚ) ^ (q + 52) = (2 ^ 52 : Nat) * 2 ^ q := by
    rw [zpow_add₀ two_ne_zero, mul_comm]
    norm_num
  obtain ⟨m, e, he, hquotient, hrounded⟩ := roundQuotient_eq x.num.natAbs x.den_pos
  rw [natAbs_num_div_den hx.le, hq] at hquotient
  rw [round_of_pos hx, hrounded, hq]
  rw [hshift] at h ⊢
  rw [hquotient] at h
  gcongr
  exact le_nearest_of_le he (le_of_mul_le_mul_right h (by positivity))

theorem round_le_two_zpow (hx : 0 < x) {k : Int} (hk : lastBit x.num.natAbs x.den ≤ k)
    (h : x ≤ 2 ^ k) : round x ≤ 2 ^ k := by
  obtain ⟨m, e, he, hquotient, hrounded⟩ := roundQuotient_eq x.num.natAbs x.den_pos
  rw [natAbs_num_div_den hx.le] at hquotient
  rw [round_of_pos hx, hrounded]
  generalize lastBit x.num.natAbs x.den = q at *
  have hshift : (2 : ℚ) ^ k = (2 ^ (k - q).toNat : Nat) * 2 ^ q := by
    rw [Nat.cast_pow, Nat.cast_ofNat, ← zpow_natCast, Int.toNat_of_nonneg (by omega),
      ← zpow_add₀ two_ne_zero, sub_add_cancel]
  rw [hshift] at h ⊢
  rw [hquotient] at h
  gcongr
  exact nearest_le_of_le he (le_of_mul_le_mul_right h (by positivity))

theorem round_mono {y : ℚ} (hx : 0 ≤ x) (h : x ≤ y) : round x ≤ round y := by
  rcases hx.eq_or_lt with rfl | hx
  · exact round_nonneg h
  rcases h.eq_or_lt with rfl | hlt
  · exact le_rfl
  have hy := hx.trans hlt
  have hnum {z : ℚ} (hz : 0 < z) : 0 < z.num.natAbs :=
    Int.natAbs_pos.mpr (Rat.num_pos.mpr hz).ne'
  have hxlow := two_zpow_exponent_le (hnum hx) x.den_pos
  have hylow := two_zpow_exponent_le (hnum hy) y.den_pos
  have hxhigh := lt_two_zpow_exponent x.num.natAbs x.den_pos
  have hyhigh := lt_two_zpow_exponent y.num.natAbs y.den_pos
  rw [natAbs_num_div_den hx.le] at hxlow hxhigh
  rw [natAbs_num_div_den hy.le] at hylow hyhigh
  have hexp : exponent x.num.natAbs x.den < exponent y.num.natAbs y.den + 1 :=
    (zpow_lt_zpow_iff_right₀ one_lt_two).mp (hxlow.trans_lt (hlt.trans hyhigh))
  by_cases hbit : lastBit x.num.natAbs x.den = lastBit y.num.natAbs y.den
  · -- in units of one last bit, the greater number has no smaller nearest integer
    obtain ⟨m, e, he, hxm, hxround⟩ := roundQuotient_eq x.num.natAbs x.den_pos
    obtain ⟨m', e', he', hym, hyround⟩ := roundQuotient_eq y.num.natAbs y.den_pos
    rw [natAbs_num_div_den hx.le] at hxm
    rw [natAbs_num_div_den hy.le, ← hbit] at hym
    rw [round_of_pos hx, round_of_pos hy, hxround, hyround, ← hbit]
    rw [hxm, hym] at hlt
    gcongr
    exact nearest_le_of_lt he he' (lt_of_mul_lt_mul_right hlt (by positivity))
  · -- there is a power of two between the numbers
    have hbetween : exponent x.num.natAbs x.den + 1 ≤ exponent y.num.natAbs y.den ∧
        lastBit y.num.natAbs y.den = exponent y.num.natAbs y.den - 52 ∧
        lastBit x.num.natAbs x.den ≤ exponent y.num.natAbs y.den := by
      unfold lastBit at *
      omega
    obtain ⟨hless, hlast, hle⟩ := hbetween
    have hpow : (2 : ℚ) ^ (exponent x.num.natAbs x.den + 1) ≤ 2 ^ exponent y.num.natAbs y.den :=
      zpow_le_zpow_right₀ one_le_two hless
    refine (round_le_two_zpow hx hle (hxhigh.le.trans hpow)).trans ?_
    have hround := two_zpow_le_round hy hlast
    rw [sub_add_cancel] at hround
    exact hround hylow

end Nonneg

end Binary64
end Number
end NodeCoverage
