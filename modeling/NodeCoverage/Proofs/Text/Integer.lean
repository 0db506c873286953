import NodeCoverage.Text.Integer
/-!
# Integers are read as they are written

A number in decimal notation is read back, as long as it lies in the range that is asked for, and
nothing else can be read.
-/

namespace NodeCoverage
namespace Text

theorem digitValue?_of_isDigit {c : Char} (h : c.isDigit = true) :
    digitValue? c = some (c.toNat - '0'.toNat) := by
  have h : '0' ≤ c ∧ c ≤ '9' := by simpa [Char.isDigit, Char.le_def] using h
  simp [digitValue?, h]

theorem le_ofDigitChars (n : Nat) (s : List Char) : n ≤ Nat.ofDigitChars 10 s n := by
  induction s generalizing n with
  | nil => simp
  | cons c s ih =>
    rw [Nat.ofDigitChars_cons]
    exact Nat.le_trans (by omega) (ih _)

/-- Digits are read to their end if the number they extend stays in the range. -/
theorem readMagnitude_eq {limit n : Nat} {beyond : IntegerFault} {s : List Char}
    (hs : ∀ c ∈ s, c.isDigit = true) (h : Nat.ofDigitChars 10 s n ≤ limit) :
    readMagnitude limit beyond n s = .ok (Nat.ofDigitChars 10 s n) := by
  induction s generalizing n with
  | nil => rfl
  | cons c s ih =>
    rw [Nat.ofDigitChars_cons] at h ⊢
    have hc : digitValue? c = some (c.toNat - '0'.toNat) :=
      digitValue?_of_isDigit (hs c (by simp))
    have hle := Nat.le_trans (le_ofDigitChars _ s) h
    simp only [readMagnitude, hc]
    rw [if_pos hle]
    exact ih (fun d hd => hs d (by simp [hd])) h

theorem readDigits_toDigits {limit n : Nat} {beyond : IntegerFault} (h : n ≤ limit) :
    readDigits limit beyond (Nat.toDigits 10 n) = .ok n := by
  have hdigits : ∀ c ∈ Nat.toDigits 10 n, c.isDigit = true := fun c hc =>
    Nat.isDigit_of_mem_toDigits (by omega) (by omega) hc
  have hne : (Nat.toDigits 10 n).isEmpty = false := by simp
  rw [readDigits, hne, if_neg (by simp),
    readMagnitude_eq hdigits (by rwa [Nat.ofDigitChars_ten_toDigits]),
    Nat.ofDigitChars_ten_toDigits]

theorem readInteger_of_isDigit {below above : Nat} {s : List Char}
    (hs : ∀ c ∈ s, c.isDigit = true) (hne : s ≠ []) :
    readInteger below above s = Int.ofNat <$> readDigits above .tooLarge s := by
  cases s with
  | nil => exact absurd rfl hne
  | cons c s =>
    have hc : c.isDigit = true := hs c (by simp)
    have hplus : c ≠ '+' := by rintro rfl; simp at hc
    have hminus : c ≠ '-' := by rintro rfl; simp at hc
    unfold readInteger
    split <;> simp_all

theorem exists_of_mem_toDigits {b n : Nat} {c : Char} (hb : 1 < b) (h : c ∈ Nat.toDigits b n) :
    ∃ d < b, c = d.digitChar := by
  induction n using Nat.strongRecOn with
  | ind n ih =>
    rw [Nat.toDigits_eq_if hb] at h
    split at h
    · next hn => exact ⟨n, hn, by simpa using h⟩
    · next hn =>
      rcases List.mem_append.mp h with h | h
      · exact ih (n / b) (Nat.div_lt_self (by omega) hb) h
      · exact ⟨n % b, Nat.mod_lt n (by omega), by simpa using h⟩

theorem toList_toString_natCast (n : Nat) : (toString (n : Int)).toList = Nat.toDigits 10 n := by
  simp [Int.toString_eq_repr, Int.repr_eq_if]

theorem toList_toString_negSucc (n : Nat) :
    (toString (Int.negSucc n)).toList = '-' :: Nat.toDigits 10 (n + 1) := by
  simp [Int.toString_eq_repr, Int.repr_eq_if]

theorem hyphen_not_mem_toString {i : Int} (hi : 0 ≤ i) : '-' ∉ (toString i).toList := by
  obtain ⟨n, rfl⟩ := Int.eq_ofNat_of_zero_le hi
  intro hmem
  rw [toList_toString_natCast] at hmem
  have hdigit := Nat.isDigit_of_mem_toDigits (by omega) (by omega) hmem
  revert hdigit
  decide

theorem length_toString_le {i : Int} (hl : -(Nat.pow 2 63 : Nat) ≤ i)
    (hu : i < (Nat.pow 2 63 : Nat)) : (toString i).length ≤ 20 := by
  have hdigits {n : Nat} (hn : n < 10 ^ 19) : (Nat.toDigits 10 n).length ≤ 19 :=
    (Nat.length_toDigits_le_iff (by omega) (by omega)).mpr hn
  simp only [Nat.pow_eq] at hl hu
  rw [← String.length_toList]
  cases i with
  | ofNat n =>
    rw [Int.ofNat_eq_natCast, toList_toString_natCast]
    rw [Int.ofNat_eq_natCast] at hu
    have := hdigits (show n < 10 ^ 19 by omega)
    omega
  | negSucc n =>
    rw [Int.negSucc_eq] at hl
    rw [toList_toString_negSucc, List.length_cons]
    have := hdigits (show n + 1 < 10 ^ 19 by omega)
    omega

/-- A number without a sign is told from one with a sign by its first digit. -/
theorem readInteger_toString {below above : Nat} {i : Int} (hl : -(below : Int) ≤ i)
    (hu : i ≤ above) : readInteger below above (toString i).toList = .ok i := by
  cases i with
  | ofNat n =>
    have hn : n ≤ above := by simpa using hu
    rw [Int.ofNat_eq_natCast, toList_toString_natCast, readInteger_of_isDigit (fun c hc =>
      Nat.isDigit_of_mem_toDigits (by omega) (by omega) hc) Nat.toDigits_ne_nil,
      readDigits_toDigits hn]
    rfl
  | negSucc n =>
    have hn : n + 1 ≤ below := by
      rw [Int.negSucc_eq] at hl
      omega
    rw [toList_toString_negSucc, readInteger, readDigits_toDigits hn]
    rfl

theorem readInt64_toString {i : Int} (hl : -(Nat.pow 2 63 : Nat) ≤ i)
    (hu : i < (Nat.pow 2 63 : Nat)) : readInt64 (toString i) = .ok i :=
  readInteger_toString hl (by simp only [Nat.pow_eq] at hu ⊢; omega)

/-! ### What can be read -/

/-- The text consists of digits, at least one, and they denote the number. -/
structure Numeral (s : List Char) (n : Nat) : Prop where
  ne_nil : s ≠ []
  isDigit : ∀ c ∈ s, c.isDigit = true
  value : Nat.ofDigitChars 10 s 0 = n

/-- An integer in decimal notation: a number, perhaps with a sign in front of it. -/
inductive Denotes : List Char → Int → Prop
  | unsigned {s : List Char} {n : Nat} : Numeral s n → Denotes s n
  | plus {s : List Char} {n : Nat} : Numeral s n → Denotes ('+' :: s) n
  | minus {s : List Char} {n : Nat} : Numeral s n → Denotes ('-' :: s) (-n)

theorem digitValue?_eq_some_iff {c : Char} {d : Nat} :
    digitValue? c = some d ↔ c.isDigit = true ∧ d = c.toNat - '0'.toNat := by
  constructor
  · intro h
    have hc : c.isDigit = true := by
      simp only [digitValue?, Option.ite_none_right_eq_some] at h
      simpa [Char.isDigit, Char.le_def] using h.1
    rw [digitValue?_of_isDigit hc] at h
    exact ⟨hc, (Option.some.inj h).symm⟩
  · rintro ⟨hc, rfl⟩
    exact digitValue?_of_isDigit hc

theorem digits_of_readMagnitude {limit n m : Nat} {beyond : IntegerFault} {s : List Char}
    (h : readMagnitude limit beyond n s = .ok m) :
    (∀ c ∈ s, c.isDigit = true) ∧ Nat.ofDigitChars 10 s n = m := by
  induction s generalizing n with
  | nil => exact ⟨nofun, by cases h; simp⟩
  | cons c s ih =>
    rw [readMagnitude] at h
    split at h
    · cases h
    · next d hd =>
      obtain ⟨hc, rfl⟩ := digitValue?_eq_some_iff.mp hd
      split at h
      · obtain ⟨hs, hvalue⟩ := ih h
        rw [Nat.ofDigitChars_cons]
        exact ⟨List.forall_mem_cons.mpr ⟨hc, hs⟩, hvalue⟩
      · cases h

theorem readDigits_eq_ok_iff {limit n : Nat} {beyond : IntegerFault} {s : List Char} :
    readDigits limit beyond s = .ok n ↔ Numeral s n ∧ n ≤ limit := by
  constructor
  · intro h
    refine ⟨?_, readDigits_le h⟩
    rw [readDigits] at h
    split at h
    · cases h
    · next hne =>
      obtain ⟨hs, hvalue⟩ := digits_of_readMagnitude h
      exact ⟨by simpa using hne, hs, hvalue⟩
  · rintro ⟨⟨hne, hs, rfl⟩, hn⟩
    rw [readDigits, if_neg (by simpa using hne)]
    exact readMagnitude_eq hs hn

/-- What can be read are the integers in decimal notation that lie in the range asked for. -/
theorem readInteger_eq_ok_iff {below above : Nat} {s : List Char} {i : Int} :
    readInteger below above s = .ok i ↔ Denotes s i ∧ -(below : Int) ≤ i ∧ i ≤ above := by
  constructor
  · intro h
    refine ⟨?_, readInteger_mem_range h⟩
    rw [readInteger.eq_def] at h
    split at h
    · cases h
    all_goals
      obtain ⟨n, hn, rfl⟩ := exists_of_map_eq_ok h
      have hnumeral := (readDigits_eq_ok_iff.mp hn).1
    · exact .plus hnumeral
    · exact .minus hnumeral
    · exact .unsigned hnumeral
  · rintro ⟨hs, hlow, hhigh⟩
    cases hs with
    | unsigned h =>
      rw [readInteger_of_isDigit h.isDigit h.ne_nil,
        readDigits_eq_ok_iff.mpr ⟨h, Int.ofNat_le.mp hhigh⟩]
      rfl
    | plus h =>
      rw [readInteger, readDigits_eq_ok_iff.mpr ⟨h, Int.ofNat_le.mp hhigh⟩]
      rfl
    | minus h =>
      rw [readInteger, readDigits_eq_ok_iff.mpr ⟨h, by omega⟩]
      rfl

theorem readInt64_eq_ok_iff {s : String} {i : Int} : readInt64 s = .ok i ↔
    Denotes s.toList i ∧ -(Nat.pow 2 63 : Nat) ≤ i ∧ i < (Nat.pow 2 63 : Nat) := by
  rw [readInt64, readInteger_eq_ok_iff]
  simp only [Nat.pow_eq]
  exact and_congr_right fun _ => and_congr_right fun _ => by omega

end Text
end NodeCoverage
