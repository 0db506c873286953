/-!
# Integers in decimal notation

An integer is written as an optional sign followed by at least one of the digits `0` to `9`, and
nothing else. Reading goes from left to right and stops at the first fault, so a character that is
no digit is not reported when the digits before it already left the range.
-/

namespace NodeCoverage
namespace Text

/-- Why a text is not an integer of the wanted range. -/
inductive IntegerFault where
  | empty
  | invalidDigit
  | tooLarge
  | tooSmall
deriving DecidableEq

namespace IntegerFault

def message : IntegerFault → String
  | empty => "cannot parse integer from empty string"
  | invalidDigit => "invalid digit found in string"
  | tooLarge => "number too large to fit in target type"
  | tooSmall => "number too small to fit in target type"

end IntegerFault

def digitValue? (c : Char) : Option Nat :=
  if '0' ≤ c ∧ c ≤ '9' then some (c.toNat - '0'.toNat) else none

/-- Extends the number read so far by more digits; `limit` is the largest magnitude allowed and
`beyond` the fault of a larger one. -/
def readMagnitude (limit : Nat) (beyond : IntegerFault) : Nat → List Char → Except IntegerFault Nat
  | n, [] => .ok n
  | n, c :: s =>
    match digitValue? c with
    | none => .error .invalidDigit
    | some d =>
      if 10 * n + d ≤ limit then readMagnitude limit beyond (10 * n + d) s else .error beyond

/-- A magnitude needs at least one digit. -/
def readDigits (limit : Nat) (beyond : IntegerFault) (s : List Char) : Except IntegerFault Nat :=
  if s.isEmpty then .error .invalidDigit else readMagnitude limit beyond 0 s

/-- Reads an integer between `-below` and `above`. -/
def readInteger (below above : Nat) : List Char → Except IntegerFault Int
  | [] => .error .empty
  | '+' :: s => Int.ofNat <$> readDigits above .tooLarge s
  | '-' :: s => (fun n => -Int.ofNat n) <$> readDigits below .tooSmall s
  | s => Int.ofNat <$> readDigits above .tooLarge s

def readInt64 (s : String) : Except IntegerFault Int :=
  readInteger (Nat.pow 2 63) (Nat.pow 2 63 - 1) s.toList

theorem readMagnitude_le {limit n m : Nat} {beyond : IntegerFault} {s : List Char}
    (h : readMagnitude limit beyond n s = .ok m) (hn : n ≤ limit) : m ≤ limit := by
  induction s generalizing n with
  | nil => simp_all [readMagnitude]
  | cons c s ih =>
    unfold readMagnitude at h
    split at h
    · cases h
    · split at h
      · exact ih h ‹_›
      · cases h

theorem readDigits_le {limit m : Nat} {beyond : IntegerFault} {s : List Char}
    (h : readDigits limit beyond s = .ok m) : m ≤ limit := by
  unfold readDigits at h
  split at h
  · cases h
  · exact readMagnitude_le h (Nat.zero_le _)

theorem exists_of_map_eq_ok {ε α β : Type} {f : α → β} {e : Except ε α} {b : β}
    (h : f <$> e = .ok b) : ∃ a, e = .ok a ∧ f a = b := by
  cases e with
  | error _ => cases h
  | ok a => exact ⟨a, rfl, by injection h⟩

theorem readInteger_mem_range {below above : Nat} {s : List Char} {i : Int}
    (h : readInteger below above s = .ok i) : -(below : Int) ≤ i ∧ i ≤ above := by
  unfold readInteger at h
  split at h
  · cases h
  all_goals
    obtain ⟨m, hm, rfl⟩ := exists_of_map_eq_ok h
    have := readDigits_le hm
    simp only [Int.ofNat_eq_natCast]
    omega

end Text
end NodeCoverage
