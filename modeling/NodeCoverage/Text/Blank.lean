/-!
# Blank characters

A character is blank when it has the Unicode property `White_Space`. Trimming removes the blank
characters at both ends of a text and nothing else, and a text is blank when it has no other
character.
-/

namespace NodeCoverage
namespace Text

/-- The Unicode property `White_Space`. -/
def isBlank (c : Char) : Bool :=
  let n := c.toNat
  (9 ≤ n && n ≤ 13) || n == 0x20 || n == 0x85 || n == 0xA0 || n == 0x1680 ||
    (0x2000 ≤ n && n ≤ 0x200A) || n == 0x2028 || n == 0x2029 || n == 0x202F || n == 0x205F ||
    n == 0x3000

/-- Blank characters include the five that the core library calls white space. -/
theorem isBlank_of_isWhitespace {c : Char} (h : c.isWhitespace = true) : isBlank c = true := by
  simp only [Char.isWhitespace, Bool.or_eq_true, decide_eq_true_eq] at h
  rcases h with ((rfl | rfl) | rfl) | rfl <;> decide

/-- The characters between the blank ones at both ends. -/
def trimChars (s : List Char) : List Char :=
  ((s.dropWhile isBlank).reverse.dropWhile isBlank).reverse

def trim (s : String) : String :=
  String.ofList (trimChars s.toList)

/-- There is nothing but blank characters. -/
def blank (s : String) : Bool :=
  s.toList.all isBlank

private theorem dropWhile_isBlank_eq_nil_iff {s : List Char} :
    s.dropWhile isBlank = [] ↔ ∀ c ∈ s, isBlank c = true := by
  induction s with
  | nil => simp
  | cons c s ih => by_cases h : isBlank c <;> simp [h, ih]

theorem trimChars_eq_nil_iff {s : List Char} : trimChars s = [] ↔ ∀ c ∈ s, isBlank c = true := by
  simp only [trimChars, List.reverse_eq_nil_iff, dropWhile_isBlank_eq_nil_iff, List.mem_reverse]
  constructor
  · intro h c hc
    rw [← List.takeWhile_append_dropWhile (p := isBlank) (l := s), List.mem_append] at hc
    rcases hc with hc | hc
    · exact List.all_eq_true.1 List.all_takeWhile c hc
    · exact h c hc
  · intro h c hc
    exact h c ((List.dropWhile_sublist _).subset hc)

theorem trimChars_append_left {l : List Char} (h : ∀ c ∈ l, isBlank c = true) (s : List Char) :
    trimChars (l ++ s) = trimChars s := by
  rw [trimChars, List.dropWhile_append_of_pos h, ← trimChars]

theorem trimChars_append_right {r : List Char} (h : ∀ c ∈ r, isBlank c = true) (s : List Char) :
    trimChars (s ++ r) = trimChars s := by
  have hr : ∀ c ∈ r.reverse, isBlank c = true := by simpa using h
  rw [trimChars, List.dropWhile_append]
  by_cases hs : s.dropWhile isBlank = []
  · simp [trimChars, hs, dropWhile_isBlank_eq_nil_iff.mpr h]
  · simp [trimChars, hs, List.dropWhile_append_of_pos hr]

theorem exists_eq_append_trimChars (s : List Char) : ∃ l r, (∀ c ∈ l, isBlank c = true) ∧
    (∀ c ∈ r, isBlank c = true) ∧ s = l ++ trimChars s ++ r := by
  refine ⟨s.takeWhile isBlank, ((s.dropWhile isBlank).reverse.takeWhile isBlank).reverse,
    fun c hc => List.all_eq_true.mp List.all_takeWhile c hc,
    fun c hc => List.all_eq_true.mp List.all_takeWhile c (List.mem_reverse.mp hc), ?_⟩
  rw [trimChars, List.append_assoc, ← List.reverse_append, List.takeWhile_append_dropWhile,
    List.reverse_reverse, List.takeWhile_append_dropWhile]

private theorem dropWhile_isBlank_of_prefix {s t : List Char} (h : t <+: s.dropWhile isBlank) :
    t.dropWhile isBlank = t := by
  obtain ⟨rest, hrest⟩ := h
  cases t with
  | nil => rfl
  | cons c t =>
    have hc := List.head?_dropWhile_not isBlank s
    rw [← hrest, List.cons_append, List.head?_cons] at hc
    rw [List.dropWhile_cons, hc]
    rfl

theorem trimChars_trimChars (s : List Char) : trimChars (trimChars s) = trimChars s := by
  have hprefix : trimChars s <+: s.dropWhile isBlank := by
    rw [← List.reverse_suffix, trimChars, List.reverse_reverse]
    exact List.dropWhile_suffix isBlank
  have hleft : (trimChars s).dropWhile isBlank = trimChars s :=
    dropWhile_isBlank_of_prefix hprefix
  have hright : (trimChars s).reverse.dropWhile isBlank = (trimChars s).reverse := by
    rw [trimChars, List.reverse_reverse]
    exact dropWhile_isBlank_of_prefix (List.prefix_refl _)
  rw [trimChars, hleft, hright, List.reverse_reverse]

theorem trim_trim (s : String) : trim (trim s) = trim s := by
  rw [trim, trim, String.toList_ofList, trimChars_trimChars]

theorem blank_eq_true_iff {s : String} : blank s = true ↔ trim s = "" := by
  rw [blank, List.all_eq_true, ← trimChars_eq_nil_iff, trim]
  constructor
  · intro h
    rw [h]
  · intro h
    simpa using congrArg String.toList h

end Text
end NodeCoverage
