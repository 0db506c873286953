/-!
# Splitting a text at a separator

Cutting at every occurrence of a separator gives one piece more than there are separators, and
joining the pieces with the separator gives the text back. Cutting at the first occurrence gives
the part before it and everything after it.
-/

namespace NodeCoverage
namespace Text

/-- The pieces between the occurrences of `sep`; a text without one is a single piece. -/
def pieces (sep : Char) : List Char → List (List Char)
  | [] => [[]]
  | c :: s =>
    if c = sep then [] :: pieces sep s
    else match pieces sep s with
      | [] => [[c]]
      | p :: ps => (c :: p) :: ps

/-- The part before the first `sep` and the part after it. -/
def cutAtFirst (sep : Char) (s : List Char) : Option (List Char × List Char) :=
  match s.dropWhile (· != sep) with
  | [] => none
  | _ :: after => some (s.takeWhile (· != sep), after)

theorem pieces_ne_nil (sep : Char) (s : List Char) : pieces sep s ≠ [] := by
  cases s with
  | nil => simp [pieces]
  | cons c s =>
    unfold pieces
    split
    · simp
    · split <;> simp

theorem pieces_eq_splitOn (sep : Char) (s : List Char) : pieces sep s = s.splitOn sep := by
  induction s with
  | nil => rfl
  | cons c s ih =>
    rw [pieces, List.splitOn_cons_eq_if_modifyHead, ← ih]
    by_cases h : c = sep
    · simp [h]
    · cases hp : pieces sep s with
      | nil => exact absurd hp (pieces_ne_nil sep s)
      | cons p ps => simp [h]

theorem intercalate_pieces (sep : Char) (s : List Char) :
    List.intercalate [sep] (pieces sep s) = s := by
  rw [pieces_eq_splitOn, List.intercalate_splitOn]

theorem pieces_intercalate {sep : Char} {parts : List (List Char)} (hne : parts ≠ [])
    (h : ∀ p ∈ parts, sep ∉ p) : pieces sep (List.intercalate [sep] parts) = parts := by
  rw [pieces_eq_splitOn, List.splitOn_intercalate sep h hne]

theorem not_mem_of_mem_pieces {sep : Char} {s p : List Char} (h : p ∈ pieces sep s) : sep ∉ p := by
  induction s generalizing p with
  | nil => simp_all [pieces]
  | cons c s ih =>
    unfold pieces at h
    split at h
    · rcases List.mem_cons.1 h with rfl | h
      · simp
      · exact ih h
    · next hc =>
      split at h
      · simp_all [Ne.symm hc]
      · next q qs hq =>
        rcases List.mem_cons.1 h with rfl | h
        · have := @ih q (by simp [hq])
          simp [this, Ne.symm hc]
        · exact ih (by simp [hq, h])

section

variable {sep : Char} {p r s : List Char}

theorem pieces_of_not_mem (h : sep ∉ s) : pieces sep s = [s] := by
  rw [pieces_eq_splitOn, List.splitOn_eq_singleton h]

theorem pieces_append (h : sep ∉ p) : pieces sep (p ++ sep :: s) = p :: pieces sep s := by
  simp only [pieces_eq_splitOn, List.splitOn_append_cons_self_of_not_mem h]

/-- What has no separator and stands at the end belongs to the last piece. -/
theorem exists_pieces_append (h : sep ∉ r) (s : List Char) :
    ∃ init last, pieces sep s = init ++ [last] ∧ pieces sep (s ++ r) = init ++ [last ++ r] := by
  induction s with
  | nil => exact ⟨[], [], rfl, by simp [pieces_of_not_mem h]⟩
  | cons c s ih =>
    obtain ⟨init, last, hs, hsr⟩ := ih
    rw [List.cons_append, pieces, pieces, hs, hsr]
    by_cases hc : c = sep
    · exact ⟨[] :: init, last, by simp [hc], by simp [hc]⟩
    · cases init with
      | nil => exact ⟨[], c :: last, by simp [hc], by simp [hc]⟩
      | cons q qs => exact ⟨(c :: q) :: qs, last, by simp [hc], by simp [hc]⟩

/-- What stands behind the last separator is known from the whole. -/
theorem eq_of_append_eq {f g d e : List Char} (hd : sep ∉ d) (he : sep ∉ e)
    (h : f ++ sep :: d = g ++ sep :: e) : d = e := by
  have hsplit := congrArg (List.splitOn sep) h
  rw [List.splitOn_append_cons_self, List.splitOn_append_cons_self, List.splitOn_eq_singleton hd,
    List.splitOn_eq_singleton he] at hsplit
  simpa using (List.append_inj' hsplit rfl).2

theorem cutAtFirst_append (h : sep ∉ p) : cutAtFirst sep (p ++ sep :: s) = some (p, s) := by
  have hp : ∀ c ∈ p, (c != sep) = true := fun c hc => by
    simpa using fun hcs : c = sep => h (hcs ▸ hc)
  simp [cutAtFirst, List.dropWhile_append_of_pos hp, List.takeWhile_append_of_pos hp]

theorem cutAtFirst_of_not_mem (h : sep ∉ s) : cutAtFirst sep s = none := by
  have hs : ∀ c ∈ s, (c != sep) = true := fun c hc => by
    simpa using fun hcs : c = sep => h (hcs ▸ hc)
  have hnil : (s ++ []).dropWhile (· != sep) = [] := List.dropWhile_append_of_pos hs
  rw [List.append_nil] at hnil
  rw [cutAtFirst, hnil]

theorem cutAtFirst_eq_some_iff : cutAtFirst sep s = some (p, r) ↔ s = p ++ sep :: r ∧ sep ∉ p := by
  constructor
  · intro h
    by_cases hs : sep ∈ s
    · obtain ⟨before, after, rfl, hbefore⟩ := List.eq_append_cons_of_mem hs
      rw [cutAtFirst_append hbefore] at h
      cases h
      exact ⟨rfl, hbefore⟩
    · rw [cutAtFirst_of_not_mem hs] at h
      cases h
  · rintro ⟨rfl, hp⟩
    exact cutAtFirst_append hp

end

end Text
end NodeCoverage
