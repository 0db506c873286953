import Mathlib.Data.List.DropRight
import NodeCoverage.Text.Split
/-!
# Subdomains

Labels of lower-case letters, digits and hyphens, with dots between them. A label begins and ends
with a letter or digit. More characters without a dot may follow a subdomain if they end as a label
does, and whatever a subdomain is cut down to becomes one again once the hyphens and dots at its end
are gone.
-/

namespace NodeCoverage
namespace Text

def isAlnum (c : Char) : Bool :=
  c.isLower || c.isDigit

def isJoint (c : Char) : Bool :=
  c = '-' ∨ c = '.'

/-- The end of a label: letters, digits and hyphens, and no hyphen at its end. -/
structure IsTail (s : List Char) : Prop where
  chars : ∀ c ∈ s, isAlnum c = true ∨ c = '-'
  last : s.getLast?.any isAlnum = true

structure IsLabel (s : List Char) : Prop extends IsTail s where
  first : s.head?.any isAlnum = true

instance (s : List Char) : Decidable (IsTail s) :=
  have := List.decidableBAll (fun c => isAlnum c = true ∨ c = '-') s
  decidable_of_iff ((∀ c ∈ s, isAlnum c = true ∨ c = '-') ∧ s.getLast?.any isAlnum = true)
    ⟨fun h => ⟨h.1, h.2⟩, fun h => ⟨h.chars, h.last⟩⟩

instance (s : List Char) : Decidable (IsLabel s) :=
  decidable_of_iff (IsTail s ∧ s.head?.any isAlnum = true)
    ⟨fun h => ⟨h.1, h.2⟩, fun h => ⟨h.toIsTail, h.first⟩⟩

/-- Labels with dots between them. -/
inductive Subdomain : List Char → Prop
  | label {l : List Char} : IsLabel l → Subdomain l
  | dot {l s : List Char} : IsLabel l → Subdomain s → Subdomain (l ++ '.' :: s)

variable {l m p s t : List Char}

theorem isAlnum_iff {c : Char} :
    isAlnum c = true ↔ ('a' ≤ c ∧ c ≤ 'z') ∨ ('0' ≤ c ∧ c ≤ '9') := by
  have hlower : c.isLower = (decide ('a' ≤ c) && decide (c ≤ 'z')) := rfl
  have hdigit : c.isDigit = (decide ('0' ≤ c) && decide (c ≤ '9')) := rfl
  simp [isAlnum, hlower, hdigit]

theorem ascii_of_isAlnum {c : Char} (h : isAlnum c = true) : c.val ≤ 127 := by
  rcases isAlnum_iff.mp h with ⟨-, h⟩ | ⟨-, h⟩ <;>
    exact UInt32.le_trans (Char.le_def.mp h) (by decide)

theorem isJoint_iff {c : Char} : isJoint c = true ↔ c = '-' ∨ c = '.' := by
  simp [isJoint]

/-! ### Labels -/

theorem IsTail.ne_nil (h : IsTail s) : s ≠ [] := by
  rintro rfl
  exact Bool.noConfusion h.last

theorem IsTail.ascii (h : IsTail s) : ∀ c ∈ s, c.val ≤ 127 := by
  intro c hc
  rcases h.chars c hc with hc | rfl
  · exact ascii_of_isAlnum hc
  · decide

theorem IsTail.prepend (hs : ∀ c ∈ s, isAlnum c = true ∨ c = '-') (h : IsTail t) :
    IsTail (s ++ t) where
  chars := by simpa [or_imp, forall_and] using ⟨hs, h.chars⟩
  last := by rw [List.getLast?_append_of_ne_nil s h.ne_nil, h.last]

theorem IsTail.hyphen (h : IsTail s) : IsTail ('-' :: s) :=
  .prepend (s := ['-']) (by simp) h

theorem isTail_of_isAlnum (hne : s ≠ []) (hs : ∀ c ∈ s, isAlnum c = true) : IsTail s where
  chars c hc := .inl (hs c hc)
  last := by
    rw [List.getLast?_eq_some_getLast hne]
    exact hs _ (List.getLast_mem hne)

theorem isLabel_of_isAlnum (hne : s ≠ []) (hs : ∀ c ∈ s, isAlnum c = true) : IsLabel s where
  toIsTail := isTail_of_isAlnum hne hs
  first := by
    rw [List.head?_eq_some_head hne]
    exact hs _ (List.head_mem hne)

theorem IsLabel.not_mem_dot (h : IsLabel l) : '.' ∉ l := by
  intro hmem
  rcases h.chars '.' hmem with h | h
  · revert h
    decide
  · revert h
    decide

theorem IsLabel.append (h : IsLabel l) (ht : IsTail t) : IsLabel (l ++ t) where
  toIsTail := .prepend h.chars ht
  first := by rw [List.head?_append_of_ne_nil _ h.ne_nil, h.first]

theorem IsLabel.cut (h : IsLabel l) (hp : p <+: l) (hne : p.rdropWhile isJoint ≠ []) :
    IsLabel (p.rdropWhile isJoint) := by
  have hinit : p.rdropWhile isJoint <+: l := (List.rdropWhile_prefix isJoint p).trans hp
  have hchars : ∀ c ∈ p.rdropWhile isJoint, isAlnum c = true ∨ c = '-' := fun c hc =>
    h.chars c (hinit.subset hc)
  refine ⟨⟨hchars, ?_⟩, ?_⟩
  · have hlast := List.rdropWhile_last_not isJoint p hne
    rw [isJoint_iff, not_or] at hlast
    rw [List.getLast?_eq_some_getLast hne]
    exact (hchars _ (List.getLast_mem hne)).resolve_right hlast.1
  · obtain ⟨rest, hrest⟩ := hinit
    have hfirst := h.first
    rwa [← hrest, List.head?_append_of_ne_nil _ hne] at hfirst

/-! ### Subdomains -/

namespace Subdomain

/-- The pieces between the dots are labels, and this is all that is asked. -/
theorem iff_pieces : Subdomain s ↔ ∀ l ∈ pieces '.' s, IsLabel l := by
  constructor
  · intro h
    induction h with
    | label hl => simpa [pieces_of_not_mem hl.not_mem_dot] using hl
    | dot hl _ ih =>
      rw [pieces_append hl.not_mem_dot]
      exact List.forall_mem_cons.mpr ⟨hl, ih⟩
  · intro h
    rw [← intercalate_pieces '.' s]
    have hne := pieces_ne_nil '.' s
    generalize pieces '.' s = parts at h hne
    induction parts with
    | nil => exact absurd rfl hne
    | cons l parts ih =>
      obtain ⟨hl, hparts⟩ := List.forall_mem_cons.mp h
      cases parts with
      | nil => simpa using Subdomain.label hl
      | cons m parts => simpa using Subdomain.dot hl (ih hparts (by simp))

instance (s : List Char) : Decidable (Subdomain s) :=
  decidable_of_iff _ iff_pieces.symm

theorem append_tail (hs : Subdomain s) (ht : IsTail t) : Subdomain (s ++ t) := by
  induction hs with
  | label hl => exact .label (hl.append ht)
  | dot hl _ ih =>
    rw [List.append_assoc]
    exact .dot hl ih

theorem append_dot (hs : Subdomain s) (ht : Subdomain t) : Subdomain (s ++ '.' :: t) := by
  induction hs with
  | label hl => exact .dot hl ht
  | dot hl _ ih =>
    rw [List.append_assoc]
    exact .dot hl ih

/-- Two subdomains may be joined by a hyphen, so that two labels become one. -/
theorem append_hyphen (hs : Subdomain s) (ht : Subdomain t) : Subdomain (s ++ '-' :: t) := by
  cases ht with
  | label hl => exact hs.append_tail hl.toIsTail.hyphen
  | @dot l t hl ht =>
    have h := (hs.append_tail hl.toIsTail.hyphen).append_dot ht
    rwa [List.append_assoc] at h

end Subdomain

theorem rdropWhile_append_of_eq_nil (h : t.rdropWhile isJoint = []) (s : List Char) :
    (s ++ t).rdropWhile isJoint = s.rdropWhile isJoint := by
  have ht : t.reverse.dropWhile isJoint = [] := by simpa [List.rdropWhile] using h
  simp [List.rdropWhile, List.dropWhile_append, ht]

theorem rdropWhile_append_of_ne_nil (h : t.rdropWhile isJoint ≠ []) (s : List Char) :
    (s ++ t).rdropWhile isJoint = s ++ t.rdropWhile isJoint := by
  have ht : t.reverse.dropWhile isJoint ≠ [] := by simpa [List.rdropWhile] using h
  simp [List.rdropWhile, List.dropWhile_append, ht]

namespace Subdomain

/-- Wherever a subdomain is cut, a subdomain is left when hyphens and dots are removed from the
end. -/
theorem cut (hs : Subdomain s) (hp : p <+: s) (hne : p.rdropWhile isJoint ≠ []) :
    Subdomain (p.rdropWhile isJoint) := by
  induction hs generalizing p with
  | label hl => exact .label (hl.cut hp hne)
  | @dot l s hl hs ih =>
    obtain ⟨rest, hrest⟩ := hp
    rcases List.append_eq_append_iff.mp hrest with ⟨q, hl', -⟩ | ⟨q, rfl, hq⟩
    · exact .label (hl.cut ⟨q, hl'.symm⟩ hne)
    · cases q with
      | nil =>
        rw [List.append_nil] at hne ⊢
        exact .label (hl.cut (List.prefix_refl l) hne)
      | cons c q =>
        obtain ⟨rfl, hsq⟩ := List.cons.inj hq
        rw [List.append_cons] at hne ⊢
        by_cases hcut : q.rdropWhile isJoint = []
        · rw [rdropWhile_append_of_eq_nil hcut,
            List.rdropWhile_concat_pos isJoint l '.' (by decide)] at hne ⊢
          exact .label (hl.cut (List.prefix_refl l) hne)
        · rw [rdropWhile_append_of_ne_nil hcut, List.append_assoc]
          exact .dot hl (ih ⟨rest, hsq.symm⟩ hcut)

/-! ### Characters of a subdomain -/

theorem chars (h : Subdomain s) : ∀ c ∈ s, isAlnum c = true ∨ c = '-' ∨ c = '.' := by
  induction h with
  | label hl => exact fun c hc => (hl.chars c hc).imp_right .inl
  | dot hl _ ih =>
    intro c hc
    rcases List.mem_append.mp hc with hc | hc
    · exact (hl.chars c hc).imp_right .inl
    · rcases List.mem_cons.mp hc with rfl | hc
      · exact .inr (.inr rfl)
      · exact ih c hc

theorem first (h : Subdomain s) : s.head?.any isAlnum = true := by
  cases h with
  | label hl => exact hl.first
  | dot hl _ =>
    rw [List.head?_append_of_ne_nil _ hl.ne_nil]
    exact hl.first

theorem last (h : Subdomain s) : s.getLast?.any isAlnum = true := by
  induction h with
  | label hl => exact hl.last
  | @dot l s _ _ ih =>
    have hne : s ≠ [] := by
      rintro rfl
      exact Bool.noConfusion ih
    rw [List.append_cons, List.getLast?_append_of_ne_nil _ hne]
    exact ih

end Subdomain

end Text
end NodeCoverage
