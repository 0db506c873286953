import NodeCoverage.Proofs.Check.Labels
import NodeCoverage.Proofs.Check.Naming
/-!
# The names of workloads are valid

From a base and a host that are subdomains comes a name that is a subdomain of at most 63
characters, wherever it was cut, and thus also a value that a label may have.
-/

namespace NodeCoverage

/-- A value that a label may have: at most 63 letters, digits, hyphens, underscores and dots,
beginning and ending with a letter or digit. -/
structure Labels.IsValue (value : String) : Prop where
  length_le : value.length ≤ 63
  chars : ∀ c ∈ value.toList, c.isAlphanum = true ∨ c ∈ ['-', '_', '.']
  first : ∀ c ∈ value.toList.head?, c.isAlphanum = true
  last : ∀ c ∈ value.toList.getLast?, c.isAlphanum = true

theorem Labels.isValue_of_subdomain {value : String} (h : Text.Subdomain value.toList)
    (hlength : value.length ≤ 63) : IsValue value := by
  have halnum {c : Char} (hc : Text.isAlnum c = true) : c.isAlphanum = true := by
    simp only [Text.isAlnum, Bool.or_eq_true] at hc
    rcases hc with hlower | hdigit
    · have halpha : c.isAlpha = true := Bool.or_eq_true_iff.mpr (.inr hlower)
      exact Bool.or_eq_true_iff.mpr (.inl halpha)
    · exact Bool.or_eq_true_iff.mpr (.inr hdigit)
  refine ⟨hlength, fun c hc => ?_, fun c hc => ?_, fun c hc => ?_⟩
  · rcases h.chars c hc with hc | rfl | rfl
    · exact .inl (halnum hc)
    · exact .inr (by simp)
    · exact .inr (by simp)
  · have hfirst := h.first
    rw [hc] at hfirst
    exact halnum hfirst
  · have hlast := h.last
    rw [hc] at hlast
    exact halnum hlast

namespace Run

variable {r : Run}

theorem toList_stem (r : Run) : r.stem.toList = r.base.toList ++ '-' :: r.host.toList := by
  simp [stem]

theorem subdomain_nameWith (hbase : Text.Subdomain r.base.toList)
    (hhost : Text.Subdomain r.host.toList) (digest : UInt32) :
    Text.Subdomain (r.nameWith digest).toList := by
  have hstem : Text.Subdomain r.stem.toList := by
    rw [toList_stem]
    exact hbase.append_hyphen hhost
  by_cases h : r.fullName.utf8ByteSize ≤ maxNameLength
  · have hlist : r.fullName.toList = r.stem.toList ++ '-' :: (toString r.timestamp).toList := by
      simp [fullName]
    rw [nameWith_of_fits h, hlist]
    exact hstem.append_tail (Text.isTail_toString r.timestamp).hyphen
  · have hsuffix := isLabel_shortSuffix r digest
    rw [nameWith_of_lt (Nat.lt_of_not_le h)]
    by_cases hkept : r.kept = []
    · rw [if_pos hkept]
      exact .label hsuffix
    · have hlist : (String.ofList r.kept ++ "-" ++ r.shortSuffix digest).toList =
          r.kept ++ '-' :: (r.shortSuffix digest).toList := by simp
      rw [if_neg hkept, hlist]
      exact (hstem.cut (List.take_prefix _ _) hkept).append_tail hsuffix.toIsTail.hyphen

/-- If base and host are subdomains of any length, the name of the workload is a subdomain of at
most 63 characters, whether it was cut or not, and it is a valid value of the label that names the
workload. -/
theorem valid_of_subdomains (r : Run) (hbase : Text.Subdomain r.base.toList)
    (hhost : Text.Subdomain r.host.toList) (hl : -(Nat.pow 2 63 : Nat) ≤ r.timestamp)
    (hu : r.timestamp < (Nat.pow 2 63 : Nat)) :
    Text.Subdomain r.workloadName.toList ∧ r.workloadName.length ≤ 63 ∧
      (Labels.ofRun r)[Labels.appKey]? = some r.workloadName ∧ Labels.IsValue r.workloadName := by
  have hsubdomain := subdomain_nameWith hbase hhost (digest r.fullName)
  have hlength := length_nameWith_le hl hu (digest r.fullName)
  exact ⟨hsubdomain, hlength, Labels.getElem?_ofRun (by simp),
    Labels.isValue_of_subdomain hsubdomain hlength⟩

/-- The theorem for a base whose last label has a run of hyphens right where the name is cut. -/
theorem valid_of_subdomains_cut :
    let r : Run := ⟨"probe.nnnnnnnnnnnnnnnnnnnnnnnnnnnnnnnnnnnn--x.y", "host-0.pods", 1700000000⟩
    Text.Subdomain r.base.toList ∧ Text.Subdomain r.host.toList ∧
      -(Nat.pow 2 63 : Nat) ≤ r.timestamp ∧ r.timestamp < (Nat.pow 2 63 : Nat) ∧
      maxNameLength < r.fullName.utf8ByteSize ∧
      r.stem.toList.take r.room = r.kept ++ ['-'] ∧
      Text.Subdomain r.workloadName.toList ∧ r.workloadName.length ≤ 63 ∧
      Labels.IsValue r.workloadName := by
  intro r
  have hbase : Text.Subdomain r.base.toList := by decide +kernel
  have hhost : Text.Subdomain r.host.toList := by decide +kernel
  have hl : -(Nat.pow 2 63 : Nat) ≤ r.timestamp := by decide
  have hu : r.timestamp < (Nat.pow 2 63 : Nat) := by decide
  have hlong : maxNameLength < r.fullName.utf8ByteSize := by decide +kernel
  have hcut : r.stem.toList.take r.room = r.kept ++ ['-'] := by decide +kernel
  obtain ⟨hsubdomain, hlength, -, hvalue⟩ := valid_of_subdomains r hbase hhost hl hu
  exact ⟨hbase, hhost, hl, hu, hlong, hcut, hsubdomain, hlength, hvalue⟩

end Run
end NodeCoverage
