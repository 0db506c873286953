import Std.Data.String.ToInt
import NodeCoverage.Check.Arguments
import NodeCoverage.Proofs.Text.Integer
import NodeCoverage.Proofs.Text.Subdomain
/-!
# The names of workloads

Every name ends in a hyphen and the second at which the run began, so that runs of different seconds
have different names, whatever stands in front. A name has at most 63 characters. It has at most 63
bytes if the full name has, or if the characters that were kept in front take no more bytes than
there is room for; characters that take more than one byte each may well do so.
-/

namespace NodeCoverage

/-! ### Names of different runs -/

/-- Numbers that are not negative are told apart by what stands behind the last hyphen. -/
theorem Text.eq_of_append_toString_eq {i j : Int} {f g : String} (hi : 0 ≤ i) (hj : 0 ≤ j)
    (h : f ++ "-" ++ toString i = g ++ "-" ++ toString j) : i = j := by
  have hlist : f.toList ++ '-' :: (toString i).toList = g.toList ++ '-' :: (toString j).toList := by
    simpa using congrArg String.toList h
  have heq := eq_of_append_eq (hyphen_not_mem_toString hi) (hyphen_not_mem_toString hj) hlist
  rw [String.toList_inj, Int.toString_eq_repr, Int.toString_eq_repr] at heq
  exact Int.repr_injective heq

namespace Run

variable {r s : Run} {digest : UInt32}

theorem exists_nameWith_eq (r : Run) (digest : UInt32) :
    ∃ front, r.nameWith digest = front ++ "-" ++ toString r.timestamp := by
  unfold nameWith
  split
  · exact ⟨r.stem, rfl⟩
  · split
    · exact ⟨spell digest, rfl⟩
    · exact ⟨String.ofList (r.shortHead digest) ++ "-" ++ spell digest, by
        simp [shortSuffix, String.append_assoc]⟩

theorem nameWith_ne (hr : 0 ≤ r.timestamp) (hs : 0 ≤ s.timestamp)
    (hne : r.timestamp ≠ s.timestamp) (d e : UInt32) : r.nameWith d ≠ s.nameWith e := by
  intro heq
  obtain ⟨f, hf⟩ := exists_nameWith_eq r d
  obtain ⟨g, hg⟩ := exists_nameWith_eq s e
  rw [hf, hg] at heq
  exact hne (Text.eq_of_append_toString_eq hr hs heq)

/-- Every name ends in a hyphen and the second at which the run began, and the names of runs that
did not begin in the same second differ, whatever the digests in them are. -/
theorem names_differ_between_generations (r s : Run) :
    (∃ front, r.workloadName = front ++ "-" ++ toString r.timestamp) ∧
      (0 ≤ r.timestamp → 0 ≤ s.timestamp → r.timestamp ≠ s.timestamp →
        r.workloadName ≠ s.workloadName ∧ ∀ d e, r.nameWith d ≠ s.nameWith e) :=
  ⟨exists_nameWith_eq r _, fun hr hs hne => ⟨nameWith_ne hr hs hne _ _, nameWith_ne hr hs hne⟩⟩

/-- The theorem for names that look alike, and for a name that is cut. -/
theorem names_differ_between_generations_alike :
    let r : Run := ⟨"daemonset", "probe-1", 70⟩
    let s : Run := ⟨"daemonset", "probe-1-7", 0⟩
    let long : Run := ⟨"daemonset", "check-1700000000-with-a-very-long-generated-name-xyz12", 1⟩
    0 ≤ r.timestamp ∧ 0 ≤ s.timestamp ∧ r.timestamp ≠ s.timestamp ∧
      r.workloadName ≠ s.workloadName ∧ 0 ≤ long.timestamp ∧ long.timestamp ≠ r.timestamp ∧
      long.workloadName ≠ r.workloadName ∧
      ∃ front, long.workloadName = front ++ "-" ++ toString (1 : Int) := by
  intro r s long
  have hr : 0 ≤ r.timestamp := by decide
  have hs : 0 ≤ s.timestamp := by decide
  have hlong : 0 ≤ long.timestamp := by decide
  have hrs : r.timestamp ≠ s.timestamp := by decide
  have hlr : long.timestamp ≠ r.timestamp := by decide
  exact ⟨hr, hs, hrs, ((names_differ_between_generations r s).2 hr hs hrs).1, hlong, hlr,
    ((names_differ_between_generations long r).2 hlong hr hlr).1,
    (names_differ_between_generations long r).1⟩

end Run

/-! ### Lengths of texts -/

namespace Text

theorem length_le_utf8ByteSize (s : List Char) : s.length ≤ (String.ofList s).utf8ByteSize := by
  induction s with
  | nil => simp
  | cons c s ih =>
    rw [String.ofList_cons, String.utf8ByteSize_append, String.utf8ByteSize_singleton,
      List.length_cons]
    have hc := Char.utf8Size_pos c
    omega

theorem utf8ByteSize_of_ascii {s : List Char} (h : ∀ c ∈ s, c.val ≤ 127) :
    (String.ofList s).utf8ByteSize = s.length := by
  induction s with
  | nil => simp
  | cons c s ih =>
    have hc : c.utf8Size = 1 := Char.utf8Size_eq_one_iff.mpr (h c (by simp))
    rw [String.ofList_cons, String.utf8ByteSize_append, String.utf8ByteSize_singleton, hc,
      ih fun d hd => h d (by simp [hd]), List.length_cons, Nat.add_comm]

theorem utf8ByteSize_eq_length {s : String} (h : ∀ c ∈ s.toList, c.val ≤ 127) :
    s.utf8ByteSize = s.length := by
  rw [← String.length_toList, ← utf8ByteSize_of_ascii h, String.ofList_toList]

theorem isTail_toString (i : Int) : IsTail (toString i).toList := by
  have hdigits (n : Nat) : IsTail (Nat.toDigits 10 n) := by
    refine isTail_of_isAlnum Nat.toDigits_ne_nil fun c hc => ?_
    simp [isAlnum, Nat.isDigit_of_mem_toDigits (by omega) (by omega) hc]
  cases i with
  | ofNat n =>
    rw [Int.ofNat_eq_natCast, toList_toString_natCast]
    exact hdigits n
  | negSucc n =>
    rw [toList_toString_negSucc]
    exact (hdigits _).hyphen

end Text

namespace Run

/-! ### Names that are cut -/

theorem length_spell (digest : UInt32) : (spell digest).length = 8 := by
  have hlength : (Nat.toDigits 16 digest.toNat).length ≤ 8 :=
    (Nat.length_toDigits_le_iff (by omega) (by omega)).mpr digest.toNat_lt
  simp only [spell, String.length_ofList, List.length_append, List.length_replicate]
  omega

theorem isAlnum_of_mem_spell {digest : UInt32} {c : Char} (h : c ∈ (spell digest).toList) :
    Text.isAlnum c = true := by
  have hdigit : ∀ d < 16, Text.isAlnum d.digitChar = true := by decide
  simp only [spell, String.toList_ofList, List.mem_append, List.mem_replicate] at h
  rcases h with ⟨-, rfl⟩ | h
  · decide
  · obtain ⟨d, hd, rfl⟩ := Text.exists_of_mem_toDigits (by omega) h
    exact hdigit d hd

theorem toList_shortSuffix (r : Run) (digest : UInt32) : (r.shortSuffix digest).toList =
    (spell digest).toList ++ '-' :: (toString r.timestamp).toList := by
  simp [shortSuffix]

theorem isLabel_shortSuffix (r : Run) (digest : UInt32) :
    Text.IsLabel (r.shortSuffix digest).toList := by
  have hne : (spell digest).toList ≠ [] := by
    rw [← List.length_pos_iff, String.length_toList, length_spell]
    omega
  rw [toList_shortSuffix]
  exact (Text.isLabel_of_isAlnum hne fun c => isAlnum_of_mem_spell).append
    (Text.isTail_toString r.timestamp).hyphen

variable {r : Run} {digest : UInt32}

/-- The room that is left for the beginning of a name that is cut. -/
def room (r : Run) : Nat :=
  maxNameLength - ((toString r.timestamp).length + 10)

def kept (r : Run) : List Char :=
  (r.stem.toList.take r.room).rdropWhile Text.isJoint

theorem length_shortSuffix (r : Run) (digest : UInt32) :
    (r.shortSuffix digest).length = (toString r.timestamp).length + 9 := by
  rw [← String.length_toList, toList_shortSuffix, List.length_append, List.length_cons,
    String.length_toList, String.length_toList, length_spell]
  omega

theorem utf8ByteSize_shortSuffix (r : Run) (digest : UInt32) :
    (r.shortSuffix digest).utf8ByteSize = (toString r.timestamp).length + 9 := by
  rw [Text.utf8ByteSize_eq_length (isLabel_shortSuffix r digest).ascii, length_shortSuffix]

theorem shortHead_eq_kept (r : Run) (digest : UInt32) : r.shortHead digest = r.kept := by
  rw [shortHead, utf8ByteSize_shortSuffix]
  rfl

theorem length_kept_le (r : Run) : r.kept.length ≤ r.room :=
  calc r.kept.length ≤ (r.stem.toList.take r.room).length :=
        (List.rdropWhile_prefix _ _).length_le
    _ ≤ r.room := List.length_take_le _ _

theorem nameWith_of_fits (h : r.fullName.utf8ByteSize ≤ maxNameLength) :
    r.nameWith digest = r.fullName := by
  rw [nameWith, if_pos h]

theorem nameWith_of_lt (h : maxNameLength < r.fullName.utf8ByteSize) : r.nameWith digest =
    if r.kept = [] then r.shortSuffix digest
    else String.ofList r.kept ++ "-" ++ r.shortSuffix digest := by
  simp only [nameWith, if_neg (Nat.not_le.mpr h), shortHead_eq_kept, List.isEmpty_iff]

/-- The time takes at most 20 characters. -/
theorem room_add (hl : -(Nat.pow 2 63 : Nat) ≤ r.timestamp)
    (hu : r.timestamp < (Nat.pow 2 63 : Nat)) :
    r.room + (toString r.timestamp).length + 10 = maxNameLength := by
  have := Text.length_toString_le hl hu
  unfold room maxNameLength
  omega

theorem length_nameWith_le (hl : -(Nat.pow 2 63 : Nat) ≤ r.timestamp)
    (hu : r.timestamp < (Nat.pow 2 63 : Nat)) (digest : UInt32) :
    (r.nameWith digest).length ≤ maxNameLength := by
  by_cases h : r.fullName.utf8ByteSize ≤ maxNameLength
  · have hlength := Text.length_le_utf8ByteSize r.fullName.toList
    rw [String.ofList_toList, String.length_toList] at hlength
    rw [nameWith_of_fits h]
    omega
  · have hroom := room_add hl hu
    have hkept := length_kept_le r
    rw [nameWith_of_lt (Nat.lt_of_not_le h)]
    split
    · rw [length_shortSuffix]
      omega
    · rw [String.length_append, String.length_append, String.length_ofList, length_shortSuffix,
        show "-".length = 1 from rfl]
      omega

theorem utf8ByteSize_nameWith_le_iff (hl : -(Nat.pow 2 63 : Nat) ≤ r.timestamp)
    (hu : r.timestamp < (Nat.pow 2 63 : Nat)) (digest : UInt32) :
    (r.nameWith digest).utf8ByteSize ≤ maxNameLength ↔
      r.fullName.utf8ByteSize ≤ maxNameLength ∨
        (String.ofList r.kept).utf8ByteSize ≤ r.room := by
  by_cases h : r.fullName.utf8ByteSize ≤ maxNameLength
  · simp [nameWith_of_fits h, h]
  · have hroom := room_add hl hu
    rw [nameWith_of_lt (Nat.lt_of_not_le h)]
    by_cases hkept : r.kept = []
    · have hempty : (String.ofList ([] : List Char)).utf8ByteSize = 0 := by simp
      rw [if_pos hkept, hkept, hempty, utf8ByteSize_shortSuffix]
      omega
    · rw [if_neg hkept, String.utf8ByteSize_append, String.utf8ByteSize_append,
        utf8ByteSize_shortSuffix, show "-".utf8ByteSize = 1 from rfl]
      omega

/-- A name has at most 63 characters. It has at most 63 bytes if and only if the full name has or
what is kept of the base and the host has no more bytes than there is room for characters, as it
does if these are ASCII characters. -/
theorem fits_iff_kept_fits (r : Run) (hl : -(Nat.pow 2 63 : Nat) ≤ r.timestamp)
    (hu : r.timestamp < (Nat.pow 2 63 : Nat)) :
    r.workloadName.length ≤ maxNameLength ∧
      (r.workloadName.utf8ByteSize ≤ maxNameLength ↔
        r.fullName.utf8ByteSize ≤ maxNameLength ∨
          (String.ofList r.kept).utf8ByteSize ≤ r.room) ∧
      ((∀ c ∈ r.kept, c.val ≤ 127) → r.workloadName.utf8ByteSize ≤ maxNameLength) := by
  refine ⟨length_nameWith_le hl hu _, utf8ByteSize_nameWith_le_iff hl hu _, fun hascii => ?_⟩
  refine (utf8ByteSize_nameWith_le_iff hl hu _).mpr (.inr ?_)
  rw [Text.utf8ByteSize_of_ascii hascii]
  exact length_kept_le r

/-- A run whose base has characters of two bytes. -/
def accented : Run where
  base := String.ofList ('x' :: List.replicate 40 'é')
  host := "probe"
  timestamp := 1700000000

theorem fits_iff_kept_fits_accented :
    -(Nat.pow 2 63 : Nat) ≤ accented.timestamp ∧ accented.timestamp < (Nat.pow 2 63 : Nat) ∧
      accented.workloadName.length ≤ maxNameLength ∧
      ¬accented.workloadName.utf8ByteSize ≤ maxNameLength := by
  have hl : -(Nat.pow 2 63 : Nat) ≤ accented.timestamp := by decide
  have hu : accented.timestamp < (Nat.pow 2 63 : Nat) := by decide
  obtain ⟨hlength, hsize, -⟩ := fits_iff_kept_fits accented hl hu
  refine ⟨hl, hu, hlength, fun hfits => ?_⟩
  rcases hsize.mp hfits with hfull | hkept
  · revert hfull
    decide +kernel
  · revert hkept
    decide +kernel

/-- Arguments with characters of two bytes in the base name are accepted, and the name of the
workload is longer than it may be. -/
theorem not_always_fitting : ¬∀ (args : Arguments) (now : WorldTime) (config : Config) (time : Int),
    Config.ofArguments args now = .ok config → -(Nat.pow 2 63 : Nat) ≤ time →
      time < (Nat.pow 2 63 : Nat) →
      (Run.mk config.baseName config.hostIdentity time).workloadName.utf8ByteSize ≤
        maxNameLength := by
  intro h
  let args : Arguments := { Arguments.standard with
    baseName := accented.base, hostname := some "probe" }
  have hrun : (Config.ofArguments args ⟨1700000000, 0⟩).toOption.map
      (fun c => Run.mk c.baseName c.hostIdentity 1700000000) = some accented := by
    decide +kernel
  cases hconfig : Config.ofArguments args ⟨1700000000, 0⟩ with
  | error fault =>
    rw [hconfig] at hrun
    cases hrun
  | ok config =>
    rw [hconfig] at hrun
    have hrun : Run.mk config.baseName config.hostIdentity 1700000000 = accented :=
      Option.some.inj hrun
    have hfits := h args _ config 1700000000 hconfig (by decide) (by decide)
    rw [hrun, workloadName, utf8ByteSize_nameWith_le_iff (by decide) (by decide)]
      at hfits
    revert hfits
    decide +kernel

end Run

end NodeCoverage
