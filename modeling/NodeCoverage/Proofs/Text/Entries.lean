import NodeCoverage.Text.Entries
import NodeCoverage.Text.Integer
/-!
# Lists are read as they are written

A list is cut into parts at its separators. Each part is blank, or it states a value, or it is the
first one that is amiss. What a list says is thus a relation between its parts and values, and a
reader that knows what a single part states reads exactly what the list says. Since parts without
the separator are found again, a list may be written with any blank characters around its values
and any blank parts among them.
-/

namespace NodeCoverage
namespace Text

/-! ### Blank characters around a text -/

def Blank (s : List Char) : Prop :=
  ∀ c ∈ s, isBlank c = true

-- Only the characters of the text are gone through, not all that there are.
instance (s : List Char) : Decidable (Blank s) :=
  List.decidableBAll (isBlank · = true) s

/-- The part is the text with any blank characters around it. -/
def Padded (s p : List Char) : Prop :=
  ∃ l r, Blank l ∧ Blank r ∧ p = l ++ s ++ r

theorem padded_of_trimChars {s p : List Char} (h : trimChars p = s) : Padded s p :=
  h ▸ exists_eq_append_trimChars p

theorem blank_iff {p : List Char} : Blank p ↔ trimChars p = [] :=
  trimChars_eq_nil_iff.symm

namespace Padded

variable {s p : List Char} {c : Char}

theorem trimChars_eq (h : Padded s p) : trimChars p = trimChars s := by
  obtain ⟨l, r, hl, hr, rfl⟩ := h
  rw [List.append_assoc, trimChars_append_left hl, trimChars_append_right hr]

/-- Characters that are not blank are those of the text. -/
theorem not_mem (h : Padded s p) (hc : isBlank c = false) (hs : c ∉ s) : c ∉ p := by
  obtain ⟨l, r, hl, hr, rfl⟩ := h
  have hcl : c ∉ l := fun hmem => by simp [hl c hmem] at hc
  have hcr : c ∉ r := fun hmem => by simp [hr c hmem] at hc
  simp [hcl, hcr, hs]

end Padded

/-- Blank characters around a text are blank characters around its first and last pieces. -/
theorem map_trimChars_pieces {sep : Char} (hsep : isBlank sep = false) (s : List Char) :
    (pieces sep (trimChars s)).map trimChars = (pieces sep s).map trimChars := by
  obtain ⟨l, r, hl, hr, hs⟩ := exists_eq_append_trimChars s
  have hleft (t : List Char) :
      (pieces sep (l ++ t)).map trimChars = (pieces sep t).map trimChars := by
    clear hs
    induction l with
    | nil => rfl
    | cons c l ih =>
      have hc : Blank [c] := by simpa [Blank] using hl c (by simp)
      have hne : c ≠ sep := by
        rintro rfl
        simp [hl c (by simp)] at hsep
      rw [List.cons_append, pieces, if_neg hne, ← ih fun d hd => hl d (by simp [hd])]
      cases hp : pieces sep (l ++ t) with
      | nil => exact absurd hp (pieces_ne_nil sep _)
      | cons p ps => simpa using trimChars_append_left hc p
  have hsr : sep ∉ r := fun hmem => by simp [hr sep hmem] at hsep
  obtain ⟨init, last, hinit, hlast⟩ := exists_pieces_append hsr (trimChars s)
  calc (pieces sep (trimChars s)).map trimChars
      = (init ++ [last]).map trimChars := by rw [hinit]
    _ = (init ++ [last ++ r]).map trimChars := by simp [trimChars_append_right hr]
    _ = (pieces sep (l ++ (trimChars s ++ r))).map trimChars := by rw [hleft, hlast]
    _ = (pieces sep s).map trimChars := by rw [← List.append_assoc, ← hs]

/-! ### What a list says -/

/-- The parts of a list state these values, one after the other. Blank parts state nothing. -/
inductive Lists {α : Type} (states : List Char → α → Prop) : List (List Char) → List α → Prop
  | nil : Lists states [] []
  | blank {p : List Char} {parts : List (List Char)} {as : List α} :
      Blank p → Lists states parts as → Lists states (p :: parts) as
  | entry {p : List Char} {a : α} {parts : List (List Char)} {as : List α} :
      states p a → Lists states parts as → Lists states (p :: parts) (a :: as)

/-- The text is the first part of a list that is not blank and states nothing, without the blank
characters around it. -/
inductive FirstAmiss {α : Type} (states : List Char → α → Prop) :
    List (List Char) → List Char → Prop
  | here {p : List Char} {parts : List (List Char)} :
      ¬Blank p → (¬∃ a, states p a) → FirstAmiss states (p :: parts) (trimChars p)
  | later {p e : List Char} {parts : List (List Char)} :
      (Blank p ∨ ∃ a, states p a) → FirstAmiss states parts e → FirstAmiss states (p :: parts) e

/-- The reader knows what a part states, once the blank characters around it are gone. -/
structure Reads {α : Type} (read : List Char → Option α) (states : List Char → α → Prop) :
    Prop where
  nil : read [] = none
  trimmed : ∀ p a, read (trimChars p) = some a ↔ states p a

def readParts {α : Type} (read : List Char → Option α) (parts : List (List Char)) :
    Except String (List α) :=
  ((parts.map trimChars).filter fun e => !e.isEmpty).mapM fun e =>
    match read e with
    | some a => .ok a
    | none => .error (String.ofList e)

variable {α : Type} {sep : Char} {read : List Char → Option α} {states : List Char → α → Prop}
  {p : List Char} {parts : List (List Char)} {a : α} {as : List α} {s : String}

theorem readEntries_eq_readParts (sep : Char) (read : List Char → Option α) (s : String) :
    readEntries sep read s = readParts read (pieces sep s.toList) := rfl

theorem readParts_of_blank (hp : Blank p) : readParts read (p :: parts) = readParts read parts := by
  simp [readParts, blank_iff.mp hp]

theorem readParts_cons (hp : ¬Blank p) : readParts read (p :: parts) =
    match read (trimChars p) with
    | some a => (a :: ·) <$> readParts read parts
    | none => .error (String.ofList (trimChars p)) := by
  have hne : trimChars p ≠ [] := fun hnil => hp (blank_iff.mpr hnil)
  rw [readParts, List.map_cons, List.filter_cons_of_pos (by simpa using hne), List.mapM_cons]
  cases read (trimChars p) <;> rfl

namespace Reads

variable (h : Reads read states)

include h

theorem not_blank (hp : states p a) : ¬Blank p := by
  intro hblank
  have hread := (h.trimmed p a).mpr hp
  rw [blank_iff.mp hblank, h.nil] at hread
  cases hread

theorem readParts_of_states (hp : states p a) :
    readParts read (p :: parts) = (a :: ·) <$> readParts read parts := by
  rw [readParts_cons (h.not_blank hp), (h.trimmed p a).mpr hp]

theorem readParts_of_amiss (hp : ¬Blank p) (ha : ¬∃ a, states p a) :
    readParts read (p :: parts) = .error (String.ofList (trimChars p)) := by
  have hread : read (trimChars p) = none :=
    Option.eq_none_iff_forall_ne_some.mpr fun a hread => ha ⟨a, (h.trimmed p a).mp hread⟩
  rw [readParts_cons hp, hread]

theorem readParts_of_lists (hlists : Lists states parts as) : readParts read parts = .ok as := by
  induction hlists with
  | nil => rfl
  | blank hp _ ih => rw [readParts_of_blank hp, ih]
  | entry hp _ ih =>
    rw [h.readParts_of_states hp, ih]
    rfl

theorem readParts_of_firstAmiss {e : List Char} (hamiss : FirstAmiss states parts e) :
    readParts read parts = .error (String.ofList e) := by
  induction hamiss with
  | here hp ha => exact h.readParts_of_amiss hp ha
  | later hp _ ih =>
    rcases hp with hp | ⟨a, hp⟩
    · rw [readParts_of_blank hp, ih]
    · rw [h.readParts_of_states hp, ih]
      rfl

end Reads

theorem lists_or_firstAmiss (states : List Char → α → Prop) (parts : List (List Char)) :
    (∃ as, Lists states parts as) ∨ ∃ e, FirstAmiss states parts e := by
  induction parts with
  | nil => exact .inl ⟨[], .nil⟩
  | cons p parts ih =>
    by_cases hp : Blank p
    · rcases ih with ⟨as, h⟩ | ⟨e, h⟩
      · exact .inl ⟨as, .blank hp h⟩
      · exact .inr ⟨e, .later (.inl hp) h⟩
    · by_cases ha : ∃ a, states p a
      · obtain ⟨a, ha⟩ := ha
        rcases ih with ⟨as, h⟩ | ⟨e, h⟩
        · exact .inl ⟨a :: as, .entry ha h⟩
        · exact .inr ⟨e, .later (.inr ⟨a, ha⟩) h⟩
      · exact .inr ⟨_, .here hp ha⟩

namespace Reads

variable (h : Reads read states)

include h

/-- What is read is what the list says. -/
theorem readEntries_eq_ok_iff :
    readEntries sep read s = .ok as ↔ Lists states (pieces sep s.toList) as := by
  rw [readEntries_eq_readParts]
  refine ⟨fun hread => ?_, h.readParts_of_lists⟩
  rcases lists_or_firstAmiss states (pieces sep s.toList) with ⟨bs, hlists⟩ | ⟨e, hamiss⟩
  · rw [h.readParts_of_lists hlists] at hread
    cases hread
    exact hlists
  · rw [h.readParts_of_firstAmiss hamiss] at hread
    cases hread

/-- The error is the first part that is amiss. -/
theorem readEntries_eq_error_iff {e : String} : readEntries sep read s = .error e ↔
    FirstAmiss states (pieces sep s.toList) e.toList := by
  rw [readEntries_eq_readParts]
  constructor
  · intro hread
    rcases lists_or_firstAmiss states (pieces sep s.toList) with ⟨bs, hlists⟩ | ⟨e, hamiss⟩
    · rw [h.readParts_of_lists hlists] at hread
      cases hread
    · rw [h.readParts_of_firstAmiss hamiss] at hread
      cases hread
      rwa [String.toList_ofList]
  · intro hamiss
    rw [h.readParts_of_firstAmiss hamiss, String.ofList_toList]

end Reads

/-! ### The values of a list -/

theorem FirstAmiss.exists_mem {e : List Char} (h : FirstAmiss states parts e) :
    ∃ p ∈ parts, ¬Blank p ∧ ¬∃ a, states p a := by
  induction h with
  | here hp ha => exact ⟨_, by simp, hp, ha⟩
  | later _ _ ih =>
    obtain ⟨p, hp, h⟩ := ih
    exact ⟨p, by simp [hp], h⟩

theorem exists_lists_iff :
    (∃ as, Lists states parts as) ↔ ∀ p ∈ parts, ¬Blank p → ∃ a, states p a := by
  constructor
  · rintro ⟨as, h⟩ p hp hblank
    induction h with
    | nil => cases hp
    | blank hq _ ih =>
      rcases List.mem_cons.mp hp with rfl | hp
      · exact absurd hq hblank
      · exact ih hp
    | entry hq _ ih =>
      rcases List.mem_cons.mp hp with rfl | hp
      · exact ⟨_, hq⟩
      · exact ih hp
  · intro h
    rcases lists_or_firstAmiss states parts with hlists | ⟨e, hamiss⟩
    · exact hlists
    · obtain ⟨p, hp, hblank, hnone⟩ := hamiss.exists_mem
      exact absurd (h p hp hblank) hnone

theorem Reads.exists_readEntries_iff (h : Reads read states) :
    (∃ as, readEntries sep read s = .ok as) ↔
      ∀ p ∈ pieces sep s.toList, ¬Blank p → ∃ a, states p a :=
  (exists_congr fun _ => h.readEntries_eq_ok_iff).trans exists_lists_iff

/-! ### What is made of a list -/

section Collected

variable {β : Type} {collect : List α → β} {b : β}

theorem Reads.map_readEntries_eq_ok_iff (h : Reads read states) :
    collect <$> readEntries sep read s = .ok b ↔
      ∃ as, Lists states (pieces sep s.toList) as ∧ collect as = b := by
  constructor
  · intro hmap
    obtain ⟨as, hread, hb⟩ := exists_of_map_eq_ok hmap
    exact ⟨as, h.readEntries_eq_ok_iff.mp hread, hb⟩
  · rintro ⟨as, hlists, rfl⟩
    rw [h.readEntries_eq_ok_iff.mpr hlists]
    rfl

theorem Reads.map_readEntries_eq_error_iff (h : Reads read states) {e : String} :
    collect <$> readEntries sep read s = .error e ↔
      FirstAmiss states (pieces sep s.toList) e.toList := by
  rw [← h.readEntries_eq_error_iff]
  cases readEntries sep read s with
  | error f =>
    constructor
    · rintro ⟨⟩
      rfl
    · rintro ⟨⟩
      rfl
  | ok as =>
    constructor
    · rintro ⟨⟩
    · rintro ⟨⟩

theorem Reads.exists_map_readEntries_iff (h : Reads read states) :
    (∃ b, collect <$> readEntries sep read s = .ok b) ↔
      ∀ p ∈ pieces sep s.toList, ¬Blank p → ∃ a, states p a := by
  rw [← exists_lists_iff]
  constructor
  · rintro ⟨b, hb⟩
    obtain ⟨as, hlists, -⟩ := h.map_readEntries_eq_ok_iff.mp hb
    exact ⟨as, hlists⟩
  · rintro ⟨as, hlists⟩
    exact ⟨collect as, h.map_readEntries_eq_ok_iff.mpr ⟨as, hlists, rfl⟩⟩

end Collected

theorem Reads.mem_iff (h : Reads read states) (hlists : Lists states parts as) :
    a ∈ as ↔ ∃ p ∈ parts, states p a := by
  induction hlists with
  | nil => simp
  | blank hp _ ih =>
    have hne : ¬states _ a := fun hstates => h.not_blank hstates hp
    simp [ih, hne]
  | @entry p b parts as hp _ ih =>
    have hiff : states p a ↔ a = b := by
      rw [← h.trimmed, (h.trimmed p b).mpr hp, Option.some.injEq, eq_comm]
    simp [ih, hiff]

/-! ### Lists that are written -/

namespace Lists

theorem imp {written : List Char → α → Prop} (h : Lists written parts as)
    (himp : ∀ p, ∀ a ∈ as, written p a → states p a) : Lists states parts as := by
  induction h with
  | nil => exact .nil
  | blank hp _ ih => exact .blank hp (ih himp)
  | entry hp _ ih =>
    exact .entry (himp _ _ (by simp) hp) (ih fun p a ha => himp p a (by simp [ha]))

theorem not_mem (h : Lists states parts as) (hsep : isBlank sep = false)
    (hfree : ∀ p, ∀ a ∈ as, states p a → sep ∉ p) : ∀ p ∈ parts, sep ∉ p := by
  induction h with
  | nil => simp
  | blank hp _ ih =>
    refine List.forall_mem_cons.mpr ⟨fun hmem => ?_, ih hfree⟩
    simp [hp sep hmem] at hsep
  | entry hp _ ih =>
    exact List.forall_mem_cons.mpr
      ⟨hfree _ _ (by simp) hp, ih fun p a ha => hfree p a (by simp [ha])⟩

end Lists

/-- Values are read as they were written, if a written value has no separator and is stated. -/
theorem Reads.readEntries_intercalate {written : List Char → α → Prop} (h : Reads read states)
    (hsep : isBlank sep = false) (hlists : Lists written parts as)
    (hwritten : ∀ p, ∀ a ∈ as, written p a → states p a ∧ sep ∉ p) :
    readEntries sep read (String.ofList (List.intercalate [sep] parts)) = .ok as := by
  have hstates : Lists states parts as := hlists.imp fun p a ha hp => (hwritten p a ha hp).1
  rw [h.readEntries_eq_ok_iff, String.toList_ofList]
  by_cases hne : parts = []
  · subst hne
    cases hstates
    exact .blank (by simp [Blank]) .nil
  · rwa [pieces_intercalate hne]
    exact hlists.not_mem hsep fun p a ha hp => (hwritten p a ha hp).2

end Text
end NodeCoverage
