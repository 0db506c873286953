import NodeCoverage.Check.Config
import NodeCoverage.Text.Integer
import NodeCoverage.Proofs.Text.Entries
/-!
# How the lists among the settings are written

Tolerances are written as triples. A text is accepted if every entry that is not blank has three
parts, of which only the second may be blank, and it says exactly these triples; otherwise the
error names the first entry that is amiss. Tolerances that can be written at all are read from any
text that they are written in, whatever the order, the blanks and the repetitions.
-/

namespace NodeCoverage

/-- A field that keeps its place in a list: no blanks at its ends, and none of the signs. -/
structure Text.Plain (signs : List Char) (field : String) : Prop where
  trim_eq : Text.trim field = field
  not_mem : ∀ c ∈ signs, c ∉ field.toList

namespace Text

instance (signs : List Char) (field : String) : Decidable (Plain signs field) :=
  have := List.decidableBAll (· ∉ field.toList) signs
  decidable_of_iff (trim field = field ∧ ∀ c ∈ signs, c ∉ field.toList)
    ⟨fun h => ⟨h.1, h.2⟩, fun h => ⟨h.trim_eq, h.not_mem⟩⟩

variable {signs : List Char} {field : String} {sep : Char} {p : List Char}

theorem Plain.ofList_trimChars (h : Plain signs field) (hp : Padded field.toList p) :
    String.ofList (trimChars p) = field := by
  rw [hp.trimChars_eq]
  exact h.trim_eq

theorem Plain.not_mem_padded (h : Plain signs field) (hp : Padded field.toList p)
    (hsep : sep ∈ signs) (hblank : isBlank sep = false) : sep ∉ p :=
  hp.not_mem hblank (h.not_mem sep hsep)

theorem Plain.not_blank (h : Plain signs field) (hp : Padded field.toList p) (hne : field ≠ "") :
    ¬Blank p := by
  intro hblank
  have hfield := h.ofList_trimChars hp
  rw [blank_iff.mp hblank] at hfield
  exact hne hfield.symm

end Text

namespace Tolerance

variable {p : List Char} {t : Tolerance}

/-- An entry states a tolerance by three parts between commas, of which the first and the last are
not blank. -/
def Stated (p : List Char) (t : Tolerance) : Prop :=
  ∃ key value effect, Text.pieces ',' p = [key, value, effect] ∧
    ¬Text.Blank key ∧ ¬Text.Blank effect ∧
    t = ⟨String.ofList (Text.trimChars key), String.ofList (Text.trimChars value),
      String.ofList (Text.trimChars effect)⟩

theorem ofEntry?_trimChars (p : List Char) : ofEntry? (Text.trimChars p) = ofEntry? p := by
  unfold ofEntry?
  rw [Text.map_trimChars_pieces (by decide)]

theorem ofEntry?_eq_some_iff : ofEntry? p = some t ↔ Stated p t := by
  unfold ofEntry? Stated
  constructor
  · intro h
    match hp : Text.pieces ',' p with
    | [key, value, effect] =>
      simp only [hp, List.map_cons, List.map_nil, Option.ite_none_left_eq_some, Bool.or_eq_true,
        List.isEmpty_iff, not_or, ← Text.blank_iff, Option.some.injEq] at h
      exact ⟨key, value, effect, rfl, h.1.1, h.1.2, h.2.symm⟩
    | [] => simp [hp] at h
    | [_] => simp [hp] at h
    | [_, _] => simp [hp] at h
    | _ :: _ :: _ :: _ :: _ => simp [hp] at h
  · rintro ⟨key, value, effect, hp, hkey, heffect, rfl⟩
    simp [hp, ← Text.blank_iff, hkey, heffect]

theorem reads : Text.Reads ofEntry? Stated where
  nil := rfl
  trimmed p t := by rw [ofEntry?_trimChars, ofEntry?_eq_some_iff]

/-- The tolerance can be written in a list. -/
structure Writable (t : Tolerance) : Prop where
  key : Text.Plain [',', ';'] t.key
  value : Text.Plain [',', ';'] t.value
  effect : Text.Plain [',', ';'] t.effect
  key_ne : t.key ≠ ""
  effect_ne : t.effect ≠ ""

instance (t : Tolerance) : Decidable t.Writable :=
  decidable_of_iff (Text.Plain [',', ';'] t.key ∧ Text.Plain [',', ';'] t.value ∧
      Text.Plain [',', ';'] t.effect ∧ t.key ≠ "" ∧ t.effect ≠ "")
    ⟨fun h => ⟨h.1, h.2.1, h.2.2.1, h.2.2.2.1, h.2.2.2.2⟩,
      fun h => ⟨h.key, h.value, h.effect, h.key_ne, h.effect_ne⟩⟩

/-- The tolerance is written as its fields with commas between, and any blanks around each. -/
def Written (p : List Char) (t : Tolerance) : Prop :=
  ∃ key value effect, Text.Padded t.key.toList key ∧ Text.Padded t.value.toList value ∧
    Text.Padded t.effect.toList effect ∧ p = List.intercalate [','] [key, value, effect]

theorem Writable.stated (h : t.Writable) (hp : Written p t) : Stated p t ∧ ';' ∉ p := by
  obtain ⟨key, value, effect, hkey, hvalue, heffect, rfl⟩ := hp
  have hfree (c : Char) (hc : c ∈ [',', ';']) (hblank : Text.isBlank c = false) :
      ∀ q ∈ [key, value, effect], c ∉ q := by
    simp only [List.forall_mem_cons, List.not_mem_nil, false_implies, implies_true, and_true]
    exact ⟨h.key.not_mem_padded hkey hc hblank, h.value.not_mem_padded hvalue hc hblank,
      h.effect.not_mem_padded heffect hc hblank⟩
  have hcomma := hfree ',' (by simp) (by decide)
  have hsemicolon := hfree ';' (by simp) (by decide)
  constructor
  · refine ⟨key, value, effect, Text.pieces_intercalate (by simp) hcomma,
      h.key.not_blank hkey h.key_ne, h.effect.not_blank heffect h.effect_ne, ?_⟩
    rw [h.key.ofList_trimChars hkey, h.value.ofList_trimChars hvalue,
      h.effect.ofList_trimChars heffect]
  · simpa [List.intercalate, List.intersperse] using hsemicolon

end Tolerance

namespace ToleranceSet

variable {text : String} {set : ToleranceSet}

theorem parse_eq_ok_iff : parse text = .ok set ↔
    ∃ ts, Text.Lists Tolerance.Stated (Text.pieces ';' text.toList) ts ∧
      Std.ExtTreeSet.ofList ts = set :=
  Tolerance.reads.map_readEntries_eq_ok_iff

theorem parse_eq_error_iff {e : String} : parse text = .error e ↔
    Text.FirstAmiss Tolerance.Stated (Text.pieces ';' text.toList) e.toList :=
  Tolerance.reads.map_readEntries_eq_error_iff

theorem mem_iff_of_parse (h : parse text = .ok set) (t : Tolerance) :
    t ∈ set ↔ ∃ p ∈ Text.pieces ';' text.toList, Tolerance.Stated p t := by
  obtain ⟨ts, hlists, rfl⟩ := parse_eq_ok_iff.mp h
  rw [Std.ExtTreeSet.mem_ofList, List.contains_iff_mem, Tolerance.reads.mem_iff hlists]

theorem parse_of_written {ts : List Tolerance} {parts : List (List Char)}
    (hset : ∀ t ∈ set, t.Writable) (hts : ∀ t, t ∈ ts ↔ t ∈ set)
    (hparts : Text.Lists Tolerance.Written parts ts) :
    parse (String.ofList (List.intercalate [';'] parts)) = .ok set := by
  have hread : Text.readEntries ';' Tolerance.ofEntry?
      (String.ofList (List.intercalate [';'] parts)) = .ok ts :=
    Tolerance.reads.readEntries_intercalate (by decide) hparts
      fun p t ht hp => (hset t ((hts t).mp ht)).stated hp
  have heq : Std.ExtTreeSet.ofList ts = set := by
    refine Std.ExtTreeSet.ext_mem fun t => ?_
    rw [Std.ExtTreeSet.mem_ofList, List.contains_iff_mem, hts]
  rw [parse, hread, ← heq]
  rfl

/-- A text of tolerances is accepted if and only if each entry that is not blank states one, and the
set consists of what the entries state; the error is the first entry that is amiss. A set of
tolerances that can be written is read from any list of its members, in any order and with any
repetitions, blanks around the fields and blank entries. -/
theorem parsed_iff_stated (text : String) :
    ((∃ set, parse text = .ok set) ↔
        ∀ p ∈ Text.pieces ';' text.toList, ¬Text.Blank p → ∃ t, Tolerance.Stated p t) ∧
      (∀ set, parse text = .ok set →
        ∀ t, t ∈ set ↔ ∃ p ∈ Text.pieces ';' text.toList, Tolerance.Stated p t) ∧
      (∀ e, parse text = .error e ↔
        Text.FirstAmiss Tolerance.Stated (Text.pieces ';' text.toList) e.toList) ∧
      (∀ e, (ConfigFault.tolerations e).message =
        "TOLERATIONS entry '" ++ e ++ "' is not key,value,effect") ∧
      ∀ (set : ToleranceSet) (ts : List Tolerance) (parts : List (List Char)),
        (∀ t ∈ set, t.Writable) → (∀ t, t ∈ ts ↔ t ∈ set) →
        Text.Lists Tolerance.Written parts ts →
        text = String.ofList (List.intercalate [';'] parts) → parse text = .ok set := by
  refine ⟨?_, fun set h => mem_iff_of_parse h, fun e => parse_eq_error_iff, fun e => rfl,
    fun set ts parts hset hts hparts htext => ?_⟩
  · rw [← Text.exists_lists_iff]
    constructor
    · rintro ⟨set, h⟩
      obtain ⟨ts, hlists, -⟩ := parse_eq_ok_iff.mp h
      exact ⟨ts, hlists⟩
    · rintro ⟨ts, hlists⟩
      exact ⟨_, parse_eq_ok_iff.mpr ⟨ts, hlists, rfl⟩⟩
  · rw [htext]
    exact parse_of_written hset hts hparts

/-- The theorem for two tolerances, of which one is written twice and one has no value, with blanks
and blank entries in between. -/
theorem parsed_iff_stated_untidy :
    let spot : Tolerance := ⟨"spot", "", "NoExecute"⟩
    let dedicated : Tolerance := ⟨"dedicated", "gpu", "NoSchedule"⟩
    let set : ToleranceSet := .ofList [dedicated, spot]
    let parts := [" spot,\t,NoExecute ", "", " dedicated , gpu,NoSchedule", "\n",
      " spot,,NoExecute"].map String.toList
    (∀ t ∈ set, t.Writable) ∧ (∀ t, t ∈ [spot, dedicated, spot] ↔ t ∈ set) ∧
      Text.Lists Tolerance.Written parts [spot, dedicated, spot] ∧
      parse " spot,\t,NoExecute ;; dedicated , gpu,NoSchedule;\n; spot,,NoExecute" = .ok set := by
  intro spot dedicated set parts
  have hmem : ∀ t, t ∈ [spot, dedicated, spot] ↔ t ∈ set := fun t => by
    rw [Std.ExtTreeSet.mem_ofList, List.contains_iff_mem]
    grind
  have hwritable : ∀ t ∈ set, t.Writable := by
    have hall : ∀ t ∈ [spot, dedicated, spot], t.Writable := by decide +kernel
    exact fun t ht => hall t ((hmem t).mpr ht)
  have hparts : Text.Lists Tolerance.Written parts [spot, dedicated, spot] := by
    refine .entry ⟨" spot".toList, "\t".toList, "NoExecute ".toList, ?_, ?_, ?_, rfl⟩
      (.blank (by decide) (.entry ⟨" dedicated ".toList, " gpu".toList, "NoSchedule".toList,
        ?_, ?_, ?_, rfl⟩ (.blank (by decide) (.entry ⟨" spot".toList, [], "NoExecute".toList,
          ?_, ?_, ?_, rfl⟩ .nil))))
    all_goals exact Text.padded_of_trimChars (by decide +kernel)
  obtain ⟨-, -, -, -, hparse⟩ :=
    parsed_iff_stated " spot,\t,NoExecute ;; dedicated , gpu,NoSchedule;\n; spot,,NoExecute"
  exact ⟨hwritable, hmem, hparts, hparse set _ parts hwritable hmem hparts rfl⟩

end ToleranceSet
end NodeCoverage
