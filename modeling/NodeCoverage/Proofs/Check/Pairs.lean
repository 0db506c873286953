import NodeCoverage.Proofs.Check.Grammar
/-!
# Labels and allowed taints are read as they are written

An entry of a node selector, or of the allowed taints, is divided by the first sign in it; the sign
may stand again in the second field. A node selector has for each key the value of the last entry
with that key, and the allowed taints are all the entries in their order. What can be written at all
is read from any text that it is written in, whatever blanks and blank entries are added.
-/

namespace NodeCoverage

namespace Text

variable {sep : Char} {p : List Char} {first second : String}

/-- An entry states two texts, divided by the first sign in it. The one in front of the sign is not
blank. -/
def StatesPair (sep : Char) (p : List Char) (first second : String) : Prop :=
  ∃ before after, p = before ++ sep :: after ∧ sep ∉ before ∧ ¬Blank before ∧
    first = String.ofList (trimChars before) ∧ second = String.ofList (trimChars after)

/-- Two texts are written with the sign between them, and any blanks around each. -/
def WrittenPair (sep : Char) (p : List Char) (first second : String) : Prop :=
  ∃ before after, Padded first.toList before ∧ Padded second.toList after ∧
    p = before ++ sep :: after

/-- The two fields of an entry that is divided by the first sign in it, trimmed. -/
def fields? (sep : Char) (p : List Char) : Option (List Char × List Char) :=
  (cutAtFirst sep p).map (Prod.map trimChars trimChars)

theorem statesPair_iff : StatesPair sep p first second ↔
    fields? sep p = some (first.toList, second.toList) ∧ first ≠ "" := by
  constructor
  · rintro ⟨before, after, rfl, hbefore, hblank, rfl, rfl⟩
    have hne : trimChars before ≠ [] := mt blank_iff.mpr hblank
    simp [fields?, cutAtFirst_append hbefore, String.ofList_eq_empty_iff, hne]
  · rintro ⟨hfields, hne⟩
    obtain ⟨⟨before, after⟩, hcut, heq⟩ := Option.map_eq_some_iff.mp hfields
    obtain ⟨rfl, hbefore⟩ := cutAtFirst_eq_some_iff.mp hcut
    obtain ⟨hfirst, hsecond⟩ := Prod.mk.inj heq
    refine ⟨before, after, rfl, hbefore, fun hblank => hne ?_, ?_, ?_⟩
    · rwa [blank_iff.mp hblank, eq_comm, String.toList_eq_nil_iff] at hfirst
    · rw [hfirst, String.ofList_toList]
    · rw [hsecond, String.ofList_toList]

theorem fields?_trimChars (hsep : isBlank sep = false) (p : List Char) :
    fields? sep (trimChars p) = fields? sep p := by
  have hpadded : Padded (trimChars p) p := padded_of_trimChars rfl
  by_cases hmem : sep ∈ trimChars p
  · obtain ⟨first, second, htrim, hfirst⟩ := List.eq_append_cons_of_mem hmem
    obtain ⟨l, r, hl, hr, hp⟩ := hpadded
    have hlsep : sep ∉ l := fun hmem => by simp [hl sep hmem] at hsep
    have hcut : p = (l ++ first) ++ sep :: (second ++ r) := by
      rw [hp, htrim]
      simp
    rw [fields?, fields?, htrim, cutAtFirst_append hfirst, hcut,
      cutAtFirst_append (by simp [hlsep, hfirst])]
    simp [trimChars_append_left hl, trimChars_append_right hr]
  · rw [fields?, fields?, cutAtFirst_of_not_mem hmem,
      cutAtFirst_of_not_mem (hpadded.not_mem hsep hmem)]

/-- Texts that can be written are stated, and the entry keeps its place in a list. -/
theorem WrittenPair.statesPair (h : WrittenPair sep p first second)
    (hfirst : Plain [',', sep] first) (hsecond : Plain [','] second) (hne : first ≠ "")
    (hsep : isBlank sep = false) (hcomma : sep ≠ ',') :
    StatesPair sep p first second ∧ ',' ∉ p := by
  obtain ⟨before, after, hbefore, hafter, rfl⟩ := h
  constructor
  · exact ⟨before, after, rfl, hfirst.not_mem_padded hbefore (by simp) hsep,
      hfirst.not_blank hbefore hne, (hfirst.ofList_trimChars hbefore).symm,
      (hsecond.ofList_trimChars hafter).symm⟩
  · have hbeforefree : ',' ∉ before := hfirst.not_mem_padded hbefore (by simp) (by decide)
    have hafterfree : ',' ∉ after := hsecond.not_mem_padded hafter (by simp) (by decide)
    simp [hbeforefree, hafterfree, hcomma.symm]

end Text

/-! ### Node selectors -/

namespace NodeSelector

variable {p : List Char} {parts : List (List Char)} {key value text : String}
  {label : String × String} {as : List (String × String)} {labels selector : Labels}

/-- An entry states a label as `key=value`. Only the value may be blank. -/
def Stated (p : List Char) (label : String × String) : Prop :=
  Text.StatesPair '=' p label.1 label.2

theorem ofEntry?_eq (p : List Char) : ofEntry? p = (Text.fields? '=' p).bind fun fields =>
    if fields.1.isEmpty then none
    else some (String.ofList fields.1, String.ofList fields.2) := by
  unfold ofEntry? Text.fields?
  cases Text.cutAtFirst '=' p <;> rfl

theorem ofEntry?_eq_some_iff : ofEntry? p = some label ↔ Stated p label := by
  rw [ofEntry?_eq, Stated, Text.statesPair_iff]
  constructor
  · intro h
    obtain ⟨⟨key, value⟩, hfields, h⟩ := Option.bind_eq_some_iff.mp h
    simp only [Option.ite_none_left_eq_some, List.isEmpty_iff, Option.some.injEq] at h
    obtain ⟨hkey, rfl⟩ := h
    exact ⟨by simpa using hfields, by simpa using hkey⟩
  · rintro ⟨hfields, hkey⟩
    simp [hfields, hkey]

theorem reads : Text.Reads ofEntry? Stated where
  nil := rfl
  trimmed p label := by
    rw [ofEntry?_eq, Text.fields?_trimChars (by decide), ← ofEntry?_eq, ofEntry?_eq_some_iff]

/-- The value is stated for the key, and no later entry states any for it. -/
def LastStated (parts : List (List Char)) (key value : String) : Prop :=
  ∃ before p after, parts = before ++ p :: after ∧ Stated p (key, value) ∧
    ∀ q ∈ after, ∀ other, ¬Stated q (key, other)

theorem lastStated_cons : LastStated (p :: parts) key value ↔ LastStated parts key value ∨
    Stated p (key, value) ∧ ∀ q ∈ parts, ∀ other, ¬Stated q (key, other) := by
  constructor
  · rintro ⟨before, q, after, hparts, hq, hafter⟩
    cases before with
    | nil =>
      obtain ⟨rfl, rfl⟩ := List.cons.inj hparts
      exact .inr ⟨hq, hafter⟩
    | cons r before =>
      obtain ⟨rfl, rfl⟩ := List.cons.inj hparts
      exact .inl ⟨before, q, after, rfl, hq, hafter⟩
  · rintro (⟨before, q, after, rfl, hq, hafter⟩ | ⟨hp, hparts⟩)
    · exact ⟨p :: before, q, after, rfl, hq, hafter⟩
    · exact ⟨[], p, parts, rfl, hp, hparts⟩

/-- Labels that are put into others one after the other: the last one with a key counts. -/
theorem getElem?_insertMany_iff (h : Text.Lists Stated parts as) (key value : String) :
    (labels.insertMany as)[key]? = some value ↔ LastStated parts key value ∨
      labels[key]? = some value ∧ ∀ p ∈ parts, ∀ other, ¬Stated p (key, other) := by
  induction h generalizing labels with
  | nil => simp [LastStated]
  | @blank p parts as hp _ ih =>
    have hnone (label : String × String) : ¬Stated p label := fun h => reads.not_blank h hp
    simp [ih, lastStated_cons, hnone]
  | @entry p label parts as hp _ ih =>
    obtain ⟨key', value'⟩ := label
    have hiff (label : String × String) : Stated p label ↔ (key', value') = label := by
      rw [← ofEntry?_eq_some_iff, ofEntry?_eq_some_iff.mpr hp, Option.some.injEq]
    rw [Std.ExtTreeMap.insertMany_cons, ih, lastStated_cons, Std.ExtTreeMap.getElem?_insert]
    by_cases hkey : key' = key
    · subst hkey
      simp [hiff]
    · simp [hiff, hkey]

theorem getElem?_iff_of_parse (h : parse text = .ok labels) (key value : String) :
    labels[key]? = some value ↔ LastStated (Text.pieces ',' text.toList) key value := by
  obtain ⟨as, hlists, rfl⟩ := reads.map_readEntries_eq_ok_iff.mp h
  rw [Std.ExtTreeMap.ofList_eq_insertMany_empty, getElem?_insertMany_iff hlists]
  simp

example : (NodeSelector.parse "pool=a, pool = b=c").toOption.bind (·["pool"]?) = some "b=c" := by
  decide +kernel

structure Writable (label : String × String) : Prop where
  key : Text.Plain [',', '='] label.1
  value : Text.Plain [','] label.2
  key_ne : label.1 ≠ ""

instance (label : String × String) : Decidable (Writable label) :=
  decidable_of_iff (Text.Plain [',', '='] label.1 ∧ Text.Plain [','] label.2 ∧ label.1 ≠ "")
    ⟨fun h => ⟨h.1, h.2.1, h.2.2⟩, fun h => ⟨h.key, h.value, h.key_ne⟩⟩

def Written (p : List Char) (label : String × String) : Prop :=
  Text.WrittenPair '=' p label.1 label.2

theorem Writable.stated (h : Writable label) (hp : Written p label) : Stated p label ∧ ',' ∉ p :=
  hp.statesPair h.key h.value h.key_ne (by decide) (by decide)

theorem mem_of_getElem?_insertMany (h : (labels.insertMany as)[key]? = some value) :
    (key, value) ∈ as ∨ labels[key]? = some value := by
  induction as generalizing labels with
  | nil => exact .inr (by simpa using h)
  | cons label as ih =>
    rw [Std.ExtTreeMap.insertMany_cons] at h
    rcases ih h with hmem | hlabels
    · exact .inl (by simp [hmem])
    · rw [Std.ExtTreeMap.getElem?_insert] at hlabels
      by_cases hkey : label.1 = key
      · have hvalue : label.2 = value := by simpa [hkey] using hlabels
        exact .inl (by simp [← hkey, ← hvalue])
      · exact .inr (by simpa [hkey] using hlabels)

/-- A list of all labels, in any order and with any repetitions, makes up the labels. -/
theorem ofList_eq_of_mem_iff (has : ∀ key value, (key, value) ∈ as ↔ selector[key]? = some value) :
    Std.ExtTreeMap.ofList as = selector := by
  have hmem {key value : String} (h : (Std.ExtTreeMap.ofList as : Labels)[key]? = some value) :
      selector[key]? = some value := by
    rw [Std.ExtTreeMap.ofList_eq_insertMany_empty] at h
    exact (has key value).mp ((mem_of_getElem?_insertMany h).resolve_right (by simp))
  refine Std.ExtTreeMap.ext_getElem? fun key => Option.ext fun value => ⟨hmem, fun h => ?_⟩
  have hkey : key ∈ (Std.ExtTreeMap.ofList as : Labels) := by
    rw [Std.ExtTreeMap.mem_ofList, List.contains_iff_mem]
    exact List.mem_map_of_mem ((has key value).mpr h)
  obtain ⟨other, hother⟩ :=
    Option.isSome_iff_exists.mp (Std.ExtTreeMap.mem_iff_isSome_getElem?.mp hkey)
  rw [hother, ← hmem hother, h]

theorem parse_of_written
    (hselector : ∀ key value, selector[key]? = some value → Writable (key, value))
    (has : ∀ key value, (key, value) ∈ as ↔ selector[key]? = some value)
    (hparts : Text.Lists Written parts as) :
    parse (String.ofList (List.intercalate [','] parts)) = .ok selector := by
  have hread : Text.readEntries ',' ofEntry?
      (String.ofList (List.intercalate [','] parts)) = .ok as :=
    reads.readEntries_intercalate (by decide) hparts
      fun p label hlabel hp => (hselector _ _ ((has _ _).mp hlabel)).stated hp
  rw [parse, hread, ← ofList_eq_of_mem_iff has]
  rfl

end NodeSelector

/-! ### Allowed taints -/

namespace AllowedTaint

variable {p : List Char} {parts : List (List Char)} {text : String} {a : AllowedTaint}
  {as : List AllowedTaint}

/-- An entry states a taint as `key:effect`, both not blank. -/
def Stated (p : List Char) (a : AllowedTaint) : Prop :=
  Text.StatesPair ':' p a.key a.effect ∧ a.effect ≠ ""

theorem ofEntry?_eq (p : List Char) : ofEntry? p = (Text.fields? ':' p).bind fun fields =>
    if fields.1.isEmpty || fields.2.isEmpty then none
    else some ⟨String.ofList fields.1, String.ofList fields.2⟩ := by
  unfold ofEntry? Text.fields?
  cases Text.cutAtFirst ':' p <;> rfl

theorem ofEntry?_eq_some_iff : ofEntry? p = some a ↔ Stated p a := by
  rw [ofEntry?_eq, Stated, Text.statesPair_iff]
  constructor
  · intro h
    obtain ⟨⟨key, effect⟩, hfields, h⟩ := Option.bind_eq_some_iff.mp h
    simp only [Option.ite_none_left_eq_some, Bool.or_eq_true, List.isEmpty_iff, not_or,
      Option.some.injEq] at h
    obtain ⟨⟨hkey, heffect⟩, rfl⟩ := h
    exact ⟨⟨by simpa using hfields, by simpa using hkey⟩, by simpa using heffect⟩
  · rintro ⟨⟨hfields, hkey⟩, heffect⟩
    simp [hfields, hkey, heffect]

theorem reads : Text.Reads ofEntry? Stated where
  nil := rfl
  trimmed p a := by
    rw [ofEntry?_eq, Text.fields?_trimChars (by decide), ← ofEntry?_eq, ofEntry?_eq_some_iff]

structure Writable (a : AllowedTaint) : Prop where
  key : Text.Plain [',', ':'] a.key
  effect : Text.Plain [','] a.effect
  key_ne : a.key ≠ ""
  effect_ne : a.effect ≠ ""

instance (a : AllowedTaint) : Decidable a.Writable :=
  decidable_of_iff (Text.Plain [',', ':'] a.key ∧ Text.Plain [','] a.effect ∧ a.key ≠ "" ∧
      a.effect ≠ "")
    ⟨fun h => ⟨h.1, h.2.1, h.2.2.1, h.2.2.2⟩, fun h => ⟨h.key, h.effect, h.key_ne, h.effect_ne⟩⟩

def Written (p : List Char) (a : AllowedTaint) : Prop :=
  Text.WrittenPair ':' p a.key a.effect

theorem Writable.stated (h : a.Writable) (hp : Written p a) : Stated p a ∧ ',' ∉ p := by
  obtain ⟨hstates, hcomma⟩ := hp.statesPair h.key h.effect h.key_ne (by decide) (by decide)
  exact ⟨⟨hstates, h.effect_ne⟩, hcomma⟩

theorem parseList_of_written (has : ∀ a ∈ as, a.Writable) (hparts : Text.Lists Written parts as) :
    parseList (String.ofList (List.intercalate [','] parts)) = .ok as :=
  reads.readEntries_intercalate (by decide) hparts fun _ a ha hp => (has a ha).stated hp

end AllowedTaint

/-- A text of labels is accepted if and only if each entry that is not blank states one, and each
key then has the value of the last entry with that key; the error is the first entry that is amiss.
A selector whose labels can be written is read from any list of all of them, in any order and with
any repetitions, blanks around the fields and blank entries. A text of allowed taints is accepted if
and only if each entry that is not blank states one, and it says these in their order; the error is
the first entry that is amiss. Taints that can be written are read from any list of them, with any
blanks around the fields and blank entries. -/
theorem pairs_parsed_iff_stated (text : String) :
    (((∃ labels, NodeSelector.parse text = .ok labels) ↔
        ∀ p ∈ Text.pieces ',' text.toList, ¬Text.Blank p → ∃ label, NodeSelector.Stated p label) ∧
      (∀ labels, NodeSelector.parse text = .ok labels → ∀ key value,
        labels[key]? = some value ↔
          NodeSelector.LastStated (Text.pieces ',' text.toList) key value) ∧
      (∀ e, NodeSelector.parse text = .error e ↔
        Text.FirstAmiss NodeSelector.Stated (Text.pieces ',' text.toList) e.toList) ∧
      ∀ (selector : Labels) (as : List (String × String)) (parts : List (List Char)),
        (∀ key value, selector[key]? = some value → NodeSelector.Writable (key, value)) →
        (∀ key value, (key, value) ∈ as ↔ selector[key]? = some value) →
        Text.Lists NodeSelector.Written parts as →
        text = String.ofList (List.intercalate [','] parts) →
        NodeSelector.parse text = .ok selector) ∧
    ((∃ taints, AllowedTaint.parseList text = .ok taints) ↔
        ∀ p ∈ Text.pieces ',' text.toList, ¬Text.Blank p → ∃ a, AllowedTaint.Stated p a) ∧
      (∀ taints, AllowedTaint.parseList text = .ok taints ↔
        Text.Lists AllowedTaint.Stated (Text.pieces ',' text.toList) taints) ∧
      (∀ e, AllowedTaint.parseList text = .error e ↔
        Text.FirstAmiss AllowedTaint.Stated (Text.pieces ',' text.toList) e.toList) ∧
      ∀ (taints : List AllowedTaint) (parts : List (List Char)), (∀ a ∈ taints, a.Writable) →
        Text.Lists AllowedTaint.Written parts taints →
        text = String.ofList (List.intercalate [','] parts) →
        AllowedTaint.parseList text = .ok taints := by
  constructor
  · refine ⟨NodeSelector.reads.exists_map_readEntries_iff,
      fun labels h => NodeSelector.getElem?_iff_of_parse h,
      fun e => NodeSelector.reads.map_readEntries_eq_error_iff,
      fun selector as parts hselector has hparts htext => ?_⟩
    rw [htext]
    exact NodeSelector.parse_of_written hselector has hparts
  · refine ⟨AllowedTaint.reads.exists_readEntries_iff,
      fun taints => AllowedTaint.reads.readEntries_eq_ok_iff,
      fun e => AllowedTaint.reads.readEntries_eq_error_iff,
      fun taints parts htaints hparts htext => ?_⟩
    rw [htext]
    exact AllowedTaint.parseList_of_written htaints hparts

/-- The theorem for two labels, of which one is written twice and has the sign in its value, and for
three taints, of which two are the same, with blanks and blank entries in between. -/
theorem pairs_parsed_iff_stated_untidy :
    let zone := ("zone", "a=b")
    let pool := ("pool", "general")
    let selector : Labels := .ofList [pool, zone]
    let labelParts := [" zone = a=b ", "", "pool=general\t", " \n", "zone=a=b"].map String.toList
    let dedicated : AllowedTaint := ⟨"dedicated", "NoSchedule"⟩
    let gpu : AllowedTaint := ⟨"gpu", "No:Execute"⟩
    let taintParts := ["dedicated\t: NoSchedule", "  ", " gpu:No:Execute",
      "dedicated:NoSchedule"].map String.toList
    (∀ key value, selector[key]? = some value → NodeSelector.Writable (key, value)) ∧
      (∀ key value, (key, value) ∈ [zone, pool, zone] ↔ selector[key]? = some value) ∧
      Text.Lists NodeSelector.Written labelParts [zone, pool, zone] ∧
      NodeSelector.parse " zone = a=b ,,pool=general\t, \n,zone=a=b" = .ok selector ∧
      NodeSelector.LastStated labelParts "zone" "a=b" ∧
      (∀ a ∈ [dedicated, gpu, dedicated], a.Writable) ∧
      Text.Lists AllowedTaint.Written taintParts [dedicated, gpu, dedicated] ∧
      AllowedTaint.parseList "dedicated\t: NoSchedule,  , gpu:No:Execute,dedicated:NoSchedule" =
        .ok [dedicated, gpu, dedicated] := by
  intro zone pool selector labelParts dedicated gpu taintParts
  have hmem (key value : String) :
      (key, value) ∈ [zone, pool, zone] ↔ selector[key]? = some value := by
    have hiff : (key, value) ∈ [zone, pool, zone] ↔ (key, value) ∈ [pool, zone] := by grind
    rw [hiff]
    constructor
    · exact Std.ExtTreeMap.getElem?_ofList_of_mem Std.ReflCmp.compare_self (by decide)
    · intro h
      simp only [selector, Std.ExtTreeMap.ofList_eq_insertMany_empty] at h
      exact (NodeSelector.mem_of_getElem?_insertMany h).resolve_right (by simp)
  have hselector (key value : String) (h : selector[key]? = some value) :
      NodeSelector.Writable (key, value) := by
    have hall : ∀ label ∈ [zone, pool, zone], NodeSelector.Writable label := by decide +kernel
    exact hall _ ((hmem key value).mpr h)
  have hlabels : Text.Lists NodeSelector.Written labelParts [zone, pool, zone] := by
    refine .entry ⟨" zone ".toList, " a=b ".toList, ?_, ?_, rfl⟩ (.blank (by decide) (.entry
      ⟨"pool".toList, "general\t".toList, ?_, ?_, rfl⟩ (.blank (by decide) (.entry
        ⟨"zone".toList, "a=b".toList, ?_, ?_, rfl⟩ .nil))))
    all_goals exact Text.padded_of_trimChars (by decide +kernel)
  have htaints : ∀ a ∈ [dedicated, gpu, dedicated], a.Writable := by decide +kernel
  have htaintParts : Text.Lists AllowedTaint.Written taintParts [dedicated, gpu, dedicated] := by
    refine .entry ⟨"dedicated\t".toList, " NoSchedule".toList, ?_, ?_, rfl⟩ (.blank (by decide)
      (.entry ⟨" gpu".toList, "No:Execute".toList, ?_, ?_, rfl⟩ (.entry
        ⟨"dedicated".toList, "NoSchedule".toList, ?_, ?_, rfl⟩ .nil)))
    all_goals exact Text.padded_of_trimChars (by decide +kernel)
  obtain ⟨⟨-, hlast, -, hread⟩, -⟩ :=
    pairs_parsed_iff_stated " zone = a=b ,,pool=general\t, \n,zone=a=b"
  obtain ⟨-, -, -, -, hreadTaints⟩ :=
    pairs_parsed_iff_stated "dedicated\t: NoSchedule,  , gpu:No:Execute,dedicated:NoSchedule"
  have hparse := hread selector _ labelParts hselector hmem hlabels rfl
  exact ⟨hselector, hmem, hlabels, hparse,
    (hlast selector hparse "zone" "a=b").mp ((hmem _ _).mp (by simp [zone])), htaints,
    htaintParts, hreadTaints _ taintParts htaints htaintParts rfl⟩

end NodeCoverage
