import NodeCoverage.Check.Arguments
import NodeCoverage.Proofs.Check.Labels
import NodeCoverage.Proofs.Check.Timely
import NodeCoverage.Proofs.Text.Integer
/-!
# Which arguments are accepted

The arguments of a run are accepted exactly if they are sound: the numbers are large enough, the
name is not blank, the lists can be read, and a deadline leaves time for the run. The budget is then
positive, and together with the time kept for teardown it fills the time to the deadline, no
nanosecond more or less. A deadline that comes too early is refused, however early it is.
-/

namespace NodeCoverage

theorem exists_bind_ok_iff {ε α β : Type} {x : Except ε α} {f : α → Except ε β} :
    (∃ b, x >>= f = .ok b) ↔ ∃ a, x = .ok a ∧ ∃ b, f a = .ok b := by
  cases x with
  | error e =>
    constructor
    · rintro ⟨_, ⟨⟩⟩
    · rintro ⟨_, ⟨⟩, _⟩
  | ok a =>
    constructor
    · exact fun h => ⟨a, rfl, h⟩
    · rintro ⟨_, ⟨⟩, h⟩
      exact h

theorem exists_map_ok_iff {ε α β : Type} {x : Except ε α} {f : α → β} :
    (∃ b, f <$> x = .ok b) ↔ ∃ a, x = .ok a := by
  cases x with
  | error e =>
    constructor
    · rintro ⟨_, ⟨⟩⟩
    · rintro ⟨_, ⟨⟩⟩
  | ok a => exact ⟨fun _ => ⟨a, rfl⟩, fun _ => ⟨f a, rfl⟩⟩

/-! ### Lists of entries -/

namespace Text

theorem exists_readEntries_iff {α : Type} {sep : Char} {read : List Char → Option α} {s : String} :
    (∃ as, readEntries sep read s = .ok as) ↔ ∀ e ∈ entries sep s, (read e).isSome = true := by
  unfold readEntries
  induction entries sep s with
  | nil => exact ⟨fun _ => nofun, fun _ => ⟨[], rfl⟩⟩
  | cons e rest ih =>
    rw [List.forall_mem_cons, ← ih, List.mapM_cons, exists_bind_ok_iff]
    cases read e with
    | none => simp
    | some a =>
      simp only [Except.ok.injEq, exists_eq_left', Option.isSome_some, true_and]
      rw [exists_bind_ok_iff]
      constructor
      · rintro ⟨as, h, -⟩
        exact ⟨as, h⟩
      · rintro ⟨as, h⟩
        exact ⟨as, h, _, rfl⟩

theorem entries_of_blank {sep : Char} {s : String} (hsep : isBlank sep = false)
    (h : blank s = true) : entries sep s = [] := by
  have hs : ∀ c ∈ s.toList, isBlank c = true := List.all_eq_true.mp h
  have hmem : sep ∉ s.toList := fun hmem => by simp [hs sep hmem] at hsep
  simp [entries, pieces_of_not_mem hmem, trimChars_eq_nil_iff.mpr hs]

end Text

/-! ### Deadlines -/

namespace WorldTime

/-- The moment lies in a supported year. -/
structure Supported (t : WorldTime) : Prop where
  lower : -8334601228800 ≤ t.seconds
  upper : t.seconds ≤ 8210266876799
  nanos : t.nanos < 2 * 1000000000

variable {t now : WorldTime} {seconds : Int}

theorem since_of_nanos_lt (h : now.nanos < 1000000000) : (WorldTime.mk seconds 0).since now =
    (seconds - now.seconds) * 1000000000 - now.nanos := by
  have hleap : leapBetween ⟨seconds, 0⟩ now = 0 := by
    simp [leapBetween, leap, Nat.div_eq_of_lt h]
  simp only [since, hleap, Int.ofNat_eq_natCast]
  omega

theorem Supported.natAbs_since_le (ht : t.Supported) (hnow : now.Supported) :
    (t.since now).natAbs ≤ (Nat.pow 2 63 - 1) * 1000000 := by
  obtain ⟨htl, htu, htn⟩ := ht
  obtain ⟨hl, hu, hn⟩ := hnow
  have hleap : -1 ≤ leapBetween t now ∧ leapBetween t now ≤ 1 := by
    have hleap_t : t.leap ≤ 1 := by
      rw [leap]
      omega
    have hleap_now : now.leap ≤ 1 := by
      rw [leap]
      omega
    rw [leapBetween]
    split
    · omega
    · split
      · simp only [Int.ofNat_eq_natCast]
        omega
      · omega
  simp only [since, Int.ofNat_eq_natCast, Nat.pow_eq]
  omega

end WorldTime

/-- A deadline in seconds since 1970 began: the text denotes it, apart from the blanks around it,
and its year is supported. -/
structure Deadline (text : String) (seconds : Int) : Prop where
  denotes : Text.Denotes (Text.trim text).toList seconds
  supported : (WorldTime.mk seconds 0).Supported

namespace Environment

theorem parseDeadline_eq_ok_iff {text : String} {t : WorldTime} :
    parseDeadline text = .ok t ↔ ∃ seconds, Deadline text seconds ∧ t = ⟨seconds, 0⟩ := by
  constructor
  · intro h
    rw [parseDeadline] at h
    split at h
    · cases h
    · next seconds hread =>
      split at h
      · next ht =>
        cases h
        rw [WorldTime.ofSeconds?, Option.ite_none_right_eq_some] at ht
        obtain ⟨⟨hlower, hupper⟩, ht⟩ := ht
        exact ⟨seconds, ⟨(Text.readInt64_eq_ok_iff.mp hread).1, hlower, hupper, by simp⟩,
          (Option.some.inj ht).symm⟩
      · cases h
  · rintro ⟨seconds, ⟨hdenotes, hlower, hupper, -⟩, rfl⟩
    dsimp only at hlower hupper
    have hread : Text.readInt64 (Text.trim text) = .ok seconds := by
      refine Text.readInt64_eq_ok_iff.mpr ⟨hdenotes, ?_, ?_⟩ <;>
      · simp only [Nat.pow_eq]
        omega
    simp only [parseDeadline, hread, WorldTime.ofSeconds?, if_pos (And.intro hlower hupper)]

end Environment

namespace Deadline

variable {text : String} {seconds : Int}

@[simp] theorem trim_iff : Deadline (Text.trim text) seconds ↔ Deadline text seconds := by
  constructor <;>
  · rintro ⟨hdenotes, hsupported⟩
    exact ⟨by simpa [Text.trim_trim] using hdenotes, hsupported⟩

theorem blank_eq_false (h : Deadline text seconds) : Text.blank text = false := by
  rw [← Bool.not_eq_true, Text.blank_eq_true_iff]
  intro hblank
  have hdenotes := h.denotes
  rw [hblank] at hdenotes
  cases hdenotes with
  | unsigned hnumeral => exact hnumeral.ne_nil rfl

end Deadline

/-! ### Sound arguments -/

namespace Arguments

/-- The arguments are sound apart from the deadline. -/
structure Sound (args : Arguments) : Prop where
  shutdownGracePeriod : (Duration.ofSeconds 1).nanos ≤ args.shutdownGracePeriod.nanos
  readyStabilityTicks : 1 ≤ args.readyStabilityTicks
  pollInterval : args.pollInterval.nanos ≠ 0
  podRedeleteInterval : args.podRedeleteInterval.nanos ≠ 0
  removalPollInterval : args.removalPollInterval.nanos ≠ 0
  checkTimeLimit : args.checkTimeLimit.nanos ≠ 0
  baseName : Text.blank args.baseName = false
  tolerations : ∀ text, args.tolerations = some text →
    ∀ e ∈ Text.entries ';' text, (Tolerance.ofEntry? e).isSome = true
  allowedTaints : ∀ text, args.allowedTaints = some text →
    ∀ e ∈ Text.entries ',' text, (AllowedTaint.ofEntry? e).isSome = true
  nodeSelector : ∀ text, args.nodeSelector = some text →
    ∀ e ∈ Text.entries ',' text, (NodeSelector.ofEntry? e).isSome = true

/-- The arguments are sound, and at this moment a deadline that is not blank leaves time for the
run. -/
structure Acceptable (args : Arguments) (now : WorldTime) : Prop extends Sound args where
  runDeadline : ∀ text, args.runDeadline = some text → Text.blank text = false →
    ∃ seconds, Deadline text seconds ∧
      0 < (WorldTime.mk seconds 0).since now - args.shutdownGracePeriod.nanos

end Arguments

namespace Config

variable {args : Arguments} {now : WorldTime} {config : Config} {text : String} {grace d : Duration}

theorem budgetUntil_eq_ok_iff : budgetUntil text now grace = .ok d ↔
    ∃ seconds, Deadline text seconds ∧ 0 < d.nanos ∧
      (WorldTime.mk seconds 0).since now = d.nanos + grace.nanos := by
  constructor
  · intro h
    obtain ⟨t, hparse, hsum⟩ := Lifecycle.budgetUntil_add h
    obtain ⟨seconds, hdeadline, rfl⟩ := Environment.parseDeadline_eq_ok_iff.mp hparse
    refine ⟨seconds, hdeadline, ?_, hsum.symm⟩
    simp only [budgetUntil, hparse] at h
    split at h
    · cases h
      simp only [Int.ofNat_eq_natCast] at *
      omega
    · cases h
  · rintro ⟨seconds, hdeadline, hpos, hsince⟩
    have hparse := Environment.parseDeadline_eq_ok_iff.mpr ⟨seconds, hdeadline, rfl⟩
    have hleft : (WorldTime.mk seconds 0).since now - Int.ofNat grace.nanos = d.nanos := by
      simp only [Int.ofNat_eq_natCast]
      omega
    simp only [budgetUntil, hparse, hleft]
    rw [if_pos (Int.natCast_pos.mpr hpos), Int.toNat_natCast]

theorem budgetUntil_of_le {seconds : Int} (hdeadline : Deadline text seconds)
    (h : (WorldTime.mk seconds 0).since now - grace.nanos ≤ 0) :
    budgetUntil text now grace = .error (.noTimeLeft ⟨seconds, 0⟩ grace) := by
  have hparse := Environment.parseDeadline_eq_ok_iff.mpr ⟨seconds, hdeadline, rfl⟩
  simp only [budgetUntil, hparse]
  exact if_neg (Int.not_lt.mpr h)

theorem budget_of_deadline (htext : args.runDeadline = some text) (h : Text.blank text = false) :
    budget args now = budgetUntil (Text.trim text) now args.shutdownGracePeriod := by
  simp [budget, htext, h]

theorem budget_of_no_deadline
    (h : ∀ text, args.runDeadline = some text → Text.blank text = true) :
    budget args now = .ok args.checkTimeLimit := by
  rw [budget]
  split
  · rfl
  · next text htext => rw [if_pos (h text htext)]

/-! ### What is checked -/

theorem basicFault?_eq_none_iff : basicFault? args = none ↔
    1000000000 ≤ args.shutdownGracePeriod.nanos ∧ 1 ≤ args.readyStabilityTicks ∧
      (∀ i ∈ intervals args, i.2.nanos ≠ 0) ∧ Text.blank args.baseName = false := by
  constructor
  · intro h
    rw [basicFault?] at h
    split at h
    · cases h
    · next hgrace =>
      split at h
      · cases h
      · next hticks =>
        split at h
        · cases h
        · next hfind =>
          split at h
          · cases h
          · next hname =>
            refine ⟨by omega, by omega, fun i hi => ?_, by simpa using hname⟩
            simpa using List.find?_eq_none.mp hfind i hi
  · rintro ⟨hgrace, hticks, hintervals, hname⟩
    have hfind : (intervals args).find? (fun i => i.2.nanos = 0) = none :=
      List.find?_eq_none.mpr fun i hi => by simpa using hintervals i hi
    rw [basicFault?, if_neg (by omega), if_neg (by omega), hfind]
    simp [hname]

theorem exists_readList_iff {α : Type} {absent : α} {fault : String → ConfigFault}
    {parse : String → Except String α} {given : Option String} :
    (∃ x, readList absent fault parse given = .ok x) ↔
      ∀ text, given = some text → ∃ x, parse text = .ok x := by
  cases given with
  | none => exact ⟨fun _ => nofun, fun _ => ⟨absent, rfl⟩⟩
  | some text =>
    simp only [readList, Option.some.injEq, forall_eq']
    cases parse text with
    | error e =>
      constructor
      · rintro ⟨_, ⟨⟩⟩
      · rintro ⟨_, ⟨⟩⟩
    | ok x => exact ⟨fun _ => ⟨x, rfl⟩, fun _ => ⟨x, rfl⟩⟩

theorem exists_readTolerations_iff {given : Option String} :
    (∃ x, readList none .tolerations (fun s => some <$> ToleranceSet.parse s)
      (given.filter fun s => !Text.blank s) = .ok x) ↔
      ∀ text, given = some text →
        ∀ e ∈ Text.entries ';' text, (Tolerance.ofEntry? e).isSome = true := by
  simp only [exists_readList_iff, ToleranceSet.parse, exists_map_ok_iff,
    Text.exists_readEntries_iff, Option.filter_eq_some_iff]
  constructor
  · intro h text htext e he
    cases hblank : Text.blank text with
    | false => exact h text ⟨htext, by simp [hblank]⟩ e he
    | true =>
      rw [Text.entries_of_blank (by decide) hblank] at he
      cases he
  · exact fun h text htext => h text htext.1

theorem exists_ofArguments_iff : (∃ config, ofArguments args now = .ok config) ↔
    basicFault? args = none ∧ (∃ d, budget args now = .ok d) ∧
    (∃ x, readList none .tolerations (fun s => some <$> ToleranceSet.parse s)
      (args.tolerations.filter fun s => !Text.blank s) = .ok x) ∧
    (∃ x, readList [] .allowedTaints AllowedTaint.parseList args.allowedTaints = .ok x) ∧
    ∃ x, readList ∅ .nodeSelector NodeSelector.parse args.nodeSelector = .ok x := by
  simp only [ofArguments]
  cases basicFault? args with
  | some f =>
    constructor
    · rintro ⟨_, ⟨⟩⟩
    · rintro ⟨⟨⟩, -⟩
  | none =>
    simp only [true_and, exists_bind_ok_iff]
    constructor
    · rintro ⟨d, hbudget, x, htolerations, y, htaints, z, hselector, -⟩
      exact ⟨⟨d, hbudget⟩, ⟨x, htolerations⟩, ⟨y, htaints⟩, z, hselector⟩
    · rintro ⟨⟨d, hbudget⟩, ⟨x, htolerations⟩, ⟨y, htaints⟩, z, hselector⟩
      exact ⟨d, hbudget, x, htolerations, y, htaints, z, hselector, _, rfl⟩

theorem exists_budget_iff : (∃ d, budget args now = .ok d) ↔
    ∀ text, args.runDeadline = some text → Text.blank text = false → ∃ seconds,
      Deadline text seconds ∧
        0 < (WorldTime.mk seconds 0).since now - args.shutdownGracePeriod.nanos := by
  constructor
  · rintro ⟨d, h⟩ text htext hblank
    rw [budget_of_deadline htext hblank, budgetUntil_eq_ok_iff] at h
    obtain ⟨seconds, hdeadline, hpos, hsince⟩ := h
    exact ⟨seconds, Deadline.trim_iff.mp hdeadline, by omega⟩
  · intro h
    cases htext : args.runDeadline with
    | none => exact ⟨_, budget_of_no_deadline (by simp [htext])⟩
    | some text =>
      cases hblank : Text.blank text with
      | true => exact ⟨_, budget_of_no_deadline (by simp [htext, hblank])⟩
      | false =>
        obtain ⟨seconds, hdeadline, hleft⟩ := h text htext hblank
        refine ⟨⟨((WorldTime.mk seconds 0).since now - args.shutdownGracePeriod.nanos).toNat⟩, ?_⟩
        rw [budget_of_deadline htext hblank, budgetUntil_eq_ok_iff]
        refine ⟨seconds, Deadline.trim_iff.mpr hdeadline, ?_, ?_⟩ <;>
        · dsimp only
          omega

theorem sound_iff : args.Sound ↔ basicFault? args = none ∧
    (∃ x, readList none .tolerations (fun s => some <$> ToleranceSet.parse s)
      (args.tolerations.filter fun s => !Text.blank s) = .ok x) ∧
    (∃ x, readList [] .allowedTaints AllowedTaint.parseList args.allowedTaints = .ok x) ∧
    ∃ x, readList ∅ .nodeSelector NodeSelector.parse args.nodeSelector = .ok x := by
  rw [exists_readTolerations_iff]
  simp only [basicFault?_eq_none_iff, exists_readList_iff, AllowedTaint.parseList,
    NodeSelector.parse, exists_map_ok_iff, Text.exists_readEntries_iff, intervals,
    List.forall_mem_cons, List.not_mem_nil, false_implies, implies_true, and_true]
  constructor
  · intro h
    exact ⟨⟨h.shutdownGracePeriod, h.readyStabilityTicks, ⟨h.pollInterval, h.podRedeleteInterval,
      h.removalPollInterval, h.checkTimeLimit⟩, h.baseName⟩, h.tolerations, h.allowedTaints,
      h.nodeSelector⟩
  · rintro ⟨⟨hgrace, hticks, ⟨hpoll, hredelete, hremoval, hlimit⟩, hname⟩, htolerations, htaints,
      hselector⟩
    exact ⟨hgrace, hticks, hpoll, hredelete, hremoval, hlimit, hname, htolerations, htaints,
      hselector⟩

theorem exists_ofArguments_iff_acceptable :
    (∃ config, ofArguments args now = .ok config) ↔ args.Acceptable now := by
  rw [exists_ofArguments_iff, exists_budget_iff]
  constructor
  · rintro ⟨hbasic, hbudget, hlists⟩
    exact ⟨sound_iff.mpr ⟨hbasic, hlists⟩, hbudget⟩
  · rintro ⟨hsound, hbudget⟩
    obtain ⟨hbasic, hlists⟩ := sound_iff.mp hsound
    exact ⟨hbasic, hbudget, hlists⟩

/-! ### The budget -/

/-- The times of a configuration fit each other and the arguments that it was made from. A moment in
a leap second is not on the line of counted seconds; from any other one the budget and the time for
teardown go on this line exactly to the deadline. -/
structure Fits (config : Config) (args : Arguments) (now : WorldTime) : Prop where
  shutdownGracePeriod : config.shutdownGracePeriod = args.shutdownGracePeriod
  pos : 0 < config.runBudget.nanos
  deadline : ∀ text, args.runDeadline = some text → Text.blank text = false →
    ∃ seconds, Deadline text seconds ∧
      (WorldTime.mk seconds 0).since now =
        config.runBudget.nanos + config.shutdownGracePeriod.nanos ∧
      (now.nanos < 1000000000 →
        now.seconds * 1000000000 + now.nanos + config.runBudget.nanos +
          config.shutdownGracePeriod.nanos = seconds * 1000000000)
  timeLimit : (∀ text, args.runDeadline = some text → Text.blank text = true) →
    config.runBudget = args.checkTimeLimit
  preCleanupTimeout : config.preCleanupTimeout.nanos =
    min args.preCleanupTimeout.nanos config.runBudget.nanos

theorem fits_of_ofArguments (h : ofArguments args now = .ok config) : config.Fits args now := by
  obtain ⟨hbudget, hgrace, hcleanup⟩ := Lifecycle.ofArguments_budget h
  have hsound := (exists_ofArguments_iff_acceptable.mp ⟨config, h⟩).toSound
  have hlimit (hgiven : ∀ text, args.runDeadline = some text → Text.blank text = true) :
      config.runBudget = args.checkTimeLimit := by
    rw [budget_of_no_deadline hgiven] at hbudget
    exact (Except.ok.inj hbudget).symm
  have hdeadline (text : String) (htext : args.runDeadline = some text)
      (hblank : Text.blank text = false) : ∃ seconds, Deadline text seconds ∧
        0 < config.runBudget.nanos ∧ (WorldTime.mk seconds 0).since now =
          config.runBudget.nanos + config.shutdownGracePeriod.nanos := by
    rw [budget_of_deadline htext hblank, budgetUntil_eq_ok_iff] at hbudget
    obtain ⟨seconds, hdeadline, hpos, hsince⟩ := hbudget
    exact ⟨seconds, Deadline.trim_iff.mp hdeadline, hpos, hgrace ▸ hsince⟩
  refine ⟨hgrace, ?_, fun text htext hblank => ?_, hlimit, ?_⟩
  · by_cases hgiven : ∃ text, args.runDeadline = some text ∧ Text.blank text = false
    · obtain ⟨text, htext, hblank⟩ := hgiven
      obtain ⟨seconds, -, hpos, -⟩ := hdeadline text htext hblank
      exact hpos
    · rw [hlimit fun text htext => by simpa using fun hblank => hgiven ⟨text, htext, hblank⟩]
      exact Nat.pos_of_ne_zero hsound.checkTimeLimit
  · obtain ⟨seconds, hdeadline, -, hsince⟩ := hdeadline text htext hblank
    refine ⟨seconds, hdeadline, hsince, fun hnanos => ?_⟩
    rw [WorldTime.since_of_nanos_lt hnanos] at hsince
    omega
  · rw [hcleanup]
    exact Duration.nanos_min ..

end Config

/-- Arguments are accepted if and only if they are sound and a deadline leaves time for the run. The
times of the configuration then fit each other: there is a budget, and it fills the time to the
deadline together with the time for teardown. Otherwise sound arguments with a deadline that comes
too early are refused for that reason, and no difference of a deadline to a supported moment leaves
the range of signed milliseconds of 64 bits. -/
theorem accepted_iff_acceptable (args : Arguments) (now : WorldTime) :
    ((∃ config, Config.ofArguments args now = .ok config) ↔ args.Acceptable now) ∧
      (∀ config, Config.ofArguments args now = .ok config → config.Fits args now) ∧
      ∀ text seconds, args.runDeadline = some text → Deadline text seconds →
        (args.Sound → (WorldTime.mk seconds 0).since now - args.shutdownGracePeriod.nanos ≤ 0 →
          Config.ofArguments args now =
            .error (.noTimeLeft ⟨seconds, 0⟩ args.shutdownGracePeriod)) ∧
        (now.Supported →
          ((WorldTime.mk seconds 0).since now).natAbs ≤ (Nat.pow 2 63 - 1) * 1000000) := by
  refine ⟨Config.exists_ofArguments_iff_acceptable, fun config => Config.fits_of_ofArguments,
    fun text seconds htext hdeadline => ⟨fun hsound hleft => ?_, fun hnow => ?_⟩⟩
  · have hbudget : Config.budget args now =
        .error (.noTimeLeft ⟨seconds, 0⟩ args.shutdownGracePeriod) := by
      rw [Config.budget_of_deadline htext hdeadline.blank_eq_false]
      exact Config.budgetUntil_of_le (Deadline.trim_iff.mpr hdeadline) hleft
    simp only [Config.ofArguments, (Config.sound_iff.mp hsound).1, hbudget]
    rfl
  · exact hdeadline.supported.natAbs_since_le hnow

/-- The theorem for a deadline that leaves a single nanosecond, and for one that comes a second
earlier. -/
theorem accepted_iff_acceptable_nanosecond :
    let now : WorldTime := ⟨1700000000, 999999999⟩
    let args : Arguments := { Arguments.standard with
      runDeadline := some " +1700000061 ", nodeSelector := some "pool = general, " }
    let late : Arguments := { Arguments.standard with runDeadline := some "1700000060" }
    args.Acceptable now ∧
      (∃ config, Config.ofArguments args now = .ok config ∧ config.Fits args now ∧
        config.runBudget.nanos = 1 ∧ config.preCleanupTimeout.nanos = 1) ∧
      late.Sound ∧ Deadline "1700000060" 1700000060 ∧ now.Supported ∧
      Config.ofArguments late now = .error (.noTimeLeft ⟨1700000060, 0⟩ (.ofSeconds 60)) ∧
      ((WorldTime.mk 1700000060 0).since now).natAbs ≤ (Nat.pow 2 63 - 1) * 1000000 := by
  intro now args late
  have hbudget : (Config.ofArguments args now).toOption.map (·.runBudget.nanos) = some 1 := by
    decide +kernel
  obtain ⟨config, hconfig, hone⟩ := Option.map_eq_some_iff.mp hbudget
  have hok : Config.ofArguments args now = .ok config := by
    cases h : Config.ofArguments args now with
    | error e => rw [h] at hconfig; cases hconfig
    | ok c => rw [h] at hconfig; cases hconfig; rfl
  have hparse : Environment.parseDeadline "1700000060" = .ok ⟨1700000060, 0⟩ := rfl
  obtain ⟨seconds, hdeadline, hseconds⟩ := Environment.parseDeadline_eq_ok_iff.mp hparse
  cases hseconds
  have hsound : late.Sound :=
    ⟨by decide, by decide, by decide, by decide, by decide, by decide, by decide, nofun, nofun,
      nofun⟩
  have hnow : now.Supported := ⟨by decide, by decide, by decide⟩
  obtain ⟨hiff, hfits, -⟩ := accepted_iff_acceptable args now
  obtain ⟨-, -, hlate⟩ := accepted_iff_acceptable late now
  obtain ⟨hrefused, hbounded⟩ := hlate _ _ rfl hdeadline
  have hfit := hfits config hok
  refine ⟨hiff.mp ⟨config, hok⟩, ⟨config, hok, hfit, hone, ?_⟩, hsound, hdeadline, hnow,
    hrefused hsound (by decide), hbounded hnow⟩
  rw [hfit.preCleanupTimeout, hone]
  rfl

end NodeCoverage
