import Mathlib.Data.List.DropRight
import NodeCoverage.Proofs.Check.Samples
import NodeCoverage.Proofs.Process.Meets
/-!
# The window of clean looks

Verification keeps one number: how many looks were clean since the last unclean one. It ends well at
the first look at which that number is the one required, and before that the number is smaller.
Since each look has a pause before it, coverage takes at least as many pauses as clean looks are
required.
-/

namespace NodeCoverage

open Process (Meets Reaches Rounds Yields)

/-- A pause that was not cut short lasts for its interval, or for the longest sleep. -/
theorem Process.after_le_of_pause {S : Service} {B : Behaviour S} {stop : Signal} {deadline : Nat}
    {interval : Duration} {w w' : World B} (h : Yields (pause stop deadline interval) w .over w') :
    Clock.after w.now interval ≤ w'.now := by
  have hpause : Meets .alone (fun _ => True) (pause stop deadline interval) w fun paused w' =>
      paused = .over → Clock.after w.now interval ≤ w'.now := by
    have hwait : Meets .alone (fun _ => True)
        (.abandonOn stop (.sleepUntil (min deadline (Clock.after w.now interval)))) w
        fun o w₁ => o ≠ none → min deadline (Clock.after w.now interval) ≤ w₁.now := by
      refine .abandonOn (fun _ => nofun) (fun _ _ _ => nofun) fun _ => ?_
      refine .sleepUntil (Surroundings.alone_transitive.barring stop) trivial fun w₁ _ hw₁ _ _ => ?_
      exact Nat.le_trans (Clock.le_timer _) hw₁
    refine .bind (.clock (hwait.seq fun o w₁ hw₁ => ?_))
    cases o with
    | none => exact .pure nofun
    | some _ =>
      refine .bind (.clock (.pure fun hover => ?_))
      have hw₁ := hw₁ nofun
      split at hover
      · cases hover
      · omega
  exact hpause.of_reaches (fun _ _ _ _ _ => trivial) h rfl

namespace Look

def isCancelled : Look → Bool
  | .error e => e.isCancelled
  | _ => false

end Look

namespace Verification

variable {B : Behaviour Cluster}

/-- The number of clean looks since the last unclean one, or since the first look of all. -/
def cleanSince (looks : List Look) : Nat :=
  (looks.rtakeWhile fun seen => !seen.isUnclean).countP Look.isClean

/-- No look, up to any of these, has decided how verification ends. -/
def Undecided (required : Nat) (looks : List Look) : Prop :=
  (∀ early, early <+: looks → cleanSince early < required) ∧
    ∀ seen ∈ looks, seen.isCancelled = false

/-- The last look is the first one with which there are enough clean looks. -/
def ReachesFirst (required : Nat) (looks : List Look) : Prop :=
  ∃ early seen, looks = early ++ [seen] ∧ Undecided required early ∧ cleanSince looks = required

/-! ### Counting -/

section

variable {looks : List Look} {seen : Look} {required : Nat} {l : Looks}

@[simp] theorem cleanSince_nil : cleanSince [] = 0 :=
  rfl

@[simp] theorem cleanSince_clean : cleanSince (looks ++ [.ok []]) = cleanSince looks + 1 := by
  simp [cleanSince, Look.isUnclean, Look.isClean]

@[simp] theorem cleanSince_unclean {node : String} {nodes : List String} :
    cleanSince (looks ++ [.ok (node :: nodes)]) = 0 := by
  simp [cleanSince, Look.isUnclean]

@[simp] theorem cleanSince_error {e : CheckError} :
    cleanSince (looks ++ [.error e]) = cleanSince looks := by
  simp [cleanSince, Look.isUnclean, Look.isClean]

theorem cleanSince_le_length (looks : List Look) : cleanSince looks ≤ looks.length :=
  Nat.le_trans List.countP_le_length (List.rtakeWhile_suffix _ looks).length_le

theorem undecided_nil (h : 0 < required) : Undecided required [] := by
  refine ⟨fun early hearly => ?_, nofun⟩
  rw [List.prefix_nil.mp hearly]
  exact h

theorem undecided_concat : Undecided required (looks ++ [seen]) ↔
    Undecided required looks ∧ cleanSince (looks ++ [seen]) < required ∧
      seen.isCancelled = false := by
  simp only [Undecided, List.prefix_concat_iff, or_imp, forall_and, forall_eq, List.mem_append,
    List.mem_singleton]
  tauto

theorem Undecided.cleanSince_lt (h : Undecided required looks) : cleanSince looks < required :=
  h.1 looks (List.prefix_refl looks)

theorem clean_lt_of_after {l' : Looks} (hlt : l.clean < required)
    (h : l.after required seen = .inl l') : l'.clean < required := by
  rcases Looks.after_eq_inl_iff.mp h with ⟨-, hfew, rfl⟩ | ⟨_, _, -, rfl⟩ | ⟨_, -, -, rfl⟩
  · exact hfew
  · exact Nat.zero_lt_of_lt hlt
  · exact hlt

theorem Undecided.next {l' : Looks} (h : Undecided required looks) (hl : l.clean = cleanSince looks)
    (hafter : l.after required seen = .inl l') :
    Undecided required (looks ++ [seen]) ∧ l'.clean = cleanSince (looks ++ [seen]) := by
  have hlt := clean_lt_of_after (hl ▸ h.cleanSince_lt) hafter
  have hcounted : l'.clean = cleanSince (looks ++ [seen]) ∧ seen.isCancelled = false := by
    rcases Looks.after_eq_inl_iff.mp hafter with ⟨rfl, -, rfl⟩ | ⟨_, _, rfl, rfl⟩ |
      ⟨_, rfl, he, rfl⟩
    · rw [cleanSince_clean, hl]
      exact ⟨rfl, rfl⟩
    · rw [cleanSince_unclean]
      exact ⟨rfl, rfl⟩
    · rw [hl, cleanSince_error]
      exact ⟨rfl, he⟩
  exact ⟨undecided_concat.mpr ⟨h, hcounted.1 ▸ hlt, hcounted.2⟩, hcounted.1⟩

theorem exists_after_of_undecided (hl : l.clean = cleanSince looks)
    (h : Undecided required (looks ++ [seen])) : ∃ l', l.after required seen = .inl l' := by
  obtain ⟨-, hlt, hcancelled⟩ := undecided_concat.mp h
  match seen with
  | .ok [] =>
    rw [cleanSince_clean, ← hl] at hlt
    exact ⟨_, Looks.after_eq_inl_iff.mpr (.inl ⟨rfl, hlt, rfl⟩)⟩
  | .ok (_ :: _) => exact ⟨_, Looks.after_eq_inl_iff.mpr (.inr (.inl ⟨_, _, rfl, rfl⟩))⟩
  | .error e => exact ⟨_, Looks.after_eq_inl_iff.mpr (.inr (.inr ⟨e, rfl, hcancelled, rfl⟩))⟩

theorem after_eq_ok_iff {v : Verdict} (h : Undecided required looks)
    (hl : l.clean = cleanSince looks) :
    l.after required seen = .inr (.ok v) ↔
      v = .covered ∧ cleanSince (looks ++ [seen]) = required := by
  have hlt := h.cleanSince_lt
  rw [Looks.after_eq_inr_iff]
  constructor
  · rintro (⟨rfl, henough, hv⟩ | ⟨_, -, -, hv⟩)
    · cases hv
      rw [cleanSince_clean]
      exact ⟨rfl, by omega⟩
    · cases hv
  · rintro ⟨rfl, hreached⟩
    match seen with
    | .ok [] =>
      rw [cleanSince_clean] at hreached
      exact .inl ⟨rfl, by omega, rfl⟩
    | .ok (_ :: _) =>
      rw [cleanSince_unclean] at hreached
      omega
    | .error _ =>
      rw [cleanSince_error] at hreached
      omega

end

/-! ### Rounds -/

variable {config : Config} {stop : Signal} {deadline : Nat} {set : ToleranceSet}
  {workloadName : String} {w w' : World B} {l : Looks}

theorem after_of_reaches_round {E : Surroundings B} {l' : Looks}
    (h : Reaches E (round config stop deadline set workloadName l) w (.finished (.inl l')) w') :
    ∃ seen, l.after config.stabilityTicks seen = .inl l' := by
  rcases finishes_round_iff.mp h with ⟨-, hx⟩ | ⟨-, hx⟩ | ⟨-, -, hx⟩ | ⟨_, seen, -, -, -, hx⟩
  · cases hx
  · cases hx
  · cases hx
  · exact ⟨seen, hx.symm⟩

theorem clean_lt_of_rounds {E : Surroundings B} (hrequired : 0 < config.stabilityTicks)
    (h : Rounds E (round config stop deadline set workloadName) .none w l w') :
    l.clean < config.stabilityTicks := by
  induction h with
  | none => exact hrequired
  | next _ hb ih =>
    obtain ⟨seen, hafter⟩ := after_of_reaches_round hb
    exact clean_lt_of_after ih hafter

theorem undecided_of_rounds (hrequired : 0 < config.stabilityTicks) (hf : w.fired .shutdown = false)
    (h : Rounds .alone (round config stop deadline set workloadName) .none w l w') :
    w'.fired .shutdown = false ∧ ∃ looks, Looked config stop deadline set workloadName w looks w' ∧
      Undecided config.stabilityTicks looks ∧ l.clean = cleanSince looks := by
  induction h with
  | none => exact ⟨hf, [], .none, undecided_nil hrequired, rfl⟩
  | next _ hb ih =>
    obtain ⟨hf₁, looks, hlooked, hundecided, hcounted⟩ := ih
    refine ⟨by rw [Yields.fired_eq hb, hf₁], ?_⟩
    rcases round_cases hf₁ hb with ⟨_, hx⟩ | ⟨_, seen, hpause, hlook, hx⟩
    · cases hx
    · exact ⟨looks ++ [seen], hlooked.next hpause hlook, hundecided.next hcounted hx.symm⟩

theorem Looked.fired_eq {looks : List Look} (h : Looked config stop deadline set workloadName w
    looks w') (s : Signal) : w'.fired s = w.fired s := by
  induction h with
  | none => rfl
  | next _ hpause hlook ih => rw [hlook.fired_eq, hpause.fired_eq, ih]

theorem Looked.last {looks : List Look} {seen : Look}
    (h : Looked config stop deadline set workloadName w (looks ++ [seen]) w') :
    ∃ w₁ w₂, Looked config stop deadline set workloadName w looks w₁ ∧
      Yields (Process.pause stop deadline config.pollInterval) w₁ .over w₂ ∧
      Yields (look config stop set workloadName) w₂ seen w' := by
  generalize hall : looks ++ [seen] = all at h
  cases h with
  | none => cases List.append_ne_nil_of_right_ne_nil looks (List.cons_ne_nil seen []) hall
  | next hlooked hpause hlook =>
    obtain ⟨rfl, hlast⟩ := List.append_inj' hall rfl
    cases hlast
    exact ⟨_, _, hlooked, hpause, hlook⟩

theorem yields_round {w₁ : World B} {seen : Look} (hf : w.fired .shutdown = false)
    (hpause : Yields (Process.pause stop deadline config.pollInterval) w .over w₁)
    (hlook : Yields (look config stop set workloadName) w₁ seen w') :
    Yields (round config stop deadline set workloadName l) w
      (l.after config.stabilityTicks seen) w' := by
  have hfired : w₁.fired .shutdown = false := by rw [hpause.fired_eq, hf]
  exact finishes_round_iff.mpr (.inr (.inr (.inr ⟨w₁, seen, hpause, hfired, hlook, rfl⟩)))

theorem rounds_of_undecided {looks : List Look} (hf : w.fired .shutdown = false)
    (hlooked : Looked config stop deadline set workloadName w looks w')
    (hundecided : Undecided config.stabilityTicks looks) :
    ∃ l, Rounds .alone (round config stop deadline set workloadName) .none w l w' ∧
      l.clean = cleanSince looks := by
  induction hlooked with
  | none => exact ⟨.none, .none, rfl⟩
  | next hlooked hpause hlook ih =>
    obtain ⟨l, hrounds, hl⟩ := ih (undecided_concat.mp hundecided).1
    obtain ⟨l', hafter⟩ := exists_after_of_undecided hl hundecided
    have hround := yields_round (l := l) (by rw [hlooked.fired_eq, hf]) hpause hlook
    rw [hafter] at hround
    exact ⟨l', hrounds.next hround,
      ((undecided_concat.mp hundecided).1.next hl hafter).2⟩

theorem Looked.le_now {looks : List Look}
    (h : Looked config stop deadline set workloadName w looks w') :
    w.now + looks.length * (config.pollInterval.min Clock.longestSleep).nanos ≤ w'.now := by
  induction h with
  | none => simp
  | next _ hpause hlook ih =>
    have hpaused := Process.after_le_of_pause hpause
    have hlooked := (Reaches.meanwhile hlook).2
    simp only [Clock.after, List.length_append, List.length_singleton, Nat.add_mul] at *
    omega

/-- Verification ends well exactly when a look is the first one with which there are as many clean
looks since the last unclean one as are required; a look that fails does not change their number.
Every round begins with fewer of them, and with their number in its state. It takes at least one
pause for each, of the interval that was set or of the longest sleep. -/
theorem covered_iff_reachesFirst (config : Config) (stop : Signal) (deadline : Nat)
    (set : ToleranceSet) (workloadName : String) (w : World B)
    (hrequired : 0 < config.stabilityTicks) (hf : w.fired .shutdown = false) :
    (∀ w', Yields (run config stop deadline set workloadName) w (.ok .covered) w' ↔
        ∃ looks, Looked config stop deadline set workloadName w looks w' ∧
          ReachesFirst config.stabilityTicks looks) ∧
      (∀ E l w', Rounds E (round config stop deadline set workloadName) .none w l w' →
        l.clean < config.stabilityTicks) ∧
      (∀ l w', Rounds .alone (round config stop deadline set workloadName) .none w l w' →
        ∃ looks, Looked config stop deadline set workloadName w looks w' ∧
          l.clean = cleanSince looks) ∧
      ∀ w', Yields (run config stop deadline set workloadName) w (.ok .covered) w' →
        w.now + config.stabilityTicks * (config.pollInterval.min Clock.longestSleep).nanos ≤
          w'.now := by
  have looked {w' : World B}
      (h : Yields (run config stop deadline set workloadName) w (.ok .covered) w') :
      ∃ looks, Looked config stop deadline set workloadName w looks w' ∧
        ReachesFirst config.stabilityTicks looks := by
    obtain ⟨l, w₁, hrounds, hlast⟩ := h.iterate_cases
    obtain ⟨hf₁, looks, hlooked, hundecided, hcounted⟩ := undecided_of_rounds hrequired hf hrounds
    rcases round_cases hf₁ hlast with ⟨_, hx⟩ | ⟨_, seen, hpause, hlook, hx⟩
    · cases hx
    · obtain ⟨-, hreached⟩ := (after_eq_ok_iff hundecided hcounted).mp hx.symm
      exact ⟨looks ++ [seen], hlooked.next hpause hlook, looks, seen, rfl, hundecided, hreached⟩
  refine ⟨fun w' => ⟨looked, ?_⟩, fun E l w' => clean_lt_of_rounds hrequired, fun l w' h => ?_,
    fun w' h => ?_⟩
  · rintro ⟨_, hlooked, early, seen, rfl, hundecided, hreached⟩
    obtain ⟨w₁, w₂, hbefore, hpause, hlook⟩ := hlooked.last
    obtain ⟨l, hrounds, hl⟩ := rounds_of_undecided hf hbefore hundecided
    have hround := yields_round (l := l) (by rw [hbefore.fired_eq, hf]) hpause hlook
    rw [(after_eq_ok_iff hundecided hl).mpr ⟨rfl, hreached⟩] at hround
    exact Yields.iterate_of_rounds hrounds
      (Yields.iterate_round hround (Yields.pure_iff.mpr ⟨rfl, rfl⟩))
  · obtain ⟨-, looks, hlooked, -, hcounted⟩ := undecided_of_rounds hrequired hf h
    exact ⟨looks, hlooked, hcounted⟩
  · obtain ⟨looks, hlooked, _, _, -, -, hreached⟩ := looked h
    have hlength : config.stabilityTicks ≤ looks.length := hreached ▸ cleanSince_le_length looks
    exact Nat.le_trans (Nat.add_le_add_left (Nat.mul_le_mul_right _ hlength) _) hlooked.le_now

/-! ### A cluster that shows what it was told to show -/

namespace Window

/-- There are no pods, and the listings of the nodes are these, one after the other. When there is
none left, no nodes are shown. -/
def showing : Behaviour Cluster where
  State := List (Except CheckError (List Node))
  Ticket := Unit
  start _ _ s := (.zero, (), s)
  answer _ r _ s :=
    match r with
    | .listNodes => (s.headD (.ok []), s.tail)
    | .listPods _ => (.ok [], s)
    | .listWorkloads _ _ => (.ok ⟨[], none⟩, s)
    | .createWorkload _ | .deleteWorkload _ | .deletePods _ | .deletePod _ => (.ok (), s)
    | .getPod _ => (.ok none, s)
    | .getWorkload _ => (.ok none, s)

def refused : CheckError :=
  .cluster (.api ⟨"Failure", "nodes is forbidden", "Forbidden", 403⟩)

/-- Two clean looks in a row are enough. -/
def pair : Config :=
  { Config.standard with stabilityTicks := 2 }

/-- A node comes and goes after a clean look and a listing that failed. -/
def flickering : World showing :=
  .initial [.ok [], .error refused, .ok [⟨{ name := some "late" }, none, none⟩], .ok [],
    .error refused]

/-- One clean look is enough, but it comes after a pause of sixty years. -/
def patient : Config :=
  { Config.standard with
    stabilityTicks := 1
    pollInterval := .ofSeconds (60 * 365 * 86400) }

def horizon : Nat :=
  4 * Clock.longestSleep.nanos

/-- Verification has ended well at this instant. -/
def coversAt (t : Nat) :
    Status showing (Except CheckError Verdict) × World showing → Bool
  | (.finished (.ok .covered), w) => decide (w.now = t)
  | _ => false

theorem eq_of_coversAt {t : Nat} {x : Status showing (Except CheckError Verdict) × World showing}
    (h : coversAt t x = true) : ∃ w, x = (.finished (.ok .covered), w) ∧ w.now = t := by
  unfold coversAt at h
  split at h
  · exact ⟨_, rfl, of_decide_eq_true h⟩
  · cases h

end Window

/-- The theorem for a look that fails between two clean ones, and for one before an unclean one. -/
theorem covered_iff_reachesFirst_flickering : 0 < Window.pair.stabilityTicks ∧
    Window.flickering.fired .shutdown = false ∧ ∃ w',
      Yields (run Window.pair .run Window.horizon .empty "probe") Window.flickering
        (.ok .covered) w' ∧
      w'.now = (Duration.ofSeconds 6).nanos ∧ ∃ looks,
        Looked Window.pair .run Window.horizon .empty "probe" Window.flickering looks w' ∧
        ReachesFirst 2 looks := by
  obtain ⟨w', hr, hnow⟩ := Window.eq_of_coversAt (t := (Duration.ofSeconds 6).nanos)
    (x := (Suspended.ready (run Window.pair .run Window.horizon .empty "probe")).runUntil 200 none
      20 Window.flickering) (by decide +kernel)
  have hyields := Yields.of_runUntil hr
  exact ⟨by decide, rfl, w', hyields, hnow, ((covered_iff_reachesFirst Window.pair .run
    Window.horizon .empty "probe" Window.flickering (by decide) rfl).1 w').mp hyields⟩

/-- Since no sleep is longer than thirty years, coverage may come before the pauses that were set
are over. -/
theorem not_always_covered_after_pauses : ¬ ∀ (B : Behaviour Cluster) (config : Config)
    (stop : Signal) (deadline : Nat) (set : ToleranceSet) (workloadName : String) (w w' : World B),
    0 < config.stabilityTicks → w.fired .shutdown = false →
    Yields (run config stop deadline set workloadName) w (.ok .covered) w' →
    w.now + config.stabilityTicks * config.pollInterval.nanos ≤ w'.now := by
  intro h
  obtain ⟨w', hr, hnow⟩ := Window.eq_of_coversAt (t := Clock.longestSleep.nanos)
    (x := (Suspended.ready (run Window.patient .run Window.horizon .empty "probe")).runUntil 200
      none 20 (.initial [])) (by decide +kernel)
  have hlate := h Window.showing Window.patient .run Window.horizon .empty "probe"
    (.initial []) w' (by decide) rfl (Yields.of_runUntil hr)
  rw [hnow] at hlate
  revert hlate
  decide +kernel

end Verification
end NodeCoverage
