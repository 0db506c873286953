import NodeCoverage.Proofs.Check.Removal
/-!
# What a teardown has confirmed

A teardown ends well exactly if it has seen what it claims: both deletions succeeded, later a
listing of the run's pods was empty, and after that a listing of the workloads was followed to its
last page without showing the workload. Listings that failed, and walks that broke off, are only
passed on the way. A wait for the pods that is given up names the pods of the last listing that
succeeded.
-/

namespace NodeCoverage
namespace Teardown

open Process (Finishes Rounds Yields)

variable {B : Behaviour Cluster}

section Definitions

variable (E : Surroundings B) (config : Config) (stop : Signal) (deadline : Nat)
  (workloadName : String)

/-- Listings of the pods since `w`, none of which was the last, and when the pods were last
deleted. After each of them the deadline had not come and the signal had not fired. -/
inductive Polled (w : World B) : List (Except CheckError (List Pod)) → Nat → World B → Prop
  | none : Polled w [] w.now w
  | next {listings : List (Except CheckError (List Pod))} {listing : Except CheckError (List Pod)}
      {t t' : Nat} {w₁ w₂ w₃ w₄ : World B} :
    Polled w listings t w₁ → ListsPods E config stop workloadName w₁ listing w₂ →
    Inconclusive listing → Redeletes E config stop workloadName t w₂ t' w₃ →
    Finishes E (Process.pause stop deadline config.removalPollInterval) w₃ .over w₄ →
    Polled w (listings ++ [listing]) t' w₄

/-- Walks over the workloads since `w`, none of which was the last, each with a pause after it. -/
inductive Sought (w : World B) : World B → Prop
  | none : Sought w w
  | next {found : Except CheckError Bool} {w₁ w₂ w₃ : World B} :
    Sought w w₁ → Looked E config stop workloadName w₁ found w₂ →
    (found = .ok true ∨ ∃ e, found = .error e ∧ e.isCancelled = false) →
    Finishes E (Process.pause stop deadline config.removalPollInterval) w₂ .over w₃ → Sought w w₃

/-- What a teardown has seen that may say that the run is gone. -/
def Confirmed (w w' : World B) : Prop :=
  ∃ w₁ w₂ w₃ w₄ w₅ listings t pages,
    Finishes E (Cluster.call stop config.apiBackoff (.deleteWorkload workloadName)) w (.ok ()) w₁ ∧
    Finishes E (Cluster.call stop config.apiBackoff
      (.deletePods (Labels.runSelector workloadName))) w₁ (.ok ()) w₂ ∧
    Polled E config stop deadline workloadName w₂ listings t w₃ ∧
    ListsPods E config stop workloadName w₃ (.ok []) w₄ ∧
    Sought E config stop deadline workloadName w₄ w₅ ∧
    Walked E config stop workloadName w₅ pages w' ∧ ∀ page ∈ pages, ¬ Shows page workloadName

/-- The pods of the last listing that succeeded, in words. -/
def outstanding (listings : List (Except CheckError (List Pod))) : String :=
  match (listings.filterMap Except.toOption).getLast? with
  | none => "unknown"
  | some pods => String.intercalate ", " (pods.map Pod.describe)

/-- How the wait for the pods is given up. -/
inductive GivenUp (w : World B) : CheckError → World B → Prop
  | cancelled {listings : List (Except CheckError (List Pod))} {e : CheckError} {t : Nat}
      {w₁ w' : World B} :
    Polled E config stop deadline workloadName w listings t w₁ →
    ListsPods E config stop workloadName w₁ (.error e) w' → e.isCancelled = true →
    GivenUp w (.cancelled ("pod removal (" ++ outstanding (listings ++ [.error e]) ++ ")")) w'
  | stopped {listings : List (Except CheckError (List Pod))}
      {listing : Except CheckError (List Pod)} {t t' : Nat} {w₁ w₂ w₃ w' : World B} :
    Polled E config stop deadline workloadName w listings t w₁ →
    ListsPods E config stop workloadName w₁ listing w₂ → Inconclusive listing →
    Redeletes E config stop workloadName t w₂ t' w₃ →
    Finishes E (Process.pause stop deadline config.removalPollInterval) w₃ .stopped w' →
    w'.fired stop = true →
    GivenUp w (.cancelled ("teardown (" ++
      ("pods still present: " ++ outstanding (listings ++ [listing])) ++ ")")) w'
  | overdue {listings : List (Except CheckError (List Pod))}
      {listing : Except CheckError (List Pod)} {t t' : Nat} {w₁ w₂ w₃ w' : World B} :
    Polled E config stop deadline workloadName w listings t w₁ →
    ListsPods E config stop workloadName w₁ listing w₂ → Inconclusive listing →
    Redeletes E config stop workloadName t w₂ t' w₃ →
    Finishes E (Process.pause stop deadline config.removalPollInterval) w₃ .overdue w' →
    deadline ≤ w'.now →
    GivenUp w (.timeout "teardown" ("pods still present: " ++
      outstanding (listings ++ [listing]))) w'

/-- How teardown is given up when its time is over: it says which pods the last successful listing
showed, or that the workload was not seen to be absent. -/
inductive TimedOut (w : World B) : String → World B → Prop
  | pods {names : String} {w₁ w' : World B} :
    Finishes E (remove config stop workloadName) w (.ok ()) w₁ →
    GivenUp E config stop deadline workloadName w₁ (.timeout "teardown" names) w' →
    TimedOut w names w'
  | workload {found : Except CheckError Bool} {w₁ w₂ w₃ w₄ w' : World B} :
    Finishes E (remove config stop workloadName) w (.ok ()) w₁ →
    Finishes E (awaitPods config stop deadline workloadName) w₁ (.ok ()) w₂ →
    Sought E config stop deadline workloadName w₂ w₃ →
    Looked E config stop workloadName w₃ found w₄ →
    (found = .ok true ∨ ∃ e, found = .error e ∧ e.isCancelled = false) →
    Finishes E (Process.pause stop deadline config.removalPollInterval) w₄ .overdue w' →
    deadline ≤ w'.now → TimedOut w ("workload " ++ workloadName ++ " still present") w'

end Definitions

variable {E : Surroundings B} {config : Config} {stop : Signal} {deadline : Nat}
  {workloadName : String} {w w' : World B}

/-! ### The pods -/

def remaining (listings : List (Except CheckError (List Pod))) : List Pod :=
  ((listings.filterMap Except.toOption).getLast?).getD []

theorem remaining_concat (listings : List (Except CheckError (List Pod)))
    (listing : Except CheckError (List Pod)) :
    remaining (listings ++ [listing]) = listing.toOption.getD (remaining listings) := by
  cases listing <;> simp [remaining, Except.toOption]

theorem Polled.inconclusive {listings : List (Except CheckError (List Pod))} {t : Nat}
    (h : Polled E config stop deadline workloadName w listings t w') :
    ∀ listing ∈ listings, Inconclusive listing := by
  induction h with
  | none => exact nofun
  | next _ _ hopen _ _ ih => simpa [or_imp, forall_and] using ⟨ih, hopen⟩

/-- As long as no listing was empty, having no pods in mind means that no listing succeeded. -/
theorem describeAll_remaining {listings : List (Except CheckError (List Pod))}
    (h : .ok [] ∉ listings) : Pod.describeAll (remaining listings) = outstanding listings := by
  unfold remaining outstanding
  cases hlast : (listings.filterMap Except.toOption).getLast? with
  | none => rfl
  | some pods =>
    obtain ⟨listing, hmem, hpods⟩ := List.mem_filterMap.mp (List.mem_of_getLast? hlast)
    have hne : pods ≠ [] := by
      rintro rfl
      cases listing with
      | ok => cases hpods; exact h hmem
      | error e => cases hpods
    simp [Pod.describeAll, hne]

theorem Polled.describeAll_remaining {listings : List (Except CheckError (List Pod))}
    {listing : Except CheckError (List Pod)} {t : Nat}
    (h : Polled E config stop deadline workloadName w listings t w') (hlast : listing ≠ .ok []) :
    Pod.describeAll (remaining (listings ++ [listing])) = outstanding (listings ++ [listing]) := by
  apply Teardown.describeAll_remaining
  intro hmem
  rcases List.mem_append.mp hmem with hmem | hmem
  · exact (h.inconclusive _ hmem).ne_nil rfl
  · exact hlast (List.mem_singleton.mp hmem).symm

theorem rounds_podRound_iff {l : Lingering} :
    Rounds E (podRound config stop deadline workloadName) ⟨w.now, []⟩ w l w' ↔
      ∃ listings, Polled E config stop deadline workloadName w listings l.lastDelete w' ∧
        l.remaining = remaining listings := by
  constructor
  · intro h
    induction h with
    | none => exact ⟨[], .none, rfl⟩
    | next _ hround ih =>
      obtain ⟨listings, hpolled, hremaining⟩ := ih
      obtain ⟨listing, w₃, hlist, ⟨_, _, hx, _⟩ |
        ⟨hopen, t, w₄, how, hdelete, hpause, hx⟩⟩ := finishes_podRound_iff.mp hround
      · cases hx
      · cases how with
        | stopped | overdue => cases hx
        | «over» =>
          cases hx
          refine ⟨listings ++ [listing], hpolled.next hlist hopen hdelete hpause, ?_⟩
          rw [remaining_concat, hremaining]
  · rintro ⟨listings, hpolled, hremaining⟩
    obtain ⟨t, pods⟩ := l
    subst hremaining
    dsimp only at hpolled
    induction hpolled with
    | none => exact .none
    | next _ hlist hopen hdelete hpause ih =>
      refine .next ih (finishes_podRound_iff.mpr
        ⟨_, _, hlist, .inr ⟨hopen, _, _, .over, hdelete, hpause, ?_⟩⟩)
      rw [remaining_concat]
      rfl

theorem finishes_awaitPods_ok_iff :
    Finishes E (awaitPods config stop deadline workloadName) w (.ok ()) w' ↔ ∃ listings t w₁,
      Polled E config stop deadline workloadName w listings t w₁ ∧
        ListsPods E config stop workloadName w₁ (.ok []) w' := by
  unfold awaitPods
  rw [Finishes.clock_bind_iff, Finishes.iterate_iff]
  constructor
  · rintro ⟨l, w₁, hrounds, hround⟩
    obtain ⟨listings, hpolled, -⟩ := rounds_podRound_iff.mp hrounds
    exact ⟨listings, _, w₁, hpolled, finishes_podRound_ok_iff.mp hround⟩
  · rintro ⟨listings, t, w₁, hpolled, hlist⟩
    exact ⟨⟨t, remaining listings⟩, w₁, rounds_podRound_iff.mpr ⟨_, hpolled, rfl⟩,
      finishes_podRound_ok_iff.mpr hlist⟩

theorem finishes_awaitPods_error_iff {e : CheckError} :
    Finishes E (awaitPods config stop deadline workloadName) w (.error e) w' ↔
      GivenUp E config stop deadline workloadName w e w' := by
  unfold awaitPods
  rw [Finishes.clock_bind_iff, Finishes.iterate_iff]
  constructor
  · rintro ⟨l, w₁, hrounds, hround⟩
    obtain ⟨listings, hpolled, hremaining⟩ := rounds_podRound_iff.mp hrounds
    obtain ⟨listing, w₂, hlist, ⟨_, hafter, hx, rfl⟩ | ⟨hopen, t, w₃, how, hdelete, hpause, hx⟩⟩ :=
      finishes_podRound_iff.mp hround
    · cases hx
      rcases afterListing_eq_inr_iff.mp hafter with ⟨-, ho⟩ | ⟨e₁, rfl, he₁, ho⟩
      · cases ho
      · have hfailed : (.error e₁ : Except CheckError (List Pod)) ≠ .ok [] := nofun
        have hnames := hpolled.describeAll_remaining hfailed
        rw [remaining_concat] at hnames
        cases ho
        rw [hremaining]
        exact hnames ▸ .cancelled hpolled hlist he₁
    · have hnames := hpolled.describeAll_remaining hopen.ne_nil
      rw [remaining_concat, ← hremaining] at hnames
      rw [hnames] at hx
      rcases hpause.pause_cases with ⟨rfl, hfired⟩ | ⟨rfl, hlate⟩ | ⟨rfl, -⟩
      · cases hx
        exact .stopped hpolled hlist hopen hdelete hpause hfired
      · cases hx
        exact .overdue hpolled hlist hopen hdelete hpause hlate
      · cases hx
  · intro h
    cases h with
    | @cancelled _ e₁ _ _ _ hpolled hlist he =>
      have hfailed : (.error e₁ : Except CheckError (List Pod)) ≠ .ok [] := nofun
      have hnames := hpolled.describeAll_remaining hfailed
      rw [remaining_concat] at hnames
      refine ⟨⟨_, remaining _⟩, _, rounds_podRound_iff.mpr ⟨_, hpolled, rfl⟩, ?_⟩
      exact finishes_podRound_iff.mpr ⟨_, w', hlist, .inl ⟨_,
        afterListing_eq_inr_iff.mpr (.inr ⟨_, rfl, he, rfl⟩), by rw [← hnames]; rfl, rfl⟩⟩
    | stopped hpolled hlist hopen hdelete hpause _ | overdue hpolled hlist hopen hdelete hpause _ =>
      have hnames := hpolled.describeAll_remaining hopen.ne_nil
      rw [remaining_concat] at hnames
      refine ⟨⟨_, remaining _⟩, _, rounds_podRound_iff.mpr ⟨_, hpolled, rfl⟩, ?_⟩
      refine finishes_podRound_iff.mpr ⟨_, _, hlist, .inr ⟨hopen, _, _, _, hdelete, hpause, ?_⟩⟩
      rw [hnames]
      rfl

/-! ### The workload -/

theorem rounds_parentRound_iff : Rounds E (parentRound config stop deadline workloadName) () w () w'
    ↔ Sought E config stop deadline workloadName w w' := by
  constructor
  · intro h
    generalize hu : () = u at h
    clear hu
    induction h with
    | none => exact .none
    | next _ hround ih =>
      obtain ⟨found, w₃, hlooked, ⟨-, hx, -⟩ | ⟨_, -, -, hx, -⟩ | ⟨hopen, how, hpause, hx⟩⟩ :=
        finishes_parentRound_iff.mp hround
      · cases hx
      · cases hx
      · cases how with
        | stopped | overdue => cases hx
        | «over» => exact ih.next hlooked hopen hpause
  · intro h
    induction h with
    | none => exact .none
    | next _ hlooked hopen hpause ih => exact .next ih (finishes_parentRound_iff.mpr
        ⟨_, _, hlooked, .inr (.inr ⟨hopen, .over, hpause, rfl⟩)⟩)

theorem finishes_awaitParent_ok_iff :
    Finishes E (awaitParent config stop deadline workloadName) w (.ok ()) w' ↔ ∃ w₁ pages,
      Sought E config stop deadline workloadName w w₁ ∧
        Walked E config stop workloadName w₁ pages w' ∧
          ∀ page ∈ pages, ¬ Shows page workloadName := by
  unfold awaitParent
  rw [Finishes.iterate_iff]
  constructor
  · rintro ⟨⟨⟩, w₁, hrounds, hround⟩
    cases finishes_parentRound_ok_iff.mp hround with
    | absent hwalked hpages =>
      exact ⟨w₁, _, rounds_parentRound_iff.mp hrounds, hwalked, hpages⟩
  · rintro ⟨w₁, pages, hsought, hwalked, hpages⟩
    exact ⟨(), w₁, rounds_parentRound_iff.mpr hsought,
      finishes_parentRound_ok_iff.mpr (.absent hwalked hpages)⟩

/-- A timeout is the cluster's own answer to a deletion, or teardown was given up so. -/
theorem timedOut_of_finishes {what names : String}
    (h : Finishes E (run config stop deadline workloadName) w (.error (.timeout what names)) w') :
    Finishes E (remove config stop workloadName) w (.error (.timeout what names)) w' ∨
      what = "teardown" ∧ TimedOut E config stop deadline workloadName w names w' := by
  rcases finishes_run_iff.mp h with ⟨_, hremove, ⟨⟩⟩ | ⟨w₁, hremove, ⟨_, hpods, ⟨⟩⟩ |
    ⟨w₂, hpods, hparent⟩⟩
  · exact .inl hremove
  · have hgiven := finishes_awaitPods_error_iff.mp hpods
    cases hgiven with
    | overdue hpolled hlist hopen hdelete hpause hlate =>
      exact .inr ⟨rfl, .pods hremove (.overdue hpolled hlist hopen hdelete hpause hlate)⟩
  · obtain ⟨⟨⟩, w₃, hrounds, hround⟩ := Finishes.iterate_iff.mp hparent
    obtain ⟨found, w₄, hlooked, ⟨-, hx, -⟩ | ⟨e, rfl, he, hx, -⟩ | ⟨hopen, how, hpause, hx⟩⟩ :=
      finishes_parentRound_iff.mp hround
    · cases hx
    · cases hx
      cases he
    · rcases hpause.pause_cases with ⟨rfl, -⟩ | ⟨rfl, hlate⟩ | ⟨rfl, -⟩
      · cases hx
      · cases hx
        exact .inr ⟨rfl, .workload hremove hpods (rounds_parentRound_iff.mp hrounds) hlooked hopen
          hpause hlate⟩
      · cases hx

/-- A teardown ends well if and only if it has confirmed what that means, step by step. If it gives
up waiting for the pods instead, it says which pods the last successful listing showed. -/
theorem ok_iff_confirmed_and_names_outstanding :
    (Finishes E (run config stop deadline workloadName) w (.ok ()) w' ↔
      Confirmed E config stop deadline workloadName w w') ∧
    ∀ w₂, Finishes E (remove config stop workloadName) w (.ok ()) w₂ → ∀ e,
      (Finishes E (awaitPods config stop deadline workloadName) w₂ (.error e) w' ↔
        GivenUp E config stop deadline workloadName w₂ e w') ∧
      (GivenUp E config stop deadline workloadName w₂ e w' →
        Finishes E (run config stop deadline workloadName) w (.error e) w') := by
  refine ⟨⟨fun h => ?_, ?_⟩, fun w₂ hremove e => ⟨finishes_awaitPods_error_iff, fun hgiven => ?_⟩⟩
  · obtain ⟨w₁, w₂, w₄, hdelete, hdeletePods, hpods, hparent⟩ := finishes_run_ok_iff.mp h
    obtain ⟨listings, t, w₃, hpolled, hlist⟩ := finishes_awaitPods_ok_iff.mp hpods
    obtain ⟨w₅, pages, hsought, hwalked, hpages⟩ := finishes_awaitParent_ok_iff.mp hparent
    exact ⟨w₁, w₂, w₃, w₄, w₅, listings, t, pages, hdelete, hdeletePods, hpolled, hlist, hsought,
      hwalked, hpages⟩
  · rintro ⟨w₁, w₂, w₃, w₄, w₅, listings, t, pages, hdelete, hdeletePods, hpolled, hlist, hsought,
      hwalked, hpages⟩
    exact finishes_run_ok_iff.mpr ⟨w₁, w₂, w₄, hdelete, hdeletePods,
      finishes_awaitPods_ok_iff.mpr ⟨listings, t, w₃, hpolled, hlist⟩,
      finishes_awaitParent_ok_iff.mpr ⟨w₅, pages, hsought, hwalked, hpages⟩⟩
  · exact finishes_run_iff.mpr (.inr ⟨w₂, hremove, .inl
      ⟨e, finishes_awaitPods_error_iff.mpr hgiven, rfl⟩⟩)

/-! ### A cluster that answers as it is told to -/

namespace Confirmation

/-- The pods and the pages of workloads are listed like this, one listing after the other. -/
def telling : Behaviour Cluster where
  State := List (Except CheckError (List Pod)) × List (Except CheckError Cluster.Page)
  Ticket := Unit
  start _ _ s := (.zero, (), s)
  answer _ r _ s :=
    match r with
    | .listNodes => (.ok [], s)
    | .listPods _ => (s.1.headD (.ok []), s.1.tail, s.2)
    | .listWorkloads _ _ => (s.2.headD (.ok ⟨[], none⟩), s.1, s.2.tail)
    | .createWorkload _ | .deleteWorkload _ | .deletePods _ | .deletePod _ => (.ok (), s)
    | .getPod _ => (.ok none, s)
    | .getWorkload _ => (.ok none, s)

def refused : CheckError :=
  .cluster (.api ⟨"Failure", "list is forbidden", "Forbidden", 403⟩)

def lingering : Pod :=
  ⟨{ name := some "probe-a" }, some { nodeName := some "node-a" }, none⟩

/-- One pod lingers, and listings of both kinds fail. -/
def flaky : World telling :=
  .initial ([.ok [lingering], .error refused, .ok []],
    [.ok ⟨[], some "2"⟩, .error refused, .ok ⟨[], some "2"⟩, .ok ⟨[], none⟩])

/-- The pod lingers, and no listing after the first succeeds. -/
def stuck : World telling :=
  .initial ([.ok [lingering], .error refused, .error refused], [])

def struck : World telling :=
  ((Suspended.ready (remove .standard .run "probe")).runUntil 200 none 20 stuck).2

end Confirmation

open Confirmation in
/-- The theorem for a teardown that comes to its end past listings that fail, and for one that finds
no time to. -/
theorem ok_iff_confirmed_and_names_outstanding_flaky :
    (∃ w', Finishes .alone (run .standard .run (Duration.ofSeconds 60).nanos "probe") flaky
        (.ok ()) w' ∧
      Confirmed .alone .standard .run (Duration.ofSeconds 60).nanos "probe" flaky w') ∧
    ∃ w' e, Finishes .alone (remove .standard .run "probe") stuck (.ok ()) struck ∧
      e = .timeout "teardown" "pods still present: probe-a on node-a" ∧
      GivenUp .alone .standard .run (Duration.ofSeconds 1).nanos "probe" struck e w' ∧
      Finishes .alone (run .standard .run (Duration.ofSeconds 1).nanos "probe") stuck
        (.error e) w' := by
  constructor
  · have hrun : Finishes .alone (run .standard .run (Duration.ofSeconds 60).nanos "probe") flaky
        (.ok ()) _ :=
      Yields.of_endsWith 200 20 (by decide +kernel)
    exact ⟨_, hrun, ok_iff_confirmed_and_names_outstanding.1.mp hrun⟩
  · have hremove : Finishes .alone (remove .standard .run "probe") stuck (.ok ()) struck :=
      Yields.of_endsWith 200 20 (by decide +kernel)
    have hpods : Finishes .alone (awaitPods .standard .run (Duration.ofSeconds 1).nanos "probe")
        struck (.error (.timeout "teardown" "pods still present: probe-a on node-a")) _ :=
      Yields.of_endsWith 200 20 (by decide +kernel)
    have hgiven := (ok_iff_confirmed_and_names_outstanding.2 struck hremove _).1.mp hpods
    exact ⟨_, _, hremove, rfl, hgiven,
      (ok_iff_confirmed_and_names_outstanding.2 struck hremove _).2 hgiven⟩

end Teardown
end NodeCoverage
