import NodeCoverage.Check.Teardown
import NodeCoverage.Proofs.Process.Yields
/-!
# Teardown step by step

What a round of each wait of a teardown comes to, and what a walk over the pages of the workloads
shows. Left alone, teardown that does not fail has deleted the workload and its pods, has then seen
a listing with no pod of the run, and after that every page of a listing of the run's workloads, on
none of which the workload was.
-/

namespace NodeCoverage
namespace Teardown

open Process (Finishes Rounds Yields)

variable {B : Behaviour Cluster}

def Shows (page : Cluster.Page) (workloadName : String) : Prop :=
  ∃ x ∈ page.items, x.metadata.name = some workloadName

section Definitions

variable (E : Surroundings B) (config : Config) (stop : Signal) (deadline : Nat)
  (workloadName : String)

def ListsPods (w : World B) (listing : Except CheckError (List Pod)) (w' : World B) : Prop :=
  Finishes E (Cluster.call stop config.apiBackoff (.listPods (Labels.runSelector workloadName)))
    w listing w'

def ListsPage (token : Option String) (w : World B) (listing : Except CheckError Cluster.Page)
    (w' : World B) : Prop :=
  Finishes E (Cluster.call stop config.apiBackoff
    (.listWorkloads (Labels.runSelector workloadName) token)) w listing w'

/-- A listing of the pods that leaves it open whether they are gone. -/
def Inconclusive : Except CheckError (List Pod) → Prop
  | .ok pods => pods ≠ []
  | .error e => e.isCancelled = false

/-- The deletion of the pods is repeated if it is time to, whatever comes of it. -/
inductive Redeletes (lastDelete : Nat) (w : World B) : Nat → World B → Prop
  | due {outcome : Except CheckError Unit} {w' : World B} :
    config.podRedeleteInterval.nanos ≤ w.now - lastDelete →
    Finishes E (deletePods config stop workloadName) w outcome w' →
    Redeletes lastDelete w w'.now w'
  | early : w.now - lastDelete < config.podRedeleteInterval.nanos →
    Redeletes lastDelete w lastDelete w

/-- Pages read one after the other since `w`, and the token of the page after them. -/
inductive Turned (w : World B) : List Cluster.Page → Option String → World B → Prop
  | none : Turned w [] none w
  | next {pages : List Cluster.Page} {page : Cluster.Page} {token : Option String} {next : String}
      {w₁ w₂ : World B} :
    Turned w pages token w₁ → ListsPage E config stop workloadName token w₁ (.ok page) w₂ →
    page.next = some next → Turned w (pages ++ [page]) (some next) w₂

/-- All pages of a listing of the workloads, from the first one to the last. -/
def Walked (w : World B) (pages : List Cluster.Page) (w' : World B) : Prop :=
  ∃ before last token w₁, pages = before ++ [last] ∧
    Turned E config stop workloadName w before token w₁ ∧
    ListsPage E config stop workloadName token w₁ (.ok last) w' ∧ last.next = none

/-- What a walk over the workloads has shown: that the workload is not there, that it is, or
nothing. -/
inductive Looked (w : World B) : Except CheckError Bool → World B → Prop
  | absent {pages : List Cluster.Page} {w' : World B} :
    Walked E config stop workloadName w pages w' → (∀ page ∈ pages, ¬ Shows page workloadName) →
    Looked w (.ok false) w'
  | shown {pages : List Cluster.Page} {page : Cluster.Page} {token : Option String}
      {w₁ w' : World B} :
    Turned E config stop workloadName w pages token w₁ →
    (∀ page ∈ pages, ¬ Shows page workloadName) →
    ListsPage E config stop workloadName token w₁ (.ok page) w' → Shows page workloadName →
    Looked w (.ok true) w'
  | failed {pages : List Cluster.Page} {token : Option String} {e : CheckError} {w₁ w' : World B} :
    Turned E config stop workloadName w pages token w₁ →
    (∀ page ∈ pages, ¬ Shows page workloadName) →
    ListsPage E config stop workloadName token w₁ (.error e) w' → Looked w (.error e) w'

end Definitions

/-- Every page of a listing of the run's workloads, from the token on to the last one. -/
inductive Leafed (config : Config) (stop : Signal) (workloadName : String) :
    Option String → World B → List Cluster.Page → World B → Prop
  | last {token : Option String} {page : Cluster.Page} {w w' : World B} :
    Yields (Cluster.call stop config.apiBackoff
      (.listWorkloads (Labels.runSelector workloadName) token)) w (.ok page) w' →
    page.next = none → Leafed config stop workloadName token w [page] w'
  | next {token : Option String} {next : String} {page : Cluster.Page} {pages : List Cluster.Page}
      {w w₁ w' : World B} :
    Yields (Cluster.call stop config.apiBackoff
      (.listWorkloads (Labels.runSelector workloadName) token)) w (.ok page) w₁ →
    page.next = some next → Leafed config stop workloadName (some next) w₁ pages w' →
      Leafed config stop workloadName token w (page :: pages) w'

/-- The steps of a teardown that has come to its end. -/
def Steps (config : Config) (stop : Signal) (deadline : Nat) (workloadName : String)
    (w w' : World B) : Prop :=
  ∃ w₁ w₂ w₃ w₄ w₅ l pages,
    Yields (Cluster.call stop config.apiBackoff (.deleteWorkload workloadName)) w (.ok ()) w₁ ∧
    Yields (deletePods config stop workloadName) w₁ (.ok ()) w₂ ∧
    Rounds .alone (podRound config stop deadline workloadName) ⟨w₂.now, []⟩ w₂ l w₃ ∧
    Yields (Cluster.call stop config.apiBackoff (.listPods (Labels.runSelector workloadName)))
      w₃ (.ok []) w₄ ∧
    Rounds .alone (parentRound config stop deadline workloadName) () w₄ () w₅ ∧
    Leafed config stop workloadName none w₅ pages w' ∧
    ∀ page ∈ pages, ¬ Shows page workloadName

variable {E : Surroundings B} {config : Config} {stop : Signal} {deadline : Nat}
  {workloadName : String} {w w' : World B}

/-! ### Pauses -/

/-- What a pause makes of a wait, in which `s` is where to go on. -/
def afterPause {σ α : Type} (s : σ) (outstanding : String) : Pause → σ ⊕ Except CheckError α
  | .stopped => .inr (.error (.cancelled ("teardown (" ++ outstanding ++ ")")))
  | .overdue => .inr (.error (.timeout "teardown" outstanding))
  | .over => .inl s

theorem finishes_pause_iff {outstanding : String} {x : Except CheckError Unit} :
    Finishes E (pause config stop deadline outstanding) w x w' ↔ ∃ how,
      Finishes E (Process.pause stop deadline config.removalPollInterval) w how w' ∧
        x = (afterPause () outstanding how).elim .ok id := by
  unfold pause
  rw [Finishes.bind_iff]
  constructor
  · rintro ⟨how, w₁, hpause, h⟩
    refine ⟨how, ?_⟩
    cases how <;> · obtain ⟨rfl, rfl⟩ := Finishes.pure_iff.mp h; exact ⟨hpause, rfl⟩
  · rintro ⟨how, hpause, rfl⟩
    refine ⟨how, w', hpause, ?_⟩
    cases how <;> exact Finishes.pure_iff.mpr ⟨rfl, rfl⟩

/-! ### The pods -/

theorem Inconclusive.ne_nil {listing : Except CheckError (List Pod)} (h : Inconclusive listing) :
    listing ≠ .ok [] := by
  rintro rfl
  exact h rfl

theorem finishes_deleteAgain_iff {l l' : Lingering} :
    Finishes E (deleteAgain config stop workloadName l) w l' w' ↔
      ∃ t, Redeletes E config stop workloadName l.lastDelete w t w' ∧
        l' = { l with lastDelete := t } := by
  unfold deleteAgain
  rw [Finishes.clock_bind_iff]
  split
  · next hdue =>
    simp only [Finishes.bind_iff, Finishes.clock_iff, Finishes.pure_iff]
    constructor
    · rintro ⟨outcome, w₁, hdelete, _, _, ⟨rfl, rfl⟩, rfl, rfl⟩
      exact ⟨_, .due hdue hdelete, rfl⟩
    · rintro ⟨t, ⟨-, hdelete⟩ | hearly, rfl⟩
      · exact ⟨_, w', hdelete, _, _, ⟨rfl, rfl⟩, rfl, rfl⟩
      · omega
  · next hearly =>
    rw [Finishes.pure_iff]
    constructor
    · rintro ⟨rfl, rfl⟩
      exact ⟨_, .early (by omega), rfl⟩
    · rintro ⟨t, hdue | hearly, rfl⟩
      · exact absurd hdue hearly
      · exact ⟨rfl, rfl⟩

theorem afterListing_eq_inl_iff {l l₁ : Lingering} {listing : Except CheckError (List Pod)} :
    afterListing l listing = .inl l₁ ↔
      Inconclusive listing ∧ l₁ = ⟨l.lastDelete, listing.toOption.getD l.remaining⟩ := by
  rcases listing with e | _ | ⟨pod, pods⟩
  · cases he : e.isCancelled with
    | true => simp [afterListing, Inconclusive, he]
    | false => simpa [afterListing, Inconclusive, he, Except.toOption] using eq_comm
  · simp [afterListing, Inconclusive]
  · simp [afterListing, Inconclusive, Except.toOption, eq_comm]

theorem afterListing_eq_inr_iff {l : Lingering} {listing : Except CheckError (List Pod)}
    {outcome : Except CheckError Unit} : afterListing l listing = .inr outcome ↔
      (listing = .ok [] ∧ outcome = .ok ()) ∨ ∃ e, listing = .error e ∧ e.isCancelled = true ∧
        outcome = .error (.cancelled ("pod removal (" ++ Pod.describeAll l.remaining ++ ")")) := by
  rcases listing with e | _ | ⟨pod, pods⟩
  · cases he : e.isCancelled with
    | true => simpa [afterListing, he] using eq_comm
    | false => simp [afterListing, he]
  · simpa [afterListing] using eq_comm
  · simp [afterListing]

theorem finishes_podRound_iff {l : Lingering} {x : Lingering ⊕ Except CheckError Unit} :
    Finishes E (podRound config stop deadline workloadName l) w x w' ↔ ∃ listing w₁,
      ListsPods E config stop workloadName w listing w₁ ∧
      ((∃ outcome, afterListing l listing = .inr outcome ∧ x = .inr outcome ∧ w' = w₁) ∨
        Inconclusive listing ∧ ∃ t w₂ how,
          Redeletes E config stop workloadName l.lastDelete w₁ t w₂ ∧
          Finishes E (Process.pause stop deadline config.removalPollInterval) w₂ how w' ∧
          x = afterPause ⟨t, listing.toOption.getD l.remaining⟩ ("pods still present: " ++
            Pod.describeAll (listing.toOption.getD l.remaining)) how) := by
  unfold podRound
  rw [Finishes.bind_iff]
  refine exists_congr fun listing => exists_congr fun w₁ => and_congr_right fun _ => ?_
  cases hafter : afterListing l listing with
  | inr outcome =>
    have hclosed : ¬ Inconclusive listing := by
      intro hopen
      rw [afterListing_eq_inl_iff.mpr ⟨hopen, rfl⟩] at hafter
      cases hafter
    simp [hclosed]
  | inl l₁ =>
    obtain ⟨hopen, rfl⟩ := afterListing_eq_inl_iff.mp hafter
    simp only [Finishes.bind_iff, finishes_deleteAgain_iff, finishes_pause_iff]
    constructor
    · rintro ⟨_, w₂, ⟨t, hdelete, rfl⟩, x, w₃, ⟨how, hpause, rfl⟩, h⟩
      refine .inr ⟨hopen, t, w₂, how, hdelete, ?_⟩
      cases how <;> · obtain ⟨rfl, rfl⟩ := Finishes.pure_iff.mp h; exact ⟨hpause, rfl⟩
    · rintro (⟨_, h, -⟩ | ⟨-, t, w₂, how, hdelete, hpause, rfl⟩)
      · cases h
      · refine ⟨_, w₂, ⟨t, hdelete, rfl⟩, _, w', ⟨how, hpause, rfl⟩, ?_⟩
        cases how <;> exact Finishes.pure_iff.mpr ⟨rfl, rfl⟩

theorem afterListing_ok {l : Lingering} {listing : Except CheckError (List Pod)}
    (h : afterListing l listing = .inr (.ok ())) : listing = .ok [] := by
  rcases afterListing_eq_inr_iff.mp h with ⟨rfl, -⟩ | ⟨_, -, -, ho⟩
  · rfl
  · cases ho

theorem finishes_podRound_ok_iff {l : Lingering} :
    Finishes E (podRound config stop deadline workloadName l) w (.inr (.ok ())) w' ↔
      ListsPods E config stop workloadName w (.ok []) w' := by
  rw [finishes_podRound_iff]
  constructor
  · rintro ⟨listing, w₁, hlist, ⟨_, hafter, hx, rfl⟩ | ⟨-, _, _, how, -, -, hx⟩⟩
    · cases hx
      rwa [afterListing_ok hafter] at hlist
    · cases how <;> cases hx
  · exact fun hlist => ⟨_, w', hlist, .inl ⟨_, rfl, rfl, rfl⟩⟩

/-! ### The workload -/

theorem finishes_presencePage_iff {token : Option String}
    {x : Option String ⊕ Except CheckError Bool} :
    Finishes E (presencePage config stop workloadName token) w x w' ↔
      (∃ e, ListsPage E config stop workloadName token w (.error e) w' ∧ x = .inr (.error e)) ∨
      ∃ page, ListsPage E config stop workloadName token w (.ok page) w' ∧
        ((Shows page workloadName ∧ x = .inr (.ok true)) ∨
          ¬ Shows page workloadName ∧ x = page.next.elim (.inr (.ok false)) (.inl ∘ some)) := by
  unfold presencePage
  rw [Finishes.bind_iff]
  constructor
  · rintro ⟨listing, w₁, hlist, h⟩
    cases listing with
    | error e =>
      obtain ⟨rfl, rfl⟩ := Finishes.pure_iff.mp h
      exact .inl ⟨e, hlist, rfl⟩
    | ok page =>
      refine .inr ⟨page, ?_⟩
      dsimp only at h
      split at h
      · next hshows =>
        obtain ⟨rfl, rfl⟩ := Finishes.pure_iff.mp h
        exact ⟨hlist, .inl ⟨by simpa [Shows] using hshows, rfl⟩⟩
      · next hshows =>
        have hshows : ¬ Shows page workloadName := by simpa [Shows] using hshows
        cases hnext : page.next <;>
        · rw [hnext] at h
          obtain ⟨rfl, rfl⟩ := Finishes.pure_iff.mp h
          exact ⟨hlist, .inr ⟨hshows, rfl⟩⟩
  · rintro (⟨e, hlist, rfl⟩ | ⟨page, hlist, ⟨hshows, rfl⟩ | ⟨hshows, rfl⟩⟩)
    · exact ⟨_, w', hlist, Finishes.pure_iff.mpr ⟨rfl, rfl⟩⟩
    · refine ⟨_, w', hlist, ?_⟩
      dsimp only
      rw [if_pos (by simpa [Shows] using hshows)]
      exact Finishes.pure_iff.mpr ⟨rfl, rfl⟩
    · refine ⟨_, w', hlist, ?_⟩
      dsimp only
      rw [if_neg (by simpa [Shows] using hshows)]
      cases page.next <;> exact Finishes.pure_iff.mpr ⟨rfl, rfl⟩

theorem rounds_presencePage_iff {token : Option String} :
    Rounds E (presencePage config stop workloadName) none w token w' ↔
      ∃ pages, Turned E config stop workloadName w pages token w' ∧
        ∀ page ∈ pages, ¬ Shows page workloadName := by
  constructor
  · intro h
    induction h with
    | none => exact ⟨[], .none, nofun⟩
    | next _ hround ih =>
      obtain ⟨pages, hturned, hpages⟩ := ih
      rcases finishes_presencePage_iff.mp hround with
        ⟨_, -, hx⟩ | ⟨page, hlist, ⟨-, hx⟩ | ⟨hshows, hx⟩⟩
      · cases hx
      · cases hx
      · cases hnext : page.next with
        | none => rw [hnext] at hx; cases hx
        | some next =>
          rw [hnext] at hx
          cases hx
          refine ⟨pages ++ [page], hturned.next hlist hnext, ?_⟩
          simpa [or_imp, forall_and] using ⟨hpages, hshows⟩
  · rintro ⟨pages, hturned, hpages⟩
    induction hturned with
    | none => exact .none
    | next _ hlist hnext ih =>
      simp only [List.mem_append, List.mem_singleton, or_imp, forall_and, forall_eq] at hpages
      refine .next (ih hpages.1) (finishes_presencePage_iff.mpr (.inr ⟨_, hlist, .inr ?_⟩))
      rw [hnext]
      exact ⟨hpages.2, rfl⟩

theorem finishes_present_iff {found : Except CheckError Bool} :
    Finishes E (present config stop workloadName) w found w' ↔
      Looked E config stop workloadName w found w' := by
  unfold present
  rw [Finishes.iterate_iff]
  constructor
  · rintro ⟨token, w₁, hrounds, hround⟩
    obtain ⟨pages, hturned, hpages⟩ := rounds_presencePage_iff.mp hrounds
    rcases finishes_presencePage_iff.mp hround with
      ⟨_, hlist, hx⟩ | ⟨page, hlist, ⟨hshows, hx⟩ | ⟨hshows, hx⟩⟩
    · cases hx
      exact .failed hturned hpages hlist
    · cases hx
      exact .shown hturned hpages hlist hshows
    · cases hnext : page.next with
      | none =>
        rw [hnext] at hx
        cases hx
        refine .absent ⟨pages, page, token, w₁, rfl, hturned, hlist, hnext⟩ ?_
        simpa [or_imp, forall_and] using ⟨hpages, hshows⟩
      | some next => rw [hnext] at hx; cases hx
  · rintro (⟨⟨before, last, token, w₁, rfl, hturned, hlist, hnext⟩, hpages⟩ |
      ⟨hturned, hpages, hlist, hshows⟩ | ⟨hturned, hpages, hlist⟩)
    · simp only [List.mem_append, List.mem_singleton, or_imp, forall_and, forall_eq] at hpages
      refine ⟨token, w₁, rounds_presencePage_iff.mpr ⟨before, hturned, hpages.1⟩, ?_⟩
      refine finishes_presencePage_iff.mpr (.inr ⟨last, hlist, .inr ?_⟩)
      rw [hnext]
      exact ⟨hpages.2, rfl⟩
    · exact ⟨_, _, rounds_presencePage_iff.mpr ⟨_, hturned, hpages⟩,
        finishes_presencePage_iff.mpr (.inr ⟨_, hlist, .inl ⟨hshows, rfl⟩⟩)⟩
    · exact ⟨_, _, rounds_presencePage_iff.mpr ⟨_, hturned, hpages⟩,
        finishes_presencePage_iff.mpr (.inl ⟨_, hlist, rfl⟩)⟩

theorem finishes_wait_iff {x : Unit ⊕ Except CheckError Unit} :
    Finishes E (parentRound.wait config stop deadline workloadName) w x w' ↔ ∃ how,
      Finishes E (Process.pause stop deadline config.removalPollInterval) w how w' ∧
        x = afterPause () ("workload " ++ workloadName ++ " still present") how := by
  unfold parentRound.wait
  simp only [Finishes.bind_iff, finishes_pause_iff]
  constructor
  · rintro ⟨_, w₁, ⟨how, hpause, rfl⟩, h⟩
    refine ⟨how, ?_⟩
    cases how <;> · obtain ⟨rfl, rfl⟩ := Finishes.pure_iff.mp h; exact ⟨hpause, rfl⟩
  · rintro ⟨how, hpause, rfl⟩
    refine ⟨_, w', ⟨how, hpause, rfl⟩, ?_⟩
    cases how <;> exact Finishes.pure_iff.mpr ⟨rfl, rfl⟩

theorem finishes_parentRound_iff {u : Unit} {x : Unit ⊕ Except CheckError Unit} :
    Finishes E (parentRound config stop deadline workloadName u) w x w' ↔ ∃ found w₁,
      Looked E config stop workloadName w found w₁ ∧
        ((found = .ok false ∧ x = .inr (.ok ()) ∧ w' = w₁) ∨
          (∃ e, found = .error e ∧ e.isCancelled = true ∧ x = .inr (.error e) ∧ w' = w₁) ∨
          (found = .ok true ∨ ∃ e, found = .error e ∧ e.isCancelled = false) ∧ ∃ how,
            Finishes E (Process.pause stop deadline config.removalPollInterval) w₁ how w' ∧
              x = afterPause () ("workload " ++ workloadName ++ " still present") how) := by
  unfold parentRound
  simp only [Finishes.bind_iff, finishes_present_iff]
  refine exists_congr fun found => exists_congr fun w₁ => and_congr_right fun _ => ?_
  rcases found with e | _ | _
  · cases he : e.isCancelled <;> simp [he, finishes_wait_iff]
  · simp
  · simp [finishes_wait_iff]

theorem finishes_parentRound_ok_iff {u : Unit} :
    Finishes E (parentRound config stop deadline workloadName u) w (.inr (.ok ())) w' ↔
      Looked E config stop workloadName w (.ok false) w' := by
  rw [finishes_parentRound_iff]
  constructor
  · rintro ⟨found, w₁, hlooked, ⟨rfl, -, rfl⟩ | ⟨_, -, -, hx, -⟩ | ⟨-, how, -, hx⟩⟩
    · exact hlooked
    · cases hx
    · cases how <;> cases hx
  · exact fun hlooked => ⟨_, w', hlooked, .inl ⟨rfl, rfl, rfl⟩⟩

theorem Turned.leafed {pages rest : List Cluster.Page} {token : Option String} {w₁ : World B}
    (h : Turned .alone config stop workloadName w pages token w₁)
    (hrest : Leafed config stop workloadName token w₁ rest w') :
    Leafed config stop workloadName .none w (pages ++ rest) w' := by
  induction h generalizing rest with
  | none => exact hrest
  | next _ hlist hnext ih =>
    rw [List.append_assoc]
    exact ih (.next hlist hnext hrest)

theorem Walked.leafed {pages : List Cluster.Page}
    (h : Walked .alone config stop workloadName w pages w') :
    Leafed config stop workloadName none w pages w' := by
  obtain ⟨before, last, token, w₁, rfl, hturned, hlist, hlast⟩ := h
  exact hturned.leafed (.last hlist hlast)

/-! ### The whole teardown -/

theorem finishes_remove_ok_iff :
    Finishes E (remove config stop workloadName) w (.ok ()) w' ↔ ∃ w₁,
      Finishes E (Cluster.call stop config.apiBackoff (.deleteWorkload workloadName)) w
          (.ok ()) w₁ ∧
        Finishes E (Cluster.call stop config.apiBackoff
          (.deletePods (Labels.runSelector workloadName))) w₁ (.ok ()) w' := by
  unfold remove
  rw [Finishes.bind_iff]
  constructor
  · rintro ⟨_ | ⟨⟨⟩⟩, w₁, hdelete, h⟩
    · cases (Finishes.pure_iff.mp h).1
    · exact ⟨w₁, hdelete, h⟩
  · rintro ⟨w₁, hdelete, h⟩
    exact ⟨.ok (), w₁, hdelete, h⟩

theorem finishes_run_iff {outcome : Except CheckError Unit} :
    Finishes E (run config stop deadline workloadName) w outcome w' ↔
      (∃ e, Finishes E (remove config stop workloadName) w (.error e) w' ∧ outcome = .error e) ∨
      ∃ w₁, Finishes E (remove config stop workloadName) w (.ok ()) w₁ ∧
        ((∃ e, Finishes E (awaitPods config stop deadline workloadName) w₁ (.error e) w' ∧
            outcome = .error e) ∨
          ∃ w₂, Finishes E (awaitPods config stop deadline workloadName) w₁ (.ok ()) w₂ ∧
            Finishes E (awaitParent config stop deadline workloadName) w₂ outcome w') := by
  unfold run
  rw [Finishes.bind_iff]
  constructor
  · rintro ⟨_ | ⟨⟨⟩⟩, w₁, hremove, h⟩
    · obtain ⟨rfl, rfl⟩ := Finishes.pure_iff.mp h
      exact .inl ⟨_, hremove, rfl⟩
    · obtain ⟨_ | ⟨⟨⟩⟩, w₂, hpods, h⟩ := Finishes.bind_iff.mp h
      · obtain ⟨rfl, rfl⟩ := Finishes.pure_iff.mp h
        exact .inr ⟨w₁, hremove, .inl ⟨_, hpods, rfl⟩⟩
      · exact .inr ⟨w₁, hremove, .inr ⟨w₂, hpods, h⟩⟩
  · rintro (⟨e, hremove, rfl⟩ | ⟨w₁, hremove, ⟨e, hpods, rfl⟩ | ⟨w₂, hpods, hparent⟩⟩)
    · exact ⟨_, w', hremove, Finishes.pure_iff.mpr ⟨rfl, rfl⟩⟩
    · exact ⟨_, w₁, hremove, Finishes.bind_iff.mpr
        ⟨_, w', hpods, Finishes.pure_iff.mpr ⟨rfl, rfl⟩⟩⟩
    · exact ⟨_, w₁, hremove, Finishes.bind_iff.mpr ⟨_, w₂, hpods, hparent⟩⟩

theorem finishes_run_ok_iff :
    Finishes E (run config stop deadline workloadName) w (.ok ()) w' ↔ ∃ w₁ w₂ w₃,
      Finishes E (Cluster.call stop config.apiBackoff (.deleteWorkload workloadName)) w
          (.ok ()) w₁ ∧
        Finishes E (Cluster.call stop config.apiBackoff
          (.deletePods (Labels.runSelector workloadName))) w₁ (.ok ()) w₂ ∧
        Finishes E (awaitPods config stop deadline workloadName) w₂ (.ok ()) w₃ ∧
        Finishes E (awaitParent config stop deadline workloadName) w₃ (.ok ()) w' := by
  rw [finishes_run_iff]
  constructor
  · rintro (⟨_, -, ho⟩ | ⟨w₂, hremove, ⟨_, -, ho⟩ | ⟨w₃, hpods, hparent⟩⟩)
    · cases ho
    · cases ho
    · obtain ⟨w₁, hdelete, hdeletePods⟩ := finishes_remove_ok_iff.mp hremove
      exact ⟨w₁, w₂, w₃, hdelete, hdeletePods, hpods, hparent⟩
  · rintro ⟨w₁, w₂, w₃, hdelete, hdeletePods, hpods, hparent⟩
    exact .inr ⟨w₂, finishes_remove_ok_iff.mpr ⟨w₁, hdelete, hdeletePods⟩,
      .inr ⟨w₃, hpods, hparent⟩⟩

/-- A teardown that does not fail has gone through all of its steps. -/
theorem steps_of_yields (h : Yields (run config stop deadline workloadName) w (.ok ()) w') :
    Steps config stop deadline workloadName w w' := by
  obtain ⟨w₁, w₂, w₄, hdelete, hdeletePods, hpods, hparent⟩ := finishes_run_ok_iff.mp h
  have hpods := Finishes.clock_bind_iff.mp hpods
  obtain ⟨l, w₃, hrounds, hlast⟩ := Finishes.iterate_iff.mp hpods
  obtain ⟨⟨⟩, w₅, hwaiting, habsent⟩ := Finishes.iterate_iff.mp hparent
  cases finishes_parentRound_ok_iff.mp habsent with
  | absent hwalked hpages =>
    exact ⟨w₁, w₂, w₃, w₄, w₅, l, _, hdelete, hdeletePods, hrounds,
      finishes_podRound_ok_iff.mp hlast, hwaiting, hwalked.leafed, hpages⟩

end Teardown
end NodeCoverage
