import NodeCoverage.Cluster.Selector
import NodeCoverage.Proofs.Check.Course
import NodeCoverage.Proofs.Check.Footprint
import NodeCoverage.Proofs.Check.Removal
import NodeCoverage.Proofs.Process.Attempts
/-!
# What a run leaves behind

A creation that failed may still have taken effect, so a run cannot know what there is of it. But
whenever something may have been created it tears down, and teardown does not succeed before the
workload is being deleted, then none of its pods is there, and then the workload is not there
either. Hence nothing of the run is left when its verdict is reported, unless teardown has failed,
the name belongs to another run, or the worker could not go on.
-/

namespace NodeCoverage

open Cluster (Request)
open Process (Meets Uses)

variable {B : Behaviour Cluster}

/-- What is in the store of a cluster at an instant. -/
structure Inventory (B : Behaviour Cluster) where
  workloads : Nat → B.State → List Workload
  pods : Nat → B.State → List Pod

/-- What can happen to a store as long as no creation is asked for. -/
inductive Moves : Nat → B.State → Nat → B.State → Prop
  | passes {t t' : Nat} {s : B.State} : t ≤ t' → Moves t s t' s
  | start {t : Nat} {s : B.State} {r : Request} :
    r.isCreate = false → Moves t s t (B.start t r s).2.2
  | answer {t : Nat} {s : B.State} {r : Request} {k : B.Ticket} :
    r.isCreate = false → Moves t s t (B.answer t r k s).2

/-- What holds of the store goes on to hold as long as no creation is asked for. -/
def Stable (P : Nat → B.State → Prop) : Prop :=
  ∀ ⦃t s t' s'⦄, Moves t s t' s' → P t s → P t' s'

namespace Inventory

variable (inv : Inventory B) (name : String) (t : Nat) (s : B.State)

def Holds : Prop :=
  ∃ x ∈ inv.workloads t s, x.metadata.name = some name

/-- A workload of the name is there and is not being deleted. -/
def Stands : Prop :=
  ∃ x ∈ inv.workloads t s, x.metadata.name = some name ∧ x.metadata.deletionTimestamp = none

/-- A pod of the run with this workload is there. -/
def HasPods : Prop :=
  ∃ p ∈ inv.pods t s, p.metadata.isPicked (Labels.runSelector name)

/-- Nothing of the run is there. -/
def Clear : Prop :=
  ¬ inv.Holds name t s ∧ ¬ inv.HasPods name t s

/-- The workload is not there or is being deleted, and none of its pods is there. -/
def Emptied : Prop :=
  ¬ inv.Stands name t s ∧ ¬ inv.HasPods name t s

variable {inv name t s}

theorem Stands.holds (h : inv.Stands name t s) : inv.Holds name t s := by
  obtain ⟨x, hx, hname, -⟩ := h
  exact ⟨x, hx, hname⟩

end Inventory

/-- The store belongs to the run alone, as far as its name and its labels go, and answers what is
so. Only creations bring a workload of the name, and pods come only from one that is not being
deleted. Of creations nothing is said, so they may have taken effect whatever the answer was. A
listing of workloads goes on behind a token, for as long as the workload is `ahead` of it. -/
structure Faithful (inv : Inventory B) (name : String)
    (ahead : Option String → Nat → B.State → Prop) : Prop where
  holds : ∀ {t s t' s'}, Moves t s t' s' → inv.Holds name t' s' → inv.Holds name t s
  stands : ∀ {t s t' s'}, Moves t s t' s' → inv.Stands name t' s' → inv.Stands name t s
  pods : ∀ {t s t' s'}, Moves t s t' s' → inv.HasPods name t' s' →
    inv.HasPods name t s ∨ inv.Stands name t s
  deleted : ∀ {t k s}, (B.answer t (.deleteWorkload name) k s).1 = .ok () →
    ¬ inv.Stands name t (B.answer t (.deleteWorkload name) k s).2
  podsListed : ∀ {t k s ps}, (B.answer t (.listPods (Labels.runSelector name)) k s).1 = .ok ps →
    ∀ p ∈ inv.pods t (B.answer t (.listPods (Labels.runSelector name)) k s).2,
      p.metadata.isPicked (Labels.runSelector name) → p ∈ ps
  begins : ∀ {t s}, inv.Holds name t s → ahead none t s
  lasts : ∀ {token t s t' s'}, Moves t s t' s' → ahead token t s → inv.Holds name t' s' →
    ahead token t' s'
  listed : ∀ {token t k s page}, ahead token t s →
    (B.answer t (.listWorkloads (Labels.runSelector name) token) k s).1 = .ok page →
    inv.Holds name t (B.answer t (.listWorkloads (Labels.runSelector name) token) k s).2 →
    Teardown.Shows page name ∨ ∃ next, page.next = some next ∧
      ahead (some next) t (B.answer t (.listWorkloads (Labels.runSelector name) token) k s).2

namespace Faithful

variable {inv : Inventory B} {name : String} {ahead : Option String → Nat → B.State → Prop}

theorem stable_clear (h : Faithful inv name ahead) : Stable (inv.Clear name) := by
  intro t s t' s' hm hc
  refine ⟨fun hh => hc.1 (h.holds hm hh), fun hp => ?_⟩
  rcases h.pods hm hp with hp | hs
  · exact hc.2 hp
  · exact hc.1 hs.holds

theorem stable_down (h : Faithful inv name ahead) :
    Stable fun t s => ¬ inv.Stands name t s :=
  fun _ _ _ _ hm hs hs' => hs (h.stands hm hs')

theorem stable_emptied (h : Faithful inv name ahead) : Stable (inv.Emptied name) := by
  intro t s t' s' hm he
  refine ⟨fun hs => he.1 (h.stands hm hs), fun hp => ?_⟩
  rcases h.pods hm hp with hp | hs
  · exact he.2 hp
  · exact he.1 hs

theorem stable_ahead (h : Faithful inv name ahead) (token : Option String) :
    Stable fun t s => inv.Emptied name t s ∧ (inv.Holds name t s → ahead token t s) :=
  fun _ _ _ _ hm hs => ⟨h.stable_emptied hm hs.1, fun hh => h.lasts hm (hs.2 (h.holds hm hh)) hh⟩

end Faithful

/-! ### Parts that create nothing -/

namespace Stable

variable {P : Nat → B.State → Prop} {w : World B} {α : Type}

theorem keeps (hP : Stable P) :
    Keeps (S := Cluster) (fun r => r.isCreate = false) (fun _ => True)
      fun w : World B => P w.now w.state where
  call hr h := hP (.start hr) h
  answer hr h := hP (.answer hr) h
  note _ h := h

theorem passes (hP : Stable P) {w' : World B} (h : P w.now w.state) (hw : w.Passes w') :
    P w'.now w'.state :=
  hw.state_eq ▸ hP (.passes hw.now_le) h

theorem meets_of_uses {p : Process Cluster α} {calls : Request → Prop}
    {notes : Cluster.Entry → Prop} {faults : Fault → Prop} (hP : Stable P)
    (hp : p.Uses calls notes faults)
    (hcalls : ∀ r, calls r → r.isCreate = false) (hw : P w.now w.state) :
    Meets Lifecycle.passing (fun _ => True) p w fun _ w' => P w'.now w'.state := by
  apply Meets.of_uses_within (J := fun w => P w.now w.state) hw hP.keeps hp hcalls
    (fun _ _ => trivial)
  · intro _ w₁ w₂ h hpasses
    exact hP.passes h hpasses
  · intro w _
    exact trivial

theorem meets_call {stop : Signal} {policy : Backoff} {r : Request}
    {Q : Except CheckError r.Result → Nat → B.State → Prop} (hP : Stable P)
    (hr : r.isCreate = false) (hw : P w.now w.state)
    (hanswer : ∀ t k s, P t s → Q (B.answer t r k s).1 t (B.answer t r k s).2)
    (hstop : ∀ t s, P t s → Q (.error (.cancelled r.operation)) t s) :
    Meets Lifecycle.passing (fun _ => True) (Cluster.call stop policy r) w
      fun o w' => Q o w'.now w'.state := by
  have hcall : Meets Lifecycle.passing (fun w : World B => P w.now w.state)
      (Cluster.call stop policy r) w fun o w' => Q o w'.now w'.state := by
    apply Cluster.meets_call Lifecycle.passing_transitive hw
    · intro w h
      exact hP (.start hr) h
    · intro w₀ w₁ _ _ h
      exact ⟨hanswer _ _ _ h, fun _ _ => hP (.answer hr) h⟩
    · intro w h _
      exact hstop _ _ h
  apply hcall.within
  · intro _ w₁ w₂ h hpasses
    exact hP.passes h hpasses
  · intro w _
    exact trivial

theorem meets_pause {config : Config} {stop : Signal} {deadline : Nat} {outstanding : String}
    (hP : Stable P) (hw : P w.now w.state) :
    Meets Lifecycle.passing (fun _ => True) (Teardown.pause config stop deadline outstanding) w
      fun _ w' => P w'.now w'.state := by
  have hp : Uses (S := Cluster) (fun _ => False) (fun _ => False) (fun _ => False)
      (Teardown.pause config stop deadline outstanding) := Teardown.teardownPause_uses
  exact hP.meets_of_uses hp (fun _ hr => hr.elim) hw

end Stable

/-! ### Teardown -/

namespace Faithful

variable {inv : Inventory B} {name : String} {ahead : Option String → Nat → B.State → Prop}
  {w : World B} {config : Config} {stop : Signal} {deadline : Nat}

private theorem asks (r : Request) (hr : Teardown.Asks name r) : r.isCreate = false :=
  Teardown.isCreate_eq hr

theorem meets_deletion (h : Faithful inv name ahead) {policy : Backoff} :
    Meets Lifecycle.passing (fun _ => True) (Cluster.call stop policy (.deleteWorkload name)) w
      fun o w' => o = .ok () → ¬ inv.Stands name w'.now w'.state := by
  have anything : Stable fun (_ : Nat) (_ : B.State) => True := fun _ _ _ _ _ _ => trivial
  apply anything.meets_call (r := .deleteWorkload name)
    (Q := fun o t s => o = .ok () → ¬ inv.Stands name t s) rfl trivial
  · intro t k s _
    exact h.deleted
  · exact nofun

theorem meets_remove (h : Faithful inv name ahead) :
    Meets Lifecycle.passing (fun _ => True) (Teardown.remove config stop name) w
      fun o w' => o = .ok () → ¬ inv.Stands name w'.now w'.state := by
  apply h.meets_deletion.seq
  intro deleted w hdeleted
  cases deleted with
  | error e => exact .pure nofun
  | ok =>
    apply (h.stable_down.meets_of_uses Teardown.deletePods_uses asks (hdeleted rfl)).mono
    intro _ w hdown _
    exact hdown

theorem meets_podListing (h : Faithful inv name ahead) {policy : Backoff}
    (hw : ¬ inv.Stands name w.now w.state) :
    Meets Lifecycle.passing (fun _ => True)
      (Cluster.call stop policy (.listPods (Labels.runSelector name))) w fun o w' =>
        ¬ inv.Stands name w'.now w'.state ∧ (o = .ok [] → ¬ inv.HasPods name w'.now w'.state) := by
  apply h.stable_down.meets_call (r := .listPods (Labels.runSelector name)) (Q := fun o t s =>
    ¬ inv.Stands name t s ∧ (o = .ok [] → ¬ inv.HasPods name t s)) rfl hw
  · intro t k s hs
    refine ⟨h.stable_down (.answer rfl) hs, ?_⟩
    rintro ho ⟨p, hp, hpicked⟩
    cases h.podsListed ho p hp hpicked
  · intro t s hs
    exact ⟨hs, nofun⟩

theorem meets_awaitPods (h : Faithful inv name ahead) (hw : ¬ inv.Stands name w.now w.state) :
    Meets Lifecycle.passing (fun _ => True) (Teardown.awaitPods config stop deadline name) w
      fun o w' => o = .ok () → inv.Emptied name w'.now w'.state := by
  refine .bind (.clock (.iterate (fun _ w => ¬ inv.Stands name w.now w.state) hw ?_))
  intro l w hw
  apply (h.meets_podListing hw).seq
  intro listing w hlisting
  cases hl : Teardown.afterListing l listing with
  | inr outcome =>
    apply Meets.pure
    rintro rfl
    exact ⟨hlisting.1, hlisting.2 (Teardown.afterListing_ok hl)⟩
  | inl l =>
    apply (h.stable_down.meets_of_uses Teardown.deleteAgain_uses asks hlisting.1).seq
    intro l w hw
    apply (h.stable_down.meets_pause hw).seq
    intro paused w hw
    cases paused with
    | error e => exact .pure nofun
    | ok => exact .pure hw

theorem meets_page (h : Faithful inv name ahead) {policy : Backoff} {token : Option String}
    (hw : inv.Emptied name w.now w.state ∧
      (inv.Holds name w.now w.state → ahead token w.now w.state)) :
    Meets Lifecycle.passing (fun _ => True)
      (Cluster.call stop policy (.listWorkloads (Labels.runSelector name) token)) w fun o w' =>
        inv.Emptied name w'.now w'.state ∧ ∀ page : Cluster.Page, o = .ok page →
          inv.Holds name w'.now w'.state → Teardown.Shows page name ∨
            ∃ next, page.next = some next ∧ ahead (some next) w'.now w'.state := by
  apply (h.stable_ahead token).meets_call (r := .listWorkloads (Labels.runSelector name) token)
    (Q := fun o t s => inv.Emptied name t s ∧ ∀ page : Cluster.Page, o = .ok page →
      inv.Holds name t s → Teardown.Shows page name ∨
        ∃ next, page.next = some next ∧ ahead (some next) t s) rfl hw
  · intro t k s hs
    refine ⟨h.stable_emptied (.answer rfl) hs.1, ?_⟩
    intro page hpage hh
    exact h.listed (hs.2 (h.holds (.answer rfl) hh)) hpage hh
  · intro t s hs
    exact ⟨hs.1, nofun⟩

theorem meets_present (h : Faithful inv name ahead) (hw : inv.Emptied name w.now w.state) :
    Meets Lifecycle.passing (fun _ => True) (Teardown.present config stop name) w
      fun o w' => inv.Emptied name w'.now w'.state ∧
        (o = .ok false → inv.Clear name w'.now w'.state) := by
  apply Meets.iterate (fun token w => inv.Emptied name w.now w.state ∧
    (inv.Holds name w.now w.state → ahead token w.now w.state)) ⟨hw, h.begins⟩
  intro token w hw
  apply (h.meets_page hw).seq
  intro listing w ⟨hemptied, hpages⟩
  cases listing with
  | error e => exact .pure ⟨hemptied, nofun⟩
  | ok page =>
    dsimp only
    split
    · exact .pure ⟨hemptied, nofun⟩
    · next hshows =>
      have hshows : ¬ Teardown.Shows page name := by simpa [Teardown.Shows] using hshows
      split
      · next next hnext =>
        refine .pure ⟨hemptied, fun hh => ?_⟩
        obtain ⟨token, htoken, ha⟩ := (hpages page rfl hh).resolve_left hshows
        cases hnext.symm.trans htoken
        exact ha
      · next hnext =>
        refine .pure ⟨hemptied, fun _ => ⟨fun hh => ?_, hemptied.2⟩⟩
        obtain ⟨token, htoken, -⟩ := (hpages page rfl hh).resolve_left hshows
        cases hnext.symm.trans htoken

theorem meets_awaitParent (h : Faithful inv name ahead) (hw : inv.Emptied name w.now w.state) :
    Meets Lifecycle.passing (fun _ => True) (Teardown.awaitParent config stop deadline name) w
      fun o w' => o = .ok () → inv.Clear name w'.now w'.state := by
  apply Meets.iterate (fun _ w => inv.Emptied name w.now w.state) hw
  intro _ w hw
  have wait {w : World B} (hw : inv.Emptied name w.now w.state) :
      Meets Lifecycle.passing (fun _ => True)
        (Teardown.parentRound.wait config stop deadline name) w
        fun x w' => x.elim (fun _ => inv.Emptied name w'.now w'.state)
          fun o => o = .ok () → inv.Clear name w'.now w'.state := by
    apply (h.stable_emptied.meets_pause hw).seq
    intro paused w hw
    cases paused with
    | error e => exact .pure nofun
    | ok => exact .pure hw
  apply (h.meets_present hw).seq
  intro found w hfound
  match found with
  | .ok false => exact .pure fun _ => hfound.2 rfl
  | .ok true => exact wait hfound.1
  | .error e =>
    dsimp only
    split
    · exact .pure nofun
    · exact wait hfound.1

/-- Nothing is left by a teardown that does not fail. -/
theorem meets_teardown (h : Faithful inv name ahead) :
    Meets Lifecycle.passing (fun _ => True) (Teardown.run config stop deadline name) w
      fun o w' => o = .ok () → inv.Clear name w'.now w'.state := by
  apply h.meets_remove.seq
  intro removed w hremoved
  cases removed with
  | error e => exact .pure nofun
  | ok =>
    apply (h.meets_awaitPods (hremoved rfl)).seq
    intro awaited w hawaited
    cases awaited with
    | error e => exact .pure nofun
    | ok => exact h.meets_awaitParent (hawaited rfl)

end Faithful

/-! ### The worker -/

/-- The failures say why something of the run may be left: its teardown has failed, or its name
belongs to another run. -/
def Excused (fs : List Failure) : Prop :=
  (∃ e, .during .tearingDown e ∈ fs) ∨ ∃ phase n, .during phase (.nameTaken n) ∈ fs

theorem Excused.mono {fs gs : List Failure} (h : Excused fs) (hsub : fs ⊆ gs) : Excused gs :=
  h.imp (fun ⟨e, he⟩ => ⟨e, hsub he⟩) fun ⟨phase, n, hn⟩ => ⟨phase, n, hsub hn⟩

namespace Faithful

variable {inv : Inventory B} {ahead : Option String → Nat → B.State → Prop} {w : World B}
  {a : Assignment}

theorem meets_worker_teardown (h : Faithful inv a.run.workloadName ahead) :
    Meets Lifecycle.passing (fun _ => True) (Worker.teardown a) w fun fs w' =>
      Excused fs ∨ inv.Clear a.run.workloadName w'.now w'.state := by
  refine .bind (.note (.bind (.fired (.bind (.clock ?_)))))
  apply h.meets_teardown.seq
  intro outcome w houtcome
  cases outcome with
  | ok => exact .pure (.inr (houtcome rfl))
  | error e => exact .pure (.inl (.inl ⟨e, by simp⟩))

theorem meets_probe (h : Faithful inv a.run.workloadName ahead) {set : ToleranceSet}
    {x : Workload} :
    Meets Lifecycle.passing (fun _ => True) (Worker.probe a set x) w fun fs w' =>
      Excused fs ∨ inv.Clear a.run.workloadName w'.now w'.state := by
  have tornDown {w : World B} (fs : List Failure) :
      Meets Lifecycle.passing (fun _ => True)
        (Worker.teardown a >>= fun gs => (pure (fs ++ gs) : Process Cluster _)) w fun fs w' =>
        Excused fs ∨ inv.Clear a.run.workloadName w'.now w'.state := by
    apply h.meets_worker_teardown.seq
    intro gs w hgs
    exact .pure (hgs.imp_left fun hgs => hgs.mono (List.subset_append_right ..))
  refine .bind (.note ?_)
  apply Meets.anything.seq
  intro outcome w _
  cases outcome with
  | ok =>
    apply Meets.anything.seq
    intro fs w _
    exact tornDown fs
  | error e =>
    refine .bind (.bind (.fired (.pure ?_)))
    by_cases he : e.isNameTaken = true
    · obtain ⟨n, rfl⟩ : ∃ n, e = .nameTaken n := by
        cases e <;> simp_all [CheckError.isNameTaken]
      exact .pure (.inl (.inr ⟨.deploying, n, by simp [CheckError.isCancelled]⟩))
    · simp only [he, if_false, Bool.false_eq_true]
      exact tornDown _

/-- A worker that comes to its end leaves nothing behind, unless its failures say why. -/
theorem meets_worker (h : Faithful inv a.run.workloadName ahead)
    (hw : inv.Clear a.run.workloadName w.now w.state) :
    Meets Lifecycle.passing (fun _ => True) (Worker.run a) w fun fs w' =>
      Excused fs ∨ inv.Clear a.run.workloadName w'.now w'.state := by
  have asks (r : Request) (hr : Worker.Asks a.run.host r) : r.isCreate = false :=
    Worker.isCreate_eq hr
  have sweepAsks (r : Request) (hr : Sweep.Asks r) : r.isCreate = false := Sweep.isCreate_eq hr
  have work : Meets Lifecycle.passing (fun _ => True) (Worker.work a) w fun fs w' =>
      Excused fs ∨ inv.Clear a.run.workloadName w'.now w'.state := by
    refine .bind (.note ?_)
    apply (h.stable_clear.meets_of_uses (w := w.note _) Worker.owner_uses asks hw).seq
    intro owner w hw
    apply (h.stable_clear.meets_of_uses Worker.tolerances_uses asks hw).seq
    intro set w hw
    refine .bind (.note (.bind (.clock ?_)))
    apply (h.stable_clear.meets_of_uses (w := w.note _) Sweep.untilClear_uses sweepAsks hw).seq
    intro swept w hw
    cases swept with
    | ok => exact h.meets_probe
    | error e =>
      dsimp only
      split
      · exact .bind (.fired (.pure (.inr hw)))
      · apply h.meets_probe.seq
        intro fs w hfs
        exact .pure (hfs.imp_left fun hfs => hfs.mono (List.subset_cons_self ..))
  apply work.seq
  intro fs w hfs
  exact .bind (.note (.pure hfs))

end Faithful

/-! ### The run -/

theorem Stable.beginSweep {P : Nat → B.State → Prop} {fuel : Nat} {rt : Runtime}
    {a : Assignment} {w : World B} (hP : Stable P) (hw : P w.now w.state) :
    P (Lifecycle.beginSweep fuel rt a w).2.now (Lifecycle.beginSweep fuel rt a w).2.state := by
  have hkeeps : Keeps (S := Cluster) Sweep.Asks Sweep.Notes
      fun w : World B => P w.now w.state :=
    ⟨fun hr h => hP.keeps.call (Sweep.isCreate_eq hr) h,
      fun hr h => hP.keeps.answer (Sweep.isCreate_eq hr) h, fun _ h => h⟩
  simp only [Lifecycle.beginSweep]
  split
  · exact Suspended.runUntil_keeps hkeeps (fun w t h => hP.passes h (.advance w t)) Sweep.once_uses
      hw
  · exact hw

/-- A worker crashes only if the intervals of its backoff can become negative. -/
theorem Lifecycle.multiplier_neg_of_crashed {fuel : Nat} {rt : Runtime} {a : Assignment}
    {interrupts : List Nat} {w w' : World B} {cause : Option StopCause} {f : Fault}
    (h : runToEnd fuel rt a interrupts w = some (.crashed cause f, w')) :
    a.config.apiBackoff.multiplier < 0 := by
  obtain ⟨st, ⟨_, _, -, hreach, -⟩, hst⟩ := runToEnd_stands h
  cases hst
  by_contra hmultiplier
  exact Backoff.not_faults (not_lt.mp hmultiplier) (Worker.run_uses.faults_of_reaches hreach)

namespace Leftovers

structure Shelf where
  workload : Option Workload
  pods : List Pod

def broken : CheckError :=
  .cluster (.api ⟨"Failure", "internal error", "InternalError", 500⟩)

/-- A cluster in which creations take effect although they fail, and in which a workload that is
being deleted is there for one more listing. -/
def lossy : Behaviour Cluster where
  State := Shelf
  Ticket := Unit
  start _ _ s := (.zero, (), s)
  answer _ r _ s :=
    match r with
    | .listNodes => (.ok [], s)
    | .listPods selector => (.ok (s.pods.filter (·.metadata.isPicked selector)), s)
    | .listWorkloads _ _ => (.ok ⟨s.workload.toList, none⟩,
        { s with workload := s.workload.filter (·.metadata.deletionTimestamp.isNone) })
    | .createWorkload x =>
      (.error broken, ⟨some x, [⟨{ labels := x.metadata.labels }, none, none⟩]⟩)
    | .deleteWorkload _ => (.ok (), { s with workload := s.workload.map fun x =>
        { x with metadata := { x.metadata with deletionTimestamp := some ⟨0, 0⟩ } } })
    | .deletePods selector =>
      (.ok (), { s with pods := s.pods.filter fun p => !p.metadata.isPicked selector })
    | .deletePod _ => (.ok (), s)
    | .getPod _ => (.ok none, s)
    | .getWorkload _ => (.ok s.workload, s)

def inventory : Inventory lossy where
  workloads _ s := s.workload.toList
  pods _ s := s.pods

theorem fewer_of_moves {t t' : Nat} {s s' : lossy.State} (h : Moves t s t' s') :
    (∀ x, s'.workload = some x → ∃ y, s.workload = some y ∧
        y.metadata.name = x.metadata.name ∧
        (x.metadata.deletionTimestamp = none → y.metadata.deletionTimestamp = none)) ∧
      ∀ p ∈ s'.pods, p ∈ s.pods := by
  cases h with
  | passes => exact ⟨fun x hx => ⟨x, hx, rfl, id⟩, fun p hp => hp⟩
  | start => exact ⟨fun x hx => ⟨x, hx, rfl, id⟩, fun p hp => hp⟩
  | @answer _ r _ hr =>
    cases r with
    | createWorkload => cases hr
    | deleteWorkload =>
      refine ⟨fun x hx => ?_, fun p hp => hp⟩
      obtain ⟨y, hy, rfl⟩ := Option.map_eq_some_iff.mp hx
      exact ⟨y, hy, rfl, nofun⟩
    | listWorkloads =>
      exact ⟨fun x hx => ⟨x, (Option.filter_eq_some_iff.mp hx).1, rfl, id⟩, fun p hp => hp⟩
    | deletePods => exact ⟨fun x hx => ⟨x, hx, rfl, id⟩, fun p hp => (List.mem_filter.mp hp).1⟩
    | _ => exact ⟨fun x hx => ⟨x, hx, rfl, id⟩, fun p hp => hp⟩

theorem inventory_faithful (name : String) :
    Faithful inventory name fun _ _ _ => True where
  holds hm := by
    rintro ⟨x, hx, hname⟩
    obtain ⟨y, hy, hy', -⟩ := (fewer_of_moves hm).1 x (Option.mem_toList.mp hx)
    exact ⟨y, Option.mem_toList.mpr hy, hy'.trans hname⟩
  stands hm := by
    rintro ⟨x, hx, hname, hdel⟩
    obtain ⟨y, hy, hy', hydel⟩ := (fewer_of_moves hm).1 x (Option.mem_toList.mp hx)
    exact ⟨y, Option.mem_toList.mpr hy, hy'.trans hname, hydel hdel⟩
  pods hm := by
    rintro ⟨p, hp, hpicked⟩
    exact .inl ⟨p, (fewer_of_moves hm).2 p hp, hpicked⟩
  deleted := by
    rintro _ t k s ⟨x, hx, -, hdel⟩
    obtain ⟨y, hy, rfl⟩ := Option.map_eq_some_iff.mp (Option.mem_toList.mp hx)
    cases hdel
  podsListed := by
    intro t k s ps hps p hp hpicked
    cases hps
    exact List.mem_filter.mpr ⟨hp, hpicked⟩
  begins _ := trivial
  lasts _ _ _ := trivial
  listed := by
    rintro token t k s page - hpage ⟨x, hx, hname⟩
    cases hpage
    refine .inl ⟨x, ?_, hname⟩
    exact Option.mem_toList.mpr (Option.filter_eq_some_iff.mp (Option.mem_toList.mp hx)).1

def probe : Run :=
  ⟨"daemonset", "probe", 1⟩

def prompt : Reporter :=
  ⟨fun t _ => some (.ok (), t)⟩

def bare : World lossy :=
  .initial ⟨none, []⟩

theorem bare_clear (name : String) : inventory.Clear name bare.now bare.state :=
  ⟨fun ⟨_, hx, _⟩ => List.not_mem_nil hx, fun ⟨_, hp, _⟩ => List.not_mem_nil hp⟩

end Leftovers

namespace Leftovers

/-- The standard settings, but intervals between attempts would become negative. -/
def shrinking : Config :=
  { Config.standard with apiBackoff := { Backoff.standard with multiplier := -1 } }

end Leftovers

end NodeCoverage
