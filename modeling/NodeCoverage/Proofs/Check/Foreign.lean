import NodeCoverage.Proofs.Check.Held
/-!
# An object that holds the name of the workload

An object with other labels may hold the name of a run's workload before the run first tries to
create it. Teardown deletes by name, so it strikes that object unless the run has been told of it:
exactly the runs in which a lookup of the name was answered with the object leave it alone. A
creation that was refused for another reason, or that failed to the end, and a lookup that failed
tell the run nothing.
-/

namespace NodeCoverage

open Process (Meets Uses)

variable {B : Behaviour Cluster}

namespace Foreign

variable {Held : Nat → B.State → Prop} {name : String} {w : World B.recorded} {labels : Labels}

/-! ### Parts that make no difference -/

variable {α : Type} {p : Process Cluster α} {calls : Cluster.Request → Prop}
  {notes : Cluster.Entry → Prop} {faults : Fault → Prop}

theorem Uncreated.meets_of_uses (hw : Uncreated name labels w) (hp : p.Uses calls notes faults)
    (hcalls : ∀ r, calls r → r.isCreate = false ∧ r ≠ .getWorkload name) :
    Meets Lifecycle.passing (Told Held name labels) p w fun _ w' => Uncreated name labels w' := by
  apply Meets.of_uses_within hw (keeps_uncreated B name labels) hp hcalls (fun _ _ => trivial)
  · intro _ w₁ w₂ h hpasses
    exact h.passes hpasses
  · intro w h
    exact h.unfound.told

theorem Unfound.meets_of_uses (hP : Persists B name Held) (hw : Unfound Held name labels w)
    (hp : p.Uses calls notes faults)
    (hcalls : ∀ r, calls r → r ≠ .deleteWorkload name ∧ r ≠ .getWorkload name) :
    Meets Lifecycle.passing (Told Held name labels) p w
      fun _ w' => Unfound Held name labels w' := by
  apply Meets.of_uses_within hw (keeps_unfound labels hP) hp hcalls (fun _ _ => trivial)
  · intro _ w₁ w₂ h hpasses
    exact h.passes hP hpasses
  · intro w h
    exact h.told

theorem Over.meets_of_uses (hw : Over Held name labels w) (hp : p.Uses calls notes faults)
    (hcalls : ∀ r, calls r → r.isCreate = false ∧ r ≠ .getWorkload name) :
    Meets Lifecycle.passing (fun w => Unfound Held name labels w ∨ Over Held name labels w) p w
      fun _ w' => Over Held name labels w' := by
  apply Meets.of_uses_within hw (keeps_over Held name labels) hp hcalls (fun _ _ => trivial)
  · intro _ w₁ w₂ h hpasses
    exact h.passes hpasses
  · intro w h
    exact .inr h

/-! ### Deployment -/

variable (Held name) (labels) in
/-- The run was told of the object exactly if deployment says that the name is taken. -/
def Deployed (outcome : Except CheckError Unit) (w : World B.recorded) : Prop :=
  match outcome with
  | .error e => if e.isNameTaken then Known Held name labels w else Unfound Held name labels w
  | .ok _ => Unfound Held name labels w

theorem refusal_isNameTaken (e : CheckError) :
    (Deployment.refusal e).isNameTaken = e.isNameTaken := by
  unfold Deployment.refusal
  split
  · split <;> rfl
  · rfl

variable {wl : Workload} {stop : Signal} {policy : Backoff}

variable (Held name) (labels) in
/-- What a lookup of the name has told the run. -/
def LookedUp (reply : Except CheckError (Option Workload)) (w : World B.recorded) : Prop :=
  match reply with
  | .ok (some x) => if x.metadata.labels = some labels then Unfound Held name labels w
      else Known Held name labels w
  | .ok none => Unfound Held name labels w
  | .error e => e.isNameTaken = false ∧ Unfound Held name labels w

theorem lookedUp_answer {n : Nat} {k : B.Ticket} (hP : Persists B name Held)
    (h : Unfound Held name labels w) :
    LookedUp Held name labels (w.answer n (.getWorkload name) k).1
      (w.answer n (.getWorkload name) k).2 := by
  have hspared : Spared Held name (w.answer n (.getWorkload name) k).2 :=
    ⟨h.2.1.1, fun hpre => hP.answer nofun (h.2.1.2 hpre)⟩
  have hfound := found_lookup (n := n) (k := k) h.2.2
  have unfound (hx : ∀ x : Workload, (w.answer n (.getWorkload name) k).1 = .ok (some x) →
      x.metadata.labels = some labels) :
      Unfound Held name labels (w.answer n (.getWorkload name) k).2 :=
    ⟨h.1, hspared, fun hf => by
      obtain ⟨x, hreply, hlabels⟩ := hfound.mp hf
      exact hlabels (hx x hreply)⟩
  rcases hreply : (w.answer n (.getWorkload name) k).1 with e | _ | x
  · exact ⟨hP.silent hreply, unfound fun x hx => by rw [hreply] at hx; cases hx⟩
  · exact unfound fun x hx => by rw [hreply] at hx; cases hx
  · simp only [LookedUp]
    split
    · refine unfound fun y hy => ?_
      rw [hreply] at hy
      cases hy
      assumption
    · exact ⟨h.1, hspared, hfound.mpr ⟨x, hreply, ‹_›⟩⟩

theorem meets_lookup (hP : Persists B name Held) (hw : Unfound Held name labels w) :
    Meets Lifecycle.passing (Unfound Held name labels)
      (Cluster.call stop policy (.getWorkload name)) w (LookedUp Held name labels) := by
  apply Cluster.meets_call Lifecycle.passing_transitive hw
  · intro w h
    exact ⟨h.1, h.2.1.call hP nofun, fun hf => h.2.2 (found_of_call hf)⟩
  · intro w₀ w₁ _ _ h
    have hreply := lookedUp_answer (w := w₁) (n := (w₀.call (.getWorkload name)).1.1)
      (k := (w₀.call (.getWorkload name)).1.2.1) hP h
    refine ⟨hreply, fun e he => ?_⟩
    rw [he] at hreply
    exact hreply.2
  · intro w h _
    exact ⟨rfl, h⟩

theorem meets_adopt {conflict : CheckError} (hP : Persists B name Held)
    (hname : wl.metadata.name = some name) (hlabels : wl.metadata.labels = some labels)
    (hc : conflict.isNameTaken = false) (hw : Unfound Held name labels w) :
    Meets Lifecycle.passing (Unfound Held name labels) (Deployment.adopt stop policy wl conflict) w
      (Deployed Held name labels) := by
  have hname : wl.metadata.name.getD "" = name := by rw [hname, Option.getD_some]
  unfold Deployment.adopt
  rw [hname]
  apply (meets_lookup hP hw).seq
  intro reply w hreply
  rcases reply with e | _ | x
  · exact .pure (by simpa [Deployed, hreply.1] using hreply.2)
  · have hunfound : Unfound Held name labels w := hreply
    exact .pure (by simpa [Deployed, Deployment.adoption, hc] using hunfound)
  · apply Meets.pure
    simp only [LookedUp] at hreply
    simp only [Deployment.adoption, hlabels]
    split at hreply
    · rw [if_pos ‹_›]
      exact hreply
    · rw [if_neg ‹_›]
      exact hreply

theorem meets_creation (hP : Persists B name Held) (hw : Unfound Held name labels w) :
    Meets Lifecycle.passing (Unfound Held name labels)
      (Cluster.call stop policy (.createWorkload wl)) w fun outcome w' =>
        Unfound Held name labels w' ∧ ∀ e, outcome = .error e → e.isNameTaken = false := by
  have hkeeps := keeps_unfound labels hP
  apply Cluster.meets_call Lifecycle.passing_transitive hw
  · intro w h
    exact hkeeps.call ⟨nofun, nofun⟩ h
  · intro w₀ w₁ _ _ h
    have h := hkeeps.answer (r := .createWorkload wl) (n := (w₀.call (.createWorkload wl)).1.1)
      (k := (w₀.call (.createWorkload wl)).1.2.1) ⟨nofun, nofun⟩ h
    exact ⟨⟨h, fun e he => hP.silent he⟩, fun _ _ => h⟩
  · intro w h _
    refine ⟨h, fun e he => ?_⟩
    cases he
    rfl

theorem meets_deployment (hP : Persists B name Held) (hname : wl.metadata.name = some name)
    (hlabels : wl.metadata.labels = some labels) (hw : Unfound Held name labels w) :
    Meets Lifecycle.passing (Unfound Held name labels) (Deployment.run stop policy wl) w
      (Deployed Held name labels) := by
  apply (meets_creation hP hw).seq
  intro outcome w ⟨hunfound, herror⟩
  cases outcome with
  | ok => exact .pure hunfound
  | error e =>
    have he := herror e rfl
    dsimp only
    split
    · exact meets_adopt hP hname hlabels he hunfound
    · exact .pure (by simpa [Deployed, refusal_isNameTaken, he] using hunfound)

/-! ### Teardown -/

theorem meets_deletion (hw : Unfound Held name labels w) :
    Meets Lifecycle.passing (fun w => Unfound Held name labels w ∨ Over Held name labels w)
      (Cluster.call .hardStop policy (.deleteWorkload name)) w
      fun _ w' => Over Held name labels w' := by
  have hkeeps := keeps_over Held name labels
  have hcall {w : World B.recorded} (h : Unfound Held name labels w ∨ Over Held name labels w) :
      Over Held name labels (w.call (.deleteWorkload name)).2 := by
    rcases h with h | h
    · exact h.call_delete
    · exact hkeeps.call ⟨rfl, nofun⟩ h
  apply Cluster.meets_call Lifecycle.passing_transitive (.inl hw)
  · intro w h
    exact .inr (hcall h)
  · intro w₀ w₁ h hs _
    have hover : Over Held name labels w₁ := by
      rcases hs with rfl | hs
      · exact hcall h
      · exact (hcall h).passes hs
    have hanswer := hkeeps.answer (r := .deleteWorkload name)
      (n := (w₀.call (.deleteWorkload name)).1.1) (k := (w₀.call (.deleteWorkload name)).1.2.1)
      ⟨rfl, nofun⟩ hover
    exact ⟨hanswer, fun _ _ => .inr hanswer⟩
  · intro w h hfired
    rcases h with h | h <;> simp [h.1] at hfired

theorem meets_teardown {config : Config} {deadline : Nat}
    (hw : Unfound Held name labels w) :
    Meets Lifecycle.passing (fun w => Unfound Held name labels w ∨ Over Held name labels w)
      (Teardown.run config .hardStop deadline name) w fun _ w' => Over Held name labels w' := by
  have asks (r : Cluster.Request) (hr : Teardown.Asks name r) :
      r.isCreate = false ∧ r ≠ .getWorkload name := by
    refine ⟨Teardown.isCreate_eq hr, ?_⟩
    rintro rfl
    exact hr
  -- the first deletion settles it, and what follows keeps `Over`
  obtain ⟨⟨-, hremove⟩, hawait⟩ : (Teardown.run config .hardStop deadline name).Uses
      (Teardown.Asks name) (fun _ => False) config.Faults := Teardown.run_uses
  refine .bind (.bind ((meets_deletion hw).mono fun deleted w hover => ?_))
  apply (hover.meets_of_uses (hremove deleted) asks).mono
  intro removed w hover
  exact hover.meets_of_uses (hawait removed) asks

/-! ### The worker -/

variable {a : Assignment} {set : ToleranceSet}

theorem meets_workerTeardown (hP : Persists B name Held) (ha : a.run.workloadName = name)
    (hw : Unfound Held name labels w) :
    Meets Lifecycle.passing (Told Held name labels) (Worker.teardown a) w
      fun _ w' => Over Held name labels w' := by
  have hnote : Unfound Held name labels (w.note (S := Cluster) (.entered .tearingDown)) :=
    (keeps_unfound labels hP).note trivial hw
  have teardown (deadline : Nat) : Meets Lifecycle.passing (Told Held name labels)
      (Teardown.run a.config .hardStop deadline name)
      (w.note (S := Cluster) (.entered .tearingDown)) fun _ w' => Over Held name labels w' := by
    apply (meets_teardown hnote).within
    · intro _ w₁ w₂ h hpasses
      exact h.imp (fun h => h.passes hP hpasses) fun h => h.passes hpasses
    · intro w h
      exact h.elim Unfound.told fun h => Settled.told (.inr h)
  refine .bind (.note (.bind (.fired (.bind (.clock ?_)))))
  rw [ha]
  apply (teardown _).seq
  intro outcome w hover
  cases outcome <;> exact .pure hover

theorem meets_probe (hP : Persists B name Held) (ha : a.run.workloadName = name)
    (hname : wl.metadata.name = some name) (hlabels : wl.metadata.labels = some labels)
    (hw : Uncreated name labels w) :
    Meets Lifecycle.passing (Told Held name labels) (Worker.probe a set wl) w
      fun _ w' => Settled Held name labels w' := by
  have hnote : Unfound Held name labels (w.note (S := Cluster) (.entered .deploying)) :=
    (keeps_unfound labels hP).note trivial hw.unfound
  have deployment : Meets Lifecycle.passing (Told Held name labels)
      (Deployment.run .run a.config.apiBackoff wl) (w.note (S := Cluster) (.entered .deploying))
      (Deployed Held name labels) := by
    apply (meets_deployment hP hname hlabels hnote).within
    · intro _ w₁ w₂ h hpasses
      exact h.passes hP hpasses
    · intro w h
      exact h.told
  have asks (r : Cluster.Request) (hr : Verification.Asks a.run.workloadName r) :
      r ≠ .deleteWorkload name ∧ r ≠ .getWorkload name := by
    constructor
    · rintro rfl
      exact hr
    · rintro rfl
      exact hr
  have tornDown {w : World B.recorded} (fs : List Failure) (hw : Unfound Held name labels w) :
      Meets Lifecycle.passing (Told Held name labels)
        (Worker.teardown a >>= fun gs => (pure (fs ++ gs) : Process Cluster _)) w
        fun _ w' => Settled Held name labels w' := by
    apply (meets_workerTeardown hP ha hw).seq
    intro gs w hover
    exact .pure (.inr hover)
  refine .bind (.note ?_)
  apply deployment.seq
  intro outcome w hdeployed
  cases outcome with
  | ok =>
    apply (Unfound.meets_of_uses hP hdeployed Worker.verify_uses asks).seq
    intro fs w hw
    exact tornDown fs hw
  | error e =>
    simp only [Deployed] at hdeployed
    dsimp only
    cases he : e.isNameTaken with
    | true =>
      simp only [he, if_true] at hdeployed ⊢
      exact .bind (.bind (.fired (.pure (.pure (.inl hdeployed)))))
    | false =>
      simp only [he, Bool.false_eq_true, if_false] at hdeployed ⊢
      have hrecord : (Worker.record .deploying e).Uses (Verification.Asks a.run.workloadName)
          (fun _ => False) fun _ => False := Worker.record_uses
      apply (Unfound.meets_of_uses hP hdeployed hrecord asks).seq
      intro fs w hw
      exact tornDown fs hw

theorem meets_worker (hP : Persists B name Held) (ha : a.run.workloadName = name)
    (hlabels : Labels.ofRun a.run = labels) (hw : Uncreated name labels w) :
    Meets Lifecycle.passing (Told Held name labels) (Worker.run a) w
      fun _ w' => Ended Held name labels w' := by
  have note {w : World B.recorded} {e : Cluster.Entry} (hw : Uncreated name labels w) :
      Uncreated name labels (w.note e) := (keeps_uncreated B name labels).note trivial hw
  have asks (r : Cluster.Request) (hr : Worker.Asks a.run.host r) :
      r.isCreate = false ∧ r ≠ .getWorkload name := by
    refine ⟨Worker.isCreate_eq hr, ?_⟩
    rintro rfl
    exact hr
  have sweepAsks (r : Cluster.Request) (hr : Sweep.Asks r) :
      r.isCreate = false ∧ r ≠ .getWorkload name := by
    refine ⟨Sweep.isCreate_eq hr, ?_⟩
    rintro rfl
    exact hr
  have probe {w : World B.recorded} {set : ToleranceSet} {owner : Option OwnerReference}
      (hw : Uncreated name labels w) : Meets Lifecycle.passing (Told Held name labels)
        (Worker.probe a set ((Blueprint.ofConfig a.config owner).build a.run set)) w
        fun _ w' => Ended Held name labels w' :=
    (meets_probe hP ha (congrArg some ha) (congrArg some hlabels) hw).mono fun _ _ h => .inr h
  have work : Meets Lifecycle.passing (Told Held name labels) (Worker.work a) w
      fun _ w' => Ended Held name labels w' := by
    refine .bind (.note ?_)
    apply ((note hw).meets_of_uses Worker.owner_uses asks).seq
    intro owner w hw
    apply (hw.meets_of_uses Worker.tolerances_uses asks).seq
    intro set w hw
    refine .bind (.note (.bind (.clock ?_)))
    apply ((note hw).meets_of_uses Sweep.untilClear_uses sweepAsks).seq
    intro outcome w hw
    cases outcome with
    | ok => exact probe hw
    | error e =>
      dsimp only
      split
      · exact .bind (.fired (.pure (.inl hw)))
      · exact .bind ((probe hw).mono fun _ _ h => .pure h)
  apply work.seq
  intro fs w h
  refine .bind (.note (.pure ?_))
  rcases h with h | h | h
  · exact .inl (note h)
  · exact .inr (.inl ⟨h.1, h.2.1, found_mono h.2.2 fun e he => Array.mem_push.mpr (.inl he)⟩)
  · exact .inr (.inr ((keeps_over Held name labels).note trivial h))

end Foreign

def World.beginning (now : Nat) (state : B.State) : World B.recorded :=
  ⟨now, (state, []), fun _ => false, 0, #[]⟩

/-- Suppose that an object under the name of the workload was there when the run first tried to
create it. If the run was told of the object by a lookup, it did not strike it; and if its worker
came to its end, that is the only case in which it did not. -/
theorem struck_iff_not_found {Held : Nat → B.State → Prop} {fuel : Nat} {rt : Runtime}
    {a : Assignment} {interrupts : List Nat} {now : Nat} {state : B.State}
    {e : WorkerEnd B.recorded} {w : World B.recorded}
    (hP : Persists B a.run.workloadName Held)
    (hr : Lifecycle.runToEnd fuel rt a interrupts (World.beginning now state) = some (e, w))
    (hpre : Foreign.Preceded Held w) :
    (w.Found a.run.workloadName (Labels.ofRun a.run) →
        ¬ Foreign.Struck Held a.run.workloadName w) ∧
      ∀ cause own, e = .done cause own →
        (Foreign.Struck Held a.run.workloadName w ↔
          ¬ w.Found a.run.workloadName (Labels.ofRun a.run)) := by
  have hstart : Foreign.Uncreated a.run.workloadName (Labels.ofRun a.run)
      (World.beginning (B := B) now state) :=
    ⟨rfl, rfl, fun ⟨_, _, _, hx, _⟩ => by simp [World.beginning] at hx⟩
  obtain ⟨st, hstands, hend⟩ := Lifecycle.runToEnd_stands hr
  obtain ⟨hdone, hother⟩ := hstands.of_meets Lifecycle.flows_passes
    (fun w₀ h₀ => Foreign.meets_worker hP rfl rfl (hstart.passes h₀))
    (fun _ _ h hw => Foreign.Told.passes h hw) (hstart.unfound.told)
    (fun _ _ _ h hw => Foreign.Ended.passes hP h hw)
  cases hend with
  | done cause fs =>
    have hiff := (hdone fs rfl).struck_iff hpre
    exact ⟨fun hf hs => hiff.mp hs hf, fun _ _ _ => hiff⟩
  | crashed cause f => exact ⟨hother nofun, nofun⟩
  | unbegun cause => exact ⟨hother nofun, nofun⟩
  | forced cause st =>
    refine ⟨?_, nofun⟩
    by_cases hfin : ∃ fs, st = .finished fs
    · obtain ⟨fs, rfl⟩ := hfin
      exact fun hf hs => ((hdone fs rfl).struck_iff hpre).mp hs hf
    · exact hother fun fs hfs => hfin ⟨fs, hfs⟩

namespace Foreign

/-- A cluster that holds an object under the name until it is deleted, and gives these answers to
creations and lookups. -/
def occupied (name : String) (creation : CheckError)
    (lookup : Except CheckError (Option Workload)) : Behaviour Cluster where
  State := Bool
  Ticket := Unit
  start _ _ s := (.zero, (), s)
  answer _ r _ s :=
    match r with
    | .listNodes => (.ok [], s)
    | .listPods _ => (.ok [], s)
    | .listWorkloads _ _ => (.ok ⟨[], none⟩, s)
    | .createWorkload _ => (.error creation, s)
    | .deleteWorkload n => (.ok (), s && n != name)
    | .deletePods _ | .deletePod _ => (.ok (), s)
    | .getPod _ => (.ok none, s)
    | .getWorkload _ => (lookup, s)

variable {name : String} {creation : CheckError}
  {lookup : Except CheckError (Option Workload)}

theorem occupied_persists (hcreation : creation.isNameTaken = false)
    (hlookup : ∀ e, lookup = .error e → e.isNameTaken = false) :
    Persists (occupied name creation lookup) name fun _ s => s = true where
  passes h _ := h
  start _ h := h
  answer {t r k s} hr h := by
    cases r with
    | deleteWorkload n =>
      have hn : n ≠ name := fun hn => hr (congrArg _ hn)
      have hs : s = true := h
      show (s && n != name) = true
      simpa [hs] using hn
    | _ => exact h
  silent {t r k s e} h := by
    cases r with
    | createWorkload => cases h; exact hcreation
    | getWorkload => exact hlookup e h
    | _ => cases h

def forbidden : CheckError :=
  .cluster (.api ⟨"Failure", "forbidden", "Forbidden", 403⟩)

def assignment : Assignment :=
  ⟨.standard, ⟨"daemonset", "probe", 1⟩, 900000000000⟩

/-- The cluster in which the name of that run's workload is held, and creations are refused. -/
abbrev guarded : Behaviour Cluster :=
  occupied assignment.run.workloadName forbidden (.ok none)

theorem guarded_persists :
    Persists guarded assignment.run.workloadName fun _ s => s = true :=
  occupied_persists rfl nofun

/-- The object was there at the first attempt to create a workload, and later when it was to be
deleted by its name. -/
def isStruck (w : World guarded.recorded) : Bool :=
  (w.sinceCreate.head?.any fun c : Sighting guarded => (c.state : Bool)) &&
    w.sinceCreate.any fun c : Sighting guarded => match c.request with
      | .deleteWorkload n => n == assignment.run.workloadName && (c.state : Bool)
      | _ => false

theorem struck_of_isStruck {w : World guarded.recorded} (h : isStruck w = true) :
    Preceded (fun _ s => s = true) w ∧
      Struck (fun _ s => s = true) assignment.run.workloadName w := by
  obtain ⟨hfirst, hlater⟩ := Bool.and_eq_true_iff.mp h
  obtain ⟨c, hc, hs⟩ := (Option.any_eq_true _ _).mp hfirst
  obtain ⟨d, hd, hr⟩ := List.any_eq_true.mp hlater
  refine ⟨⟨c, hc, hs⟩, d, hd, ?_⟩
  split at hr
  · next n hn =>
    obtain ⟨hname, hs⟩ := Bool.and_eq_true_iff.mp hr
    exact ⟨hn.trans (congrArg _ (eq_of_beq hname)), hs⟩
  · cases hr

theorem exists_isStruck : ∃ e w,
    Lifecycle.runToEnd 200 .simulated assignment [] (World.beginning (B := guarded) 0 true) =
        some (e, w) ∧
      isStruck w = true := by
  have h : (Lifecycle.runToEnd 200 .simulated assignment []
      (World.beginning (B := guarded) 0 true)).any (fun x => isStruck x.2) = true := by
    decide +kernel
  obtain ⟨⟨e, w⟩, hrun, hw⟩ := (Option.any_eq_true _ _).mp h
  exact ⟨e, w, hrun, hw⟩

end Foreign

/-- The theorem for a run whose creation is refused: it is told nothing and strikes the object. -/
theorem struck_iff_not_found_refused : ∃ e w,
    Lifecycle.runToEnd 200 .simulated Foreign.assignment []
        (World.beginning (B := Foreign.guarded) 0 true) = some (e, w) ∧
      (w.Found Foreign.assignment.run.workloadName (Labels.ofRun Foreign.assignment.run) →
        ¬ Foreign.Struck (fun _ s => s = true) Foreign.assignment.run.workloadName w) ∧
      ∀ cause own, e = .done cause own →
        (Foreign.Struck (fun _ s => s = true) Foreign.assignment.run.workloadName w ↔
          ¬ w.Found Foreign.assignment.run.workloadName
            (Labels.ofRun Foreign.assignment.run)) := by
  obtain ⟨e, w, hrun, hw⟩ := Foreign.exists_isStruck
  exact ⟨e, w, hrun, struck_iff_not_found Foreign.guarded_persists hrun
    (Foreign.struck_of_isStruck hw).1⟩

/-- It is not so that no run ever strikes an object that was there before. -/
theorem not_always_spared : ¬ ∀ (B : Behaviour Cluster) (Held : Nat → B.State → Prop)
    (fuel : Nat) (rt : Runtime) (a : Assignment) (interrupts : List Nat) (now : Nat)
    (state : B.State) (e : WorkerEnd B.recorded) (w : World B.recorded),
    Persists B a.run.workloadName Held →
    Lifecycle.runToEnd fuel rt a interrupts (World.beginning now state) = some (e, w) →
    Foreign.Preceded Held w → ¬ Foreign.Struck Held a.run.workloadName w := by
  intro h
  obtain ⟨e, w, hrun, hw⟩ := Foreign.exists_isStruck
  obtain ⟨hpre, hstruck⟩ := Foreign.struck_of_isStruck hw
  exact h Foreign.guarded _ 200 .simulated Foreign.assignment [] 0 true e w
    Foreign.guarded_persists hrun hpre hstruck

end NodeCoverage
