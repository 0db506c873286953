import NodeCoverage.Proofs.Check.Confirmation
import NodeCoverage.Proofs.Check.Course
import NodeCoverage.Proofs.Check.Footprint
import NodeCoverage.Proofs.Cluster.Call
/-!
# How teardown ends

Unless it is made to give up, teardown ends because the cluster has listed none of the pods and then
not the workload, because the cluster has refused a call, or because its time is over. In the first
two cases the log has the answers that were decisive.
-/

namespace NodeCoverage

open Cluster (Request)
open Process (Meets)

variable {B : Behaviour Cluster} {J : World B → Prop} {c : Option Nat} {stop : Signal}
  {v w w' : World B}

/-- What holds throughout, whatever is called and answered, as long as the signal does not fire. -/
structure Throughout (c : Option Nat) (stop : Signal) (v : World B) (J : World B → Prop) :
    Prop where
  keeps : Keeps (S := Cluster) (fun _ => True) (fun _ => False) J
  halts : ∀ {w₁ w₂}, J w₁ → w₁.Halts c w₂ → J w₂
  log : ∀ {w}, J w → ∃ events, v.Adds events w
  unfired : ∀ {w}, J w → w.fired stop = false

theorem Process.Meets.finishes {S : Service} {B : Behaviour S} {E : Surroundings B} {α : Type}
    {p : Process S α} {w : World B} :
    Meets E (fun _ => True) p w fun a w' => Process.Finishes E p w a w' := by
  intro st w' hr
  cases st with
  | finished a => exact hr.mono And.left
  | suspended | crashed | exhausted => exact trivial

namespace Throughout

theorem answered (hJ : Throughout c stop v J) (r : Request) (x : Cluster.Reply r) :
    Throughout c stop v fun w => J w ∧ v.Answered w r x where
  keeps :=
    { call := fun hr h => ⟨hJ.keeps.call hr h.1, h.2.mono (World.adds_call ..)⟩
      answer := fun hr h => ⟨hJ.keeps.answer hr h.1, h.2.mono (World.adds_answer ..)⟩
      note := fun hn _ => hn.elim }
  halts h hw := by
    obtain ⟨stops, hstops⟩ := hw.passes.trace_eq
    exact ⟨hJ.halts h.1 hw, h.2.mono hstops⟩
  log h := hJ.log h.1
  unfired h := hJ.unfired h.1

theorem meets_call (hJ : Throughout c stop v J) {policy : Backoff} {r : Request} (hw : J w) :
    Meets (fun _ => World.Halts c) J (Cluster.call stop policy r) w
      fun o w' => J w' ∧ v.Answered w' r o :=
  Cluster.meets_logged World.Halts.transitive hw
    ⟨fun _ => hJ.keeps.call trivial, fun _ => hJ.keeps.answer trivial, False.elim⟩
    (fun _ => hJ.log) fun _ => hJ.unfired

end Throughout

namespace Teardown

variable {config : Config} {deadline : Nat} {name : String}

/-- What the cluster has answered since `v` that made teardown end so. -/
inductive Grounds (v : World B) (name : String) (w : World B) : Except CheckError Unit → Prop
  /-- It has listed none of the pods, and on the last page of the workloads not this one. -/
  | gone {token : Option String} {page : Cluster.Page} :
    v.Answered w (.listPods (Labels.runSelector name)) (.ok []) →
    v.Answered w (.listWorkloads (Labels.runSelector name) token) (.ok page) →
    ¬ Shows page name → page.next = none → Grounds v name w (.ok ())
  | refused {r : Request} {e : CheckError} :
    v.Answered w r (.error e) → Grounds v name w (.error e)
  /-- It has answered as if the run had been cancelled. -/
  | cancelled {r : Request} {e e' : CheckError} :
    v.Answered w r (.error e') → e'.isCancelled = true → e.isCancelled = true →
    Grounds v name w (.error e)

theorem Grounds.mono {o : Except CheckError Unit} {events : List (Event Cluster)}
    (h : Grounds v name w o) (hadds : w.Adds events w') : Grounds v name w' o := by
  cases h with
  | gone hpods hpage hshows hnext => exact .gone (hpods.mono hadds) (hpage.mono hadds) hshows hnext
  | refused h => exact .refused (h.mono hadds)
  | cancelled h he' he => exact .cancelled (h.mono hadds) he' he

/-- Teardown that had time until the deadline has ended so. -/
def Ends (v : World B) (name : String) (deadline : Nat) (o : Except CheckError Unit)
    (w : World B) : Prop :=
  Grounds v name w o ∨
    deadline ≤ w.now ∧ ∃ outstanding, o = .error (.timeout "teardown" outstanding)

theorem meets_pause (hJ : Throughout c stop v J) {outstanding : String} (hw : J w) :
    Meets (fun _ => World.Halts c) J (pause config stop deadline outstanding) w fun o w' =>
      J w' ∧ ∀ e, o = .error e → Ends v name deadline (.error e) w' := by
  have hpause : Meets (fun _ => World.Halts c) J
      (Process.pause stop deadline config.removalPollInterval) w fun paused w' =>
        J w' ∧ paused ≠ .stopped ∧ (paused = .overdue → deadline ≤ w'.now) := by
    refine .pause World.Halts.transitive hw (fun w hw hfired => ?_) fun w hw => ?_
    · rw [hJ.unfired hw] at hfired
      cases hfired
    · split
      · next hle => exact ⟨hw, nofun, fun _ => hle⟩
      · exact ⟨hw, nofun, nofun⟩
  apply hpause.seq
  rintro paused w₁ ⟨hw₁, hstopped, hoverdue⟩
  cases paused with
  | stopped => exact absurd rfl hstopped
  | overdue =>
    refine .pure ⟨hw₁, ?_⟩
    rintro _ ⟨⟩
    exact .inr ⟨hoverdue rfl, _, rfl⟩
  | «over» => exact .pure ⟨hw₁, nofun⟩

theorem meets_deletePods (hJ : Throughout c stop v J) (hw : J w) :
    Meets (fun _ => World.Halts c) J (deletePods config stop name) w fun o w' =>
      J w' ∧ ∀ e, o = .error e → Grounds v name w' (.error e) := by
  apply (hJ.meets_call hw).mono
  rintro o w₁ ⟨hw₁, hanswered⟩
  refine ⟨hw₁, ?_⟩
  rintro e rfl
  exact .refused hanswered

theorem meets_remove (hJ : Throughout c stop v J) (hw : J w) :
    Meets (fun _ => World.Halts c) J (remove config stop name) w fun o w' =>
      J w' ∧ ∀ e, o = .error e → Grounds v name w' (.error e) := by
  apply (hJ.meets_call hw).seq
  rintro deleted w₁ ⟨hw₁, hanswered⟩
  cases deleted with
  | error e =>
    refine .pure ⟨hw₁, ?_⟩
    rintro _ ⟨⟩
    exact .refused hanswered
  | ok => exact meets_deletePods hJ hw₁

theorem meets_deleteAgain (hJ : Throughout c stop v J) {l : Lingering} (hw : J w) :
    Meets (fun _ => World.Halts c) J (deleteAgain config stop name l) w fun _ w' => J w' := by
  refine .bind (.clock ?_)
  split
  · apply (meets_deletePods hJ hw).seq
    intro _ w₁ hw₁
    exact .bind (.clock (.pure hw₁.1))
  · exact .pure hw

theorem afterListing_cases {l : Lingering} {listing : Except CheckError (List Pod)}
    {o : Except CheckError Unit} (h : afterListing l listing = .inr o) :
    (listing = .ok [] ∧ o = .ok ()) ∨ ∃ e e', listing = .error e' ∧ e'.isCancelled = true ∧
      o = .error e ∧ e.isCancelled = true := by
  match listing with
  | .ok [] =>
    cases h
    exact .inl ⟨rfl, rfl⟩
  | .ok (_ :: _) => cases h
  | .error e =>
    cases he : e.isCancelled with
    | true =>
      simp only [afterListing, he, if_true] at h
      cases h
      exact .inr ⟨_, e, rfl, he, rfl, rfl⟩
    | false =>
      simp only [afterListing, he, Bool.false_eq_true, if_false] at h
      cases h

theorem meets_awaitPods (hJ : Throughout c stop v J) (hw : J w) :
    Meets (fun _ => World.Halts c) J (awaitPods config stop deadline name) w fun o w' =>
      J w' ∧ (o = .ok () → v.Answered w' (.listPods (Labels.runSelector name)) (.ok [])) ∧
        ∀ e, o = .error e → Ends v name deadline (.error e) w' := by
  refine .bind (.clock (.iterate (fun _ => J) hw fun l w hw => ?_))
  apply (hJ.meets_call hw).seq
  rintro listing w₁ ⟨hw₁, hanswered⟩
  cases hl : afterListing l listing with
  | inr o =>
    dsimp only
    rcases afterListing_cases hl with ⟨rfl, rfl⟩ | ⟨e, e', rfl, he', rfl, he⟩
    · exact .pure ⟨hw₁, fun _ => hanswered, nofun⟩
    · refine .pure ⟨hw₁, nofun, ?_⟩
      rintro _ ⟨⟩
      exact .inl (.cancelled hanswered he' he)
  | inl l =>
    dsimp only
    apply (meets_deleteAgain hJ hw₁).seq
    intro l w₂ hw₂
    apply (meets_pause hJ hw₂).seq
    rintro paused w₃ ⟨hw₃, hends⟩
    cases paused with
    | error e => exact .pure ⟨hw₃, nofun, hends⟩
    | ok => exact .pure hw₃

theorem meets_present (hJ : Throughout c stop v J) (hw : J w) :
    Meets (fun _ => World.Halts c) J (present config stop name) w fun o w' =>
      J w' ∧ (∀ e, o = .error e → ∃ r, v.Answered w' r (.error e)) ∧
        (o = .ok false → ∃ token page,
          v.Answered w' (.listWorkloads (Labels.runSelector name) token) (.ok page) ∧
          ¬ Shows page name ∧ page.next = none) := by
  refine .iterate (fun _ => J) hw fun token w hw => ?_
  apply (hJ.meets_call hw).seq
  rintro listing w₁ ⟨hw₁, hanswered⟩
  cases listing with
  | error e =>
    refine .pure ⟨hw₁, ?_, by simp⟩
    rintro _ ⟨⟩
    exact ⟨_, hanswered⟩
  | ok page =>
    dsimp only
    split
    · exact .pure ⟨hw₁, by simp, by simp⟩
    · next hshows =>
      have hshows : ¬ Shows page name := by simpa [Shows] using hshows
      cases hnext : page.next with
      | some next => exact .pure hw₁
      | none => exact .pure ⟨hw₁, by simp, fun _ => ⟨token, page, hanswered, hshows, hnext⟩⟩

theorem meets_awaitParent (hJ : Throughout c stop v J)
    (hpods : ∀ w, J w → v.Answered w (.listPods (Labels.runSelector name)) (.ok [])) (hw : J w) :
    Meets (fun _ => World.Halts c) J (awaitParent config stop deadline name) w fun o w' =>
      J w' ∧ Ends v name deadline o w' := by
  have wait {w : World B} (hw : J w) :
      Meets (fun _ => World.Halts c) J (parentRound.wait config stop deadline name) w
        fun x w' => x.elim (fun _ => J w') fun o => J w' ∧ Ends v name deadline o w' := by
    apply (meets_pause hJ hw).seq
    rintro paused w₁ ⟨hw₁, hends⟩
    cases paused with
    | error e => exact .pure ⟨hw₁, hends e rfl⟩
    | ok => exact .pure hw₁
  refine .iterate (fun _ => J) hw fun _ w hw => ?_
  apply (meets_present hJ hw).seq
  rintro found w₁ ⟨hw₁, hrefused, habsent⟩
  match found with
  | .ok false =>
    obtain ⟨token, page, hpage, hshows, hnext⟩ := habsent rfl
    exact .pure ⟨hw₁, .inl (.gone (hpods w₁ hw₁) hpage hshows hnext)⟩
  | .ok true => exact wait hw₁
  | .error e =>
    dsimp only
    split
    · obtain ⟨r, hanswered⟩ := hrefused e rfl
      exact .pure ⟨hw₁, .inl (.refused hanswered)⟩
    · exact wait hw₁

private theorem meets_ends (hJ : Throughout c stop v J) (hw : J w) :
    Meets (fun _ => World.Halts c) J (run config stop deadline name) w fun o w' =>
      J w' ∧ Ends v name deadline o w' := by
  apply (meets_remove hJ hw).seq
  rintro removed w₁ ⟨hw₁, hrefused⟩
  cases removed with
  | error e => exact .pure ⟨hw₁, .inl (hrefused e rfl)⟩
  | ok =>
    apply (meets_awaitPods hJ hw₁).seq
    rintro awaited w₂ ⟨hw₂, hpods, hends⟩
    cases awaited with
    | error e => exact .pure ⟨hw₂, hends e rfl⟩
    | ok =>
      have hJ' := hJ.answered (.listPods (Labels.runSelector name)) (.ok [])
      apply ((meets_awaitParent hJ' (fun w h => h.2) ⟨hw₂, hpods rfl⟩).within
        (fun _ _ _ h he => hJ'.halts h he) fun _ h => h.1).mono
      rintro o w₃ ⟨⟨hw₃, -⟩, hends⟩
      exact ⟨hw₃, hends⟩

/-- Teardown ends on the grounds of what it is answered, or it is given up when its time is over. -/
theorem meets_run (hJ : Throughout c stop v J) (hw : J w) :
    Meets (fun _ => World.Halts c) J (run config stop deadline name) w fun o w' =>
      J w' ∧ (Grounds v name w' o ∨ deadline ≤ w'.now ∧ ∃ names,
        o = .error (.timeout "teardown" names) ∧
          TimedOut (fun _ => World.Halts c) config stop deadline name w names w') := by
  apply ((meets_ends hJ hw).and .finishes).mono
  rintro o w' ⟨⟨hw', hgrounds | ⟨hlate, names, rfl⟩⟩, hrun⟩
  · exact ⟨hw', .inl hgrounds⟩
  · rcases timedOut_of_finishes hrun with hremove | ⟨-, htimedOut⟩
    · have hrefused := (meets_remove hJ hw).of_reaches (fun _ _ _ h he => hJ.halts h he) hremove
      exact ⟨hw', .inl (hrefused.2 _ rfl)⟩
    · exact ⟨hw', .inr ⟨hlate, names, rfl, htimedOut⟩⟩

end Teardown

namespace Worker

open Cluster (Entry)

/-- A failure that is not one of teardown. -/
def IsApart (f : Failure) : Prop :=
  ∀ e, f ≠ .during .tearingDown e

/-- The worker has ended with these failures. Either it has not begun with teardown, and `P` holds,
or teardown came last, and `R` holds of its failures. -/
def EndsWith (P : World B → Prop) (R : List Failure → World B → Prop) (fs : List Failure)
    (w : World B) : Prop :=
  (P w ∧ ∀ f ∈ fs, IsApart f) ∨
    ∃ before torn, fs = before ++ torn ∧ (∀ f ∈ before, IsApart f) ∧ R torn w

variable {E : Surroundings B} {P I : World B → Prop} {R : List Failure → World B → Prop}
  {a : Assignment} {α : Type}

theorem EndsWith.prepend {fs gs : List Failure} (h : EndsWith P R fs w)
    (hgs : ∀ f ∈ gs, IsApart f) : EndsWith P R (gs ++ fs) w := by
  rcases h with ⟨hw, hfs⟩ | ⟨before, torn, rfl, hbefore, htorn⟩
  · exact .inl ⟨hw, fun f hf => (List.mem_append.mp hf).elim (hgs f) (hfs f)⟩
  · refine .inr ⟨gs ++ before, torn, (List.append_assoc ..).symm, fun f hf => ?_, htorn⟩
    exact (List.mem_append.mp hf).elim (hgs f) (hbefore f)

theorem meets_record (phase : Cluster.Phase) {e : CheckError} (hphase : phase ≠ .tearingDown)
    (hw : P w) : Meets E I (record phase e) w fun fs w' => P w' ∧ ∀ f ∈ fs, IsApart f := by
  refine .bind (.fired (.pure ⟨hw, ?_⟩))
  split
  · exact List.forall_mem_nil _
  · rintro _ hf e' rfl
    cases List.mem_singleton.mp hf
    exact hphase rfl

/-- An entry that is neither that of teardown nor that of a run which is stopped. -/
def IsSteady (e : Entry) : Prop :=
  e ≠ .entered .tearingDown ∧ e ≠ .entered .shuttingDown

theorem isSteady_of_notes {e : Entry} (h : Sweep.Notes e) : IsSteady e := by
  cases e with
  | entered => exact h.elim
  | orphan => exact ⟨nofun, nofun⟩

/-- What holds until teardown is entered, whatever is called before. -/
structure Until (E : Surroundings B) (P I : World B → Prop) : Prop where
  keeps : Keeps (S := Cluster) (fun _ => True) IsSteady P
  lasts : ∀ {t w₁ w₂}, P w₁ → E t w₁ w₂ → P w₂
  implies : ∀ {w}, P w → I w

namespace Until

variable (hP : Until E P I)
include hP

theorem meets_of_uses {p : Process Cluster α} {calls : Request → Prop} {notes : Entry → Prop}
    {faults : Fault → Prop} (hp : p.Uses calls notes faults) (hnotes : ∀ e, notes e → IsSteady e)
    (hw : P w) : Meets E I p w fun _ w' => P w' :=
  .of_uses_within hw hP.keeps hp (fun _ _ => trivial) hnotes (fun _ _ _ => hP.lasts)
    fun _ => hP.implies

theorem meets_verify {set : ToleranceSet} (hw : P w) :
    Meets E I (verify a set) w fun fs w' => P w' ∧ ∀ f ∈ fs, IsApart f := by
  have hw : P (w.note (S := Cluster) (.entered .verifying)) := hP.keeps.note ⟨nofun, nofun⟩ hw
  refine .bind (.note ?_)
  apply (hP.meets_of_uses Verification.run_uses (fun _ h => h.elim) hw).seq
  intro outcome w₁ hw₁
  cases outcome with
  | ok => exact .pure ⟨hw₁, List.forall_mem_nil _⟩
  | error e => exact meets_record .verifying nofun hw₁

variable (hteardown : ∀ w, P w → Meets E I (teardown a) w R)
include hteardown

theorem meets_probe {set : ToleranceSet} {x : Workload} (hw : P w) :
    Meets E I (probe a set x) w (EndsWith P R) := by
  have tornDown {w : World B} {fs : List Failure} (hw : P w) (hfs : ∀ f ∈ fs, IsApart f) :
      Meets E I (teardown a >>= fun gs => (pure (fs ++ gs) : Process Cluster _)) w
        (EndsWith P R) := by
    apply (hteardown w hw).seq
    intro gs w₁ hgs
    exact .pure (.inr ⟨fs, gs, rfl, hfs, hgs⟩)
  have hw : P (w.note (S := Cluster) (.entered .deploying)) := hP.keeps.note ⟨nofun, nofun⟩ hw
  refine .bind (.note ?_)
  apply (hP.meets_of_uses Deployment.run_uses (fun _ h => h.elim) hw).seq
  intro deployed w₁ hw₁
  cases deployed with
  | ok =>
    apply (hP.meets_verify hw₁).seq
    rintro fs w₂ ⟨hw₂, hfs⟩
    exact tornDown hw₂ hfs
  | error e =>
    apply (meets_record .deploying nofun hw₁).seq
    rintro fs w₂ ⟨hw₂, hfs⟩
    split
    · exact .pure (.inl ⟨hw₂, hfs⟩)
    · exact tornDown hw₂ hfs

theorem meets_work (hw : P w) : Meets E I (work a) w (EndsWith P R) := by
  have hw : P (w.note (S := Cluster) (.entered .init)) := hP.keeps.note ⟨nofun, nofun⟩ hw
  refine .bind (.note ?_)
  apply (hP.meets_of_uses owner_uses (fun _ h => h.elim) hw).seq
  intro owner w₁ hw₁
  apply (hP.meets_of_uses tolerances_uses (fun _ h => h.elim) hw₁).seq
  intro set w₂ hw₂
  have hw₂ : P (w₂.note (S := Cluster) (.entered .preCleanup)) := hP.keeps.note ⟨nofun, nofun⟩ hw₂
  refine .bind (.note (.bind (.clock ?_)))
  apply (hP.meets_of_uses Sweep.untilClear_uses (fun _ => isSteady_of_notes) hw₂).seq
  intro swept w₃ hw₃
  cases swept with
  | ok => exact hP.meets_probe hteardown hw₃
  | error e =>
    dsimp only
    split
    · exact (meets_record .preCleanup nofun hw₃).mono fun _ _ h => .inl h
    · apply (hP.meets_probe hteardown hw₃).seq
      intro fs w₄ hfs
      have happart : ∀ f ∈ [Failure.during .preCleanup e], IsApart f := by
        rintro _ hf e' rfl
        cases List.mem_singleton.mp hf
      exact .pure (hfs.prepend happart)

/-- The worker does as its teardown does, if it comes to it. -/
theorem meets_run (hR : ∀ fs w, R fs w → R fs (w.note (.entered .postCleanup))) (hw : P w) :
    Meets E I (run a) w (EndsWith P R) := by
  apply (hP.meets_work hteardown hw).seq
  intro fs w₁ hfs
  refine .bind (.note (.pure ?_))
  rcases hfs with ⟨hw₁, hfs⟩ | ⟨before, torn, rfl, hbefore, htorn⟩
  · exact .inl ⟨hP.keeps.note ⟨nofun, nofun⟩ hw₁, hfs⟩
  · exact .inr ⟨before, torn, rfl, hbefore, hR torn w₁ htorn⟩

end Until
end Worker
end NodeCoverage
