import NodeCoverage.Check.Worker
import NodeCoverage.Proofs.Cluster.Call
import NodeCoverage.Proofs.Process.Beside
import NodeCoverage.Proofs.Process.Rest
/-!
# The worker makes progress

Every loop of the worker asks the cluster something in each of its rounds, unless it finds that it
was stopped, and then it ends. So the worker never goes round in one instant without a call.
-/

namespace NodeCoverage

open Cluster (Request)
open Process (Diligent Meets)

variable {B : Behaviour Cluster} {w : World B} {n : Nat} {config : Config} {stop : Signal}
  {deadline : Nat} {workloadName : String}

/-- What was cancelled before it began, or at least has made a call. -/
def Cancelled {α : Type} (n : Nat) (x : Except CheckError α) (w : World B) : Prop :=
  (∃ e, x = .error e ∧ e.isCancelled = true) ∨ n < w.calls

namespace Cluster

theorem diligent_callAs {policy : Backoff} {operation : String} {r : Request} :
    (callAs stop policy operation r).Diligent B := by
  have hattempt (w : World B) : (Process.call (S := Cluster) r).Meets .counting (fun _ => True) w
      fun _ w' => w.calls < w'.calls :=
    .call Surroundings.counting_transitive trivial fun w₁ hw₁ _ => by
      rcases hw₁ with rfl | hw₁
      · exact Nat.lt_succ_self _
      · exact hw₁
  refine .bind (Diligent.retry trivial hattempt) fun o => ?_
  cases o <;> exact .pure

theorem diligent_call {policy : Backoff} {r : Request} : (call stop policy r).Diligent B :=
  diligent_callAs

theorem meets_counting {policy : Backoff} {r : Request} (hw : n ≤ w.calls) :
    Meets .counting (fun _ => True) (call stop policy r) w (Cancelled n) := by
  have hcall : Meets .counting (fun w => n ≤ w.calls) (call stop policy r) w (Cancelled n) := by
    apply meets_call Surroundings.counting_transitive hw
    · intro w h
      exact Nat.le_succ_of_le h
    · intro w₀ w₁ h hstill h₁
      have hlt : n < w₁.calls := by
        rcases hstill with rfl | hmore
        · exact Nat.lt_succ_of_le h
        · exact Nat.lt_of_le_of_lt h hmore
      exact ⟨.inr hlt, fun _ _ => h₁⟩
    · intro w _ _
      exact .inl ⟨_, rfl, rfl⟩
  exact hcall.within (fun _ _ _ h hc => Nat.le_trans h hc) fun _ _ => trivial

/-- A round of a walk over pages: it ends if its call fails, and otherwise has made a call. -/
def Turns {α σ : Type} (n : Nat) (x : σ ⊕ Except CheckError α) (w : World B) : Prop :=
  x.elim (fun _ => n < w.calls) (Cancelled n · w)

variable {α σ : Type} {s : σ} {body : σ → Process Cluster (σ ⊕ Except CheckError α)}

theorem meets_turn {policy : Backoff} {r : Request}
    {next : Except CheckError r.Result → Process Cluster (σ ⊕ Except CheckError α)}
    (hnext : ∀ e, next (.error e) = pure (.inr (.error e))) (hw : n ≤ w.calls) :
    Meets .counting (fun _ => True) (call stop policy r >>= next) w (Turns n) := by
  apply (meets_counting hw).seq
  intro answer w₁ hanswer
  cases answer with
  | error e =>
    rw [hnext]
    refine .pure ?_
    rcases hanswer with ⟨_, ⟨⟩, he⟩ | hcalls
    · exact .inl ⟨e, rfl, he⟩
    · exact .inr hcalls
  | ok a =>
    have hcalls : n < w₁.calls := hanswer.resolve_left nofun
    apply (Meets.counting hcalls).mono
    intro x w' h
    cases x with
    | inl => exact h
    | inr => exact .inr h

theorem diligent_turns (hbody : ∀ s, (body s).Diligent B)
    (hturns : ∀ s (w : World B), Meets .counting (fun _ => True) (body s) w (Turns w.calls)) :
    (Process.iterate body s).Diligent B := by
  refine .iterate hbody fun s w => (hturns s w).mono fun x w' h hx => ?_
  cases x with
  | inl => exact h
  | inr => cases hx

/-- A walk that was not cancelled has made a call. -/
theorem meets_turns (hw : n ≤ w.calls)
    (hturns : ∀ s (w : World B), n ≤ w.calls →
      Meets .counting (fun _ => True) (body s) w (Turns n)) :
    Meets .counting (fun _ => True) (Process.iterate body s) w (Cancelled n) := by
  apply Meets.iterate (fun _ w => n ≤ w.calls) hw
  intro s w hw
  apply (hturns s w hw).mono
  intro x w' h
  cases x with
  | inl => exact Nat.le_of_lt h
  | inr => exact h

end Cluster

theorem Process.Meets.called {α : Type} {p : Process Cluster α} {P : α → Prop} (h : n < w.calls) :
    Meets .counting (fun _ => True) p w fun a w' => P a → n < w'.calls :=
  (Meets.counting h).mono fun _ _ h _ => h

theorem Process.diligent_pause {deadline : Nat} {interval : Duration} :
    (Process.pause (S := Cluster) stop deadline interval).Diligent B := by
  refine .bind trivial fun now => .bind trivial fun o => ?_
  cases o with
  | none => exact .pure
  | some => exact .bind trivial fun _ => .pure

namespace Sweep

variable {run : Run} {kind : Sweepable}

theorem visit_diligent {m : Metadata} {h : HalfSweep} :
    (visit config stop run kind m h).Diligent B := by
  have hclassify : (classify config stop run m h).Diligent B := by
    unfold classify
    split
    · exact .pure
    · next owner _ =>
      split
      · exact .pure
      · have halive : (ownerAlive config stop owner h).Diligent B := by
          unfold ownerAlive
          split
          · exact .pure
          · refine .bind Cluster.diligent_call fun found => ?_
            cases found <;> exact .pure
        refine .bind halive fun found => ?_
        rcases found with e | ⟨_ | _, h⟩ <;> exact .pure
  have hremove {name : String} {reason : OrphanReason} {h : HalfSweep} :
      (remove config stop kind name reason h).Diligent B := by
    have hdelete : (kind.delete stop config.apiBackoff name).Diligent B := by
      cases kind <;> exact Cluster.diligent_call
    refine .bind trivial fun _ => .bind hdelete fun deleted => ?_
    cases deleted with
    | ok => exact .pure
    | error e =>
      dsimp only
      split <;> exact .pure
  unfold visit
  split
  · exact .pure
  · split
    · exact .pure
    · refine .bind hclassify fun found => ?_
      rcases found with e | ⟨_ | reason, h⟩
      · exact .pure
      · exact .pure
      · exact hremove

theorem visitAll_diligent {ms : List Metadata} {h : HalfSweep} :
    (visitAll config stop run kind ms h).Diligent B := by
  induction ms generalizing h with
  | nil => exact .pure
  | cons m ms ih =>
    refine .bind visit_diligent fun visited => ?_
    cases visited with
    | error e => exact .pure
    | ok h => exact ih

theorem workloadPage_turns {s : Option String × HalfSweep} (hw : n ≤ w.calls) :
    Meets .counting (fun _ => True) (workloadPage config stop run s) w (Cluster.Turns n) :=
  Cluster.meets_turn (fun _ => rfl) hw

theorem workloads_diligent : (workloads config stop run).Diligent B := by
  refine Cluster.diligent_turns (fun (token, h) => .bind Cluster.diligent_call fun listing => ?_)
    fun s w => workloadPage_turns (Nat.le_refl _)
  cases listing with
  | error e => exact .pure
  | ok page =>
    refine .bind visitAll_diligent fun visited => ?_
    cases visited with
    | error e => exact .pure
    | ok h =>
      dsimp only
      split <;> exact .pure

theorem pods_diligent : (pods config stop run).Diligent B := by
  refine .bind Cluster.diligent_call fun listing => ?_
  cases listing with
  | error e => exact .pure
  | ok pods =>
    refine .bind visitAll_diligent fun visited => ?_
    cases visited <;> exact .pure

theorem once_diligent : (once config stop run).Diligent B :=
  .bind ⟨workloads_diligent, pods_diligent⟩ fun _ => .pure

theorem once_counting (hw : n ≤ w.calls) :
    Meets .counting (fun _ => True) (once config stop run) w (Cancelled n) := by
  have counts : (Surroundings.counting (B := B)).Beside (fun _ => True) (fun _ => True)
      fun w w' => w.calls ≤ w'.calls :=
    { refl := fun _ => Nat.le_refl _
      trans := fun h₁ h₂ => Nat.le_trans h₁ h₂
      moves := fun h => h
      call := fun _ => Nat.le_succ _
      answer := fun _ => Nat.le_refl _
      note := fun _ => Nat.le_refl _ }
  have halves : Meets .counting (fun _ => True)
      (Process.both (workloads config stop run) (pods config stop run)) w
      fun x w' => Cancelled n x.1 w' ∧ True := by
    refine Meets.both (P := Cancelled n) (Q := fun _ _ => True) counts counts
      (Process.uses_any _) (Process.uses_any _)
      (Cluster.meets_turns hw fun _ _ => workloadPage_turns) (fun _ _ => .anything)
      ?_ fun _ _ _ _ _ => trivial
    intro x w₁ w₂ hx hle
    rcases hx with hx | hx
    · exact .inl hx
    · exact .inr (Nat.lt_of_lt_of_le hx hle)
  apply halves.seq
  rintro ⟨x, y⟩ w₁ ⟨hx, -⟩
  refine .pure ?_
  rcases hx with ⟨e, he, hcancelled⟩ | hcalls
  · subst he
    exact .inl ⟨e, rfl, hcancelled⟩
  · exact .inr hcalls

theorem untilClear_diligent : (untilClear config stop deadline run).Diligent B := by
  refine .iterate (fun found => .bind once_diligent fun result => ?_) fun found w => ?_
  · split
    · exact .pure
    · refine .bind Process.diligent_pause fun paused => ?_
      cases paused <;> exact .pure
  · apply (once_counting (Nat.le_refl _)).seq
    intro result w₁ hresult
    rcases hresult with ⟨e, rfl, he⟩ | hcalls
    · simp only [round.afterSweep, he, if_true]
      exact .pure nofun
    · exact .called hcalls

end Sweep

theorem Deployment.run_diligent {policy : Backoff} {x : Workload} :
    (Deployment.run stop policy x).Diligent B := by
  refine .bind Cluster.diligent_call fun created => ?_
  cases created with
  | ok => exact .pure
  | error e =>
    dsimp only
    split
    · refine .bind Cluster.diligent_call fun existing => ?_
      cases existing <;> exact .pure
    · exact .pure

namespace Verification

variable {set : ToleranceSet}

theorem look_diligent : (look config stop set workloadName).Diligent B := by
  refine .bind Cluster.diligent_call fun nodes => ?_
  cases nodes with
  | error e => exact .pure
  | ok nodes =>
    refine .bind Cluster.diligent_call fun pods => ?_
    cases pods <;> exact .pure

theorem look_counting (hw : n ≤ w.calls) :
    Meets .counting (fun _ => True) (look config stop set workloadName) w (Cancelled n) := by
  apply (Cluster.meets_counting hw).seq
  intro nodes w₁ hnodes
  cases nodes with
  | error e =>
    refine .pure ?_
    rcases hnodes with ⟨_, ⟨⟩, he⟩ | hcalls
    · exact .inl ⟨e, rfl, he⟩
    · exact .inr hcalls
  | ok nodes => exact (Meets.counting (hnodes.resolve_left nofun)).mono fun _ _ h => .inr h

theorem run_diligent : (run config stop deadline set workloadName).Diligent B := by
  refine .iterate (fun l => .bind Process.diligent_pause fun paused => ?_) fun l w => ?_
  · cases paused with
    | stopped | overdue => exact .pure
    | «over» =>
      refine .bind trivial fun interrupted => ?_
      cases interrupted with
      | true => exact .pure
      | false => exact .bind look_diligent fun _ => .pure
  · apply (Meets.counting (Nat.le_refl w.calls)).seq
    intro paused w₁ hw₁
    cases paused with
    | stopped | overdue => exact .pure nofun
    | «over» =>
      refine .bind (.fired ?_)
      split
      · exact .pure nofun
      · apply (look_counting hw₁).seq
        intro seen w₂ hseen
        refine .pure ?_
        rcases hseen with ⟨e, rfl, he⟩ | hcalls
        · simp only [Looks.after, he, if_true]
          exact nofun
        · exact fun _ => hcalls

end Verification

namespace Teardown

theorem pause_diligent {outstanding : String} :
    (pause config stop deadline outstanding).Diligent B := by
  refine .bind Process.diligent_pause fun paused => ?_
  cases paused <;> exact .pure

theorem awaitPods_diligent : (awaitPods config stop deadline workloadName).Diligent B := by
  have again {l : Lingering} : (deleteAgain config stop workloadName l).Diligent B := by
    refine .bind trivial fun now => ?_
    split
    · exact .bind Cluster.diligent_call fun _ => .bind trivial fun _ => .pure
    · exact .pure
  refine .bind trivial fun started => .iterate (fun l => ?_) fun l w => ?_
  · refine .bind Cluster.diligent_call fun listing => ?_
    split
    · exact .pure
    · refine .bind again fun l => .bind pause_diligent fun paused => ?_
      cases paused <;> exact .pure
  · apply (Cluster.meets_counting (Nat.le_refl _)).seq
    intro listing w₁ hlisting
    rcases hlisting with ⟨e, rfl, he⟩ | hcalls
    · simp only [afterListing, he, if_true]
      exact .pure nofun
    · exact .called hcalls

theorem presencePage_turns {token : Option String} (hw : n ≤ w.calls) :
    Meets .counting (fun _ => True) (presencePage config stop workloadName token) w
      (Cluster.Turns n) :=
  Cluster.meets_turn (fun _ => rfl) hw

theorem present_diligent : (present config stop workloadName).Diligent B := by
  refine Cluster.diligent_turns (fun token => .bind Cluster.diligent_call fun listing => ?_)
    fun token w => presencePage_turns (Nat.le_refl _)
  cases listing with
  | error e => exact .pure
  | ok page =>
    dsimp only
    split
    · exact .pure
    · split <;> exact .pure

theorem awaitParent_diligent : (awaitParent config stop deadline workloadName).Diligent B := by
  have wait : (parentRound.wait config stop deadline workloadName).Diligent B := by
    refine .bind pause_diligent fun paused => ?_
    cases paused <;> exact .pure
  refine .iterate (fun _ => .bind present_diligent fun found => ?_) fun _ w => ?_
  · rcases found with e | _ | _
    · dsimp only
      split
      · exact .pure
      · exact wait
    · exact .pure
    · exact wait
  · have walk : Meets .counting (fun _ => True) (present config stop workloadName) w
        (Cancelled w.calls) :=
      Cluster.meets_turns (Nat.le_refl _) fun _ _ => presencePage_turns
    apply walk.seq
    intro found w₁ hfound
    rcases hfound with ⟨e, rfl, he⟩ | hcalls
    · simp only [he, if_true]
      exact .pure nofun
    · exact .called hcalls

theorem run_diligent : (run config stop deadline workloadName).Diligent B := by
  refine .bind (.bind Cluster.diligent_call fun deleted => ?_) fun removed => ?_
  · cases deleted with
    | error e => exact .pure
    | ok => exact Cluster.diligent_call
  · cases removed with
    | error e => exact .pure
    | ok =>
      refine .bind awaitPods_diligent fun awaited => ?_
      cases awaited with
      | error e => exact .pure
      | ok => exact awaitParent_diligent

end Teardown

namespace Worker

variable {a : Assignment}

theorem owner_diligent : (owner a).Diligent B := by
  refine .bind Cluster.diligent_call fun found => ?_
  rcases found with e | _ | pod <;> exact .pure

theorem tolerances_diligent : (tolerances a).Diligent B := by
  unfold tolerances
  split
  · exact .pure
  · refine .bind (.bind Cluster.diligent_call fun nodes => ?_) fun discovered => ?_
    · cases nodes <;> exact .pure
    · cases discovered <;> exact .pure

theorem record_diligent {phase : Cluster.Phase} {e : CheckError} :
    (record phase e).Diligent B :=
  .bind trivial fun _ => .pure

theorem probe_diligent {set : ToleranceSet} {x : Workload} : (probe a set x).Diligent B := by
  have teardown : (teardown a).Diligent B := by
    refine .bind trivial fun _ => .bind trivial fun _ => .bind trivial fun _ =>
      .bind Teardown.run_diligent fun outcome => ?_
    cases outcome <;> exact .pure
  have verify : (verify a set).Diligent B := by
    refine .bind trivial fun _ => .bind Verification.run_diligent fun outcome => ?_
    cases outcome with
    | ok => exact .pure
    | error e => exact record_diligent
  refine .bind trivial fun _ => .bind Deployment.run_diligent fun deployed => ?_
  cases deployed with
  | ok => exact .bind verify fun _ => .bind teardown fun _ => .pure
  | error e =>
    refine .bind record_diligent fun fs => ?_
    split
    · exact .pure
    · exact .bind teardown fun _ => .pure

theorem run_diligent : (run a).Diligent B := by
  refine .bind ?_ fun fs => .bind trivial fun _ => .pure
  refine .bind trivial fun _ => .bind owner_diligent fun owner => .bind tolerances_diligent
    fun set => .bind trivial fun _ => .bind trivial fun now => .bind Sweep.untilClear_diligent
    fun swept => ?_
  cases swept with
  | ok => exact probe_diligent
  | error e =>
    dsimp only
    split
    · exact record_diligent
    · exact .bind probe_diligent fun _ => .pure

end Worker
end NodeCoverage
