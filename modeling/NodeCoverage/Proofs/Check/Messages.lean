import NodeCoverage.Proofs.Check.Forcing
import NodeCoverage.Proofs.Check.Overtime
import NodeCoverage.Proofs.Check.Rounds
import NodeCoverage.Proofs.Process.Beside
/-!
# What a run says has failed

The failures of a run stand in a fixed order: that it was interrupted, that it took too long, and
then those of the worker, at most one of its first sweep, one of deployment or verification, and one
of teardown. A part that gives up as cancelled does so because its signal has fired, or because the
cluster has given it such an answer. What was cancelled by an interrupt is not told, so that after
an interrupt only such answers are.
-/

namespace NodeCoverage

open Cluster (Request)
open Process (Meets)

variable {B : Behaviour Cluster} {E : Surroundings B} {J : World B → Prop} {v w w₁ w' : World B}
  {stop : Signal} {config : Config} {deadline : Nat} {α β : Type}

/-- The cluster has answered as if the run had been cancelled. -/
def Event.Cancels (event : Event Cluster) : Prop :=
  ∃ t n r e, event = .answered (S := Cluster) t n r (.error e) ∧ e.isCancelled = true

namespace World

/-- The log has grown, and what had fired has fired. -/
structure Later (w w' : World B) : Prop where
  grows : w.Grows w'
  fired_mono : ∀ s, w.fired s = true → w'.fired s = true

namespace Later

theorem refl (w : World B) : w.Later w :=
  ⟨.refl w, fun _ h => h⟩

theorem trans {w₂ : World B} (h : w.Later w₁) (h' : w₁.Later w₂) : w.Later w₂ :=
  ⟨h.grows.trans h'.grows, fun s hs => h'.fired_mono s (h.fired_mono s hs)⟩

theorem of_passes (h : w.Passes w') : w.Later w' := by
  obtain ⟨stops, hstops⟩ := h.trace_eq
  exact ⟨⟨_, hstops, fun _ _ => trivial⟩, h.fired_mono⟩

theorem beside {calls : Request → Prop} {notes : Cluster.Entry → Prop}
    (hE : ∀ t w w', E t w w' → w.Later w') : E.Beside calls notes World.Later where
  refl := refl
  trans := trans
  moves := hE _ _ _
  call _ := ⟨.single (adds_call ..) trivial, fun _ h => h⟩
  answer _ := ⟨.single (adds_answer ..) trivial, fun _ h => h⟩
  note _ := ⟨.single (adds_note ..) trivial, fun _ h => h⟩

end Later

/-- There is a reason to give up as cancelled: the signal has fired, or since `v` the cluster has
given such an answer. -/
def Justifies (v : World B) (stop : Signal) (w : World B) : Prop :=
  w.fired stop = true ∨ v.Has Event.Cancels w

theorem Justifies.later (h : v.Justifies stop w) (hlater : w.Later w') : v.Justifies stop w' :=
  h.imp (hlater.fired_mono stop) fun h => h.mono (.refl v) hlater.grows

end World

/-- What holds throughout, whatever is called, answered and noted; the log has grown since `v`. -/
structure Sustained (E : Surroundings B) (v : World B) (J : World B → Prop) : Prop where
  transitive : E.Transitive
  later : ∀ {t w w'}, E t w w' → w.Later w'
  lasts : ∀ (t : Nat) {w w'}, J w → E t w w' → J w'
  keeps : Keeps (S := Cluster) (fun _ => True) (fun _ => True) J
  grows : ∀ {w}, J w → v.Grows w

theorem World.Later.sustained (v : World B) : Sustained (fun _ => World.Later) v v.Grows where
  transitive _ _ _ _ := .trans
  later h := h
  lasts _ _ _ h hlater := h.trans hlater.grows
  keeps := World.Grows.keeps v
  grows h := h

/-- A part has ended so, and if it has given up as cancelled then with a reason. -/
def Justified (J : World B → Prop) (v : World B) (stop : Signal) (o : Except CheckError α)
    (w : World B) : Prop :=
  J w ∧ ∀ e, o = .error e → e.isCancelled = true → v.Justifies stop w

namespace Justified

theorem ok {a : α} (hw : J w) : Justified J v stop (.ok a) w :=
  ⟨hw, nofun⟩

theorem error {e : CheckError} (h : Justified J v stop (.error e : Except CheckError α) w) :
    Justified J v stop (.error e : Except CheckError β) w := by
  refine ⟨h.1, ?_⟩
  rintro _ ⟨⟩
  exact h.2 e rfl

theorem of_not_cancelled {e : CheckError} (hw : J w) (he : e.isCancelled = false) :
    Justified J v stop (.error e : Except CheckError α) w := by
  refine ⟨hw, ?_⟩
  rintro _ ⟨⟩ hcancelled
  rw [he] at hcancelled
  cases hcancelled

theorem fired {e : CheckError} (hw : J w) (hfired : w.fired stop = true) :
    Justified J v stop (.error e : Except CheckError α) w :=
  ⟨hw, fun _ _ _ => .inl hfired⟩

theorem seq {p : Process Cluster (Except CheckError α)}
    {next : Except CheckError α → Process Cluster (Except CheckError β)}
    (h : Meets E J p w (Justified J v stop)) (herror : ∀ e, next (.error e) = pure (.error e))
    (hok : ∀ a w₁, J w₁ → Meets E J (next (.ok a)) w₁ (Justified J v stop)) :
    Meets E J (p >>= next) w (Justified J v stop) := by
  apply h.seq
  intro o w₁ ho
  cases o with
  | ok a => exact hok a w₁ ho.1
  | error e =>
    rw [herror]
    exact .pure ho.error

end Justified

namespace Sustained

variable (hJ : Sustained E v J)
include hJ

theorem meets_kept {p : Process Cluster α} (hw : J w) :
    Meets E J p w fun _ w' => J w' ∧ w.Grows w' := by
  have hgrows : Keeps (S := Cluster) (fun _ => True) (fun _ => True) w.Grows :=
    World.Grows.keeps w
  have hboth : Keeps (S := Cluster) (fun _ => True) (fun _ => True) fun w' => J w' ∧ w.Grows w' :=
    ⟨fun hr h => ⟨hJ.keeps.call hr h.1, hgrows.call hr h.2⟩,
      fun hr h => ⟨hJ.keeps.answer hr h.1, hgrows.answer hr h.2⟩,
      fun hn h => ⟨hJ.keeps.note hn h.1, hgrows.note hn h.2⟩⟩
  refine (Meets.of_uses ⟨hw, .refl w⟩ hboth (Process.uses_any p)).within ?_ fun _ h => h.1
  exact fun t _ _ h he => ⟨hJ.lasts t h.1 he, h.2.trans (hJ.later he).grows⟩

theorem meets_call {policy : Backoff} {r : Request} (hw : J w) :
    Meets E J (Cluster.call stop policy r) w (Justified J v stop) := by
  apply Cluster.meets_call hJ.transitive hw
  · exact fun w hw => hJ.keeps.call trivial hw
  · intro w₀ w₁ _ _ hw₁
    have hanswered := hJ.keeps.answer (n := (w₀.call r).1.1) (r := r) (k := (w₀.call r).1.2.1)
      trivial hw₁
    refine ⟨⟨hanswered, fun e he hcancelled => .inr ?_⟩, fun _ _ => hanswered⟩
    have hhas : w₁.Has Event.Cancels (w₁.answer (w₀.call r).1.1 r (w₀.call r).1.2.1).2 :=
      .single (World.adds_answer ..) ⟨_, _, _, e, congrArg _ he, hcancelled⟩
    exact hhas.mono (hJ.grows hw₁) (.refl _)
  · exact fun w hw hfired => .fired hw hfired

theorem meets_pause {interval : Duration} (hw : J w) :
    Meets E J (Process.pause stop deadline interval) w fun paused w' =>
      J w' ∧ (paused = .stopped → w'.fired stop = true) := by
  refine .pause hJ.transitive hw (fun w hw hfired => ⟨hw, fun _ => hfired⟩) fun w hw => ?_
  split <;> exact ⟨hw, nofun⟩

/-! ### Sweeps -/

section Sweeps

variable {run : Run} {kind : Sweepable}

theorem meets_classify {m : Metadata} {h : HalfSweep} (hw : J w) :
    Meets E J (Sweep.classify config stop run m h) w (Justified J v stop) := by
  have halive {owner : String} :
      Meets E J (Sweep.ownerAlive config stop owner h) w (Justified J v stop) := by
    unfold Sweep.ownerAlive
    split
    · exact .pure (.ok hw)
    · exact Justified.seq (hJ.meets_call hw) (fun _ => rfl) fun _ _ hw₁ => .pure (.ok hw₁)
  unfold Sweep.classify
  split
  · exact .pure (.ok hw)
  · split
    · exact .pure (.ok hw)
    · refine Justified.seq halive (fun _ => rfl) fun found w₁ hw₁ => ?_
      obtain ⟨_ | _, h⟩ := found
      · exact .pure (.ok hw₁)
      · exact .pure (.ok hw₁)

theorem meets_remove {name : String} {reason : OrphanReason} {h : HalfSweep} (hw : J w) :
    Meets E J (Sweep.remove config stop kind name reason h) w (Justified J v stop) := by
  have hdelete {w : World B} (hw : J w) :
      Meets E J (kind.delete stop config.apiBackoff name) w (Justified J v stop) := by
    cases kind <;> exact hJ.meets_call hw
  refine .bind (.note ?_)
  apply (hdelete (hJ.keeps.note trivial hw)).seq
  intro deleted w₁ hdeleted
  cases deleted with
  | ok => exact .pure (.ok hdeleted.1)
  | error e =>
    dsimp only
    split
    · exact .pure hdeleted.error
    · exact .pure (.ok hdeleted.1)

theorem meets_visitAll {ms : List Metadata} {h : HalfSweep} (hw : J w) :
    Meets E J (Sweep.visitAll config stop run kind ms h) w (Justified J v stop) := by
  have hvisit {m : Metadata} {h : HalfSweep} {w : World B} (hw : J w) :
      Meets E J (Sweep.visit config stop run kind m h) w (Justified J v stop) := by
    unfold Sweep.visit
    split
    · exact .pure (.ok hw)
    · split
      · exact .pure (.ok hw)
      · refine Justified.seq (hJ.meets_classify hw) (fun _ => rfl) fun found w₁ hw₁ => ?_
        obtain ⟨_ | reason, h⟩ := found
        · exact .pure (.ok hw₁)
        · exact hJ.meets_remove hw₁
  induction ms generalizing h w with
  | nil => exact .pure (.ok hw)
  | cons m ms ih => exact Justified.seq (hvisit hw) (fun _ => rfl) fun _ _ hw₁ => ih hw₁

theorem meets_workloads (hw : J w) :
    Meets E J (Sweep.workloads config stop run) w (Justified J v stop) := by
  refine .iterate (fun _ => J) hw fun (token, h) w hw => ?_
  apply (hJ.meets_call hw).seq
  intro listing w₁ hlisting
  cases listing with
  | error e => exact .pure hlisting.error
  | ok page =>
    apply (hJ.meets_visitAll hlisting.1).seq
    intro visited w₂ hvisited
    cases visited with
    | error e => exact .pure hvisited.error
    | ok h =>
      dsimp only
      split
      · exact .pure hvisited.1
      · exact .pure (.ok hvisited.1)

theorem meets_pods (hw : J w) : Meets E J (Sweep.pods config stop run) w (Justified J v stop) := by
  refine Justified.seq (hJ.meets_call hw) (fun _ => rfl) fun _ w₁ hw₁ => ?_
  exact Justified.seq (hJ.meets_visitAll hw₁) (fun _ => rfl) fun _ w₂ hw₂ => .pure (.ok hw₂)

omit hJ in
theorem justified_merge {x : Except CheckError SweepReport × Except CheckError SweepReport}
    (hw : J w) (hx : Justified v.Grows v stop x.1 w) (hy : Justified v.Grows v stop x.2 w) :
    Justified J v stop (Sweep.merge x) w := by
  obtain ⟨workloads | workloads, pods | pods⟩ := x
  · exact ⟨hw, hx.error.2⟩
  · exact ⟨hw, hx.error.2⟩
  · exact ⟨hw, hy.error.2⟩
  · exact .ok hw

theorem meets_once (hw : J w) :
    Meets E J (Sweep.once config stop run) w (Justified J v stop) := by
  have hsustained := World.Later.sustained v
  have within {p : Process Cluster (Except CheckError SweepReport)} {w : World B}
      (h : Meets (fun _ => World.Later) v.Grows p w (Justified v.Grows v stop)) :
      Meets (fun _ => World.Later) (fun _ => True) p w (Justified v.Grows v stop) :=
    h.within (fun t _ _ => hsustained.lasts t) fun _ _ => trivial
  have stable (o : Except CheckError SweepReport) (w₁ w₂ : World B)
      (ho : Justified v.Grows v stop o w₁) (hlater : w₁.Later w₂) : Justified v.Grows v stop o w₂ :=
    ⟨ho.1.trans hlater.grows, fun e he hcancelled => (ho.2 e he hcancelled).later hlater⟩
  have hbeside : E.Beside (fun _ => True) (fun _ => True) World.Later :=
    World.Later.beside fun _ _ _ => hJ.later
  have halves : Meets E (fun _ => True)
      (.both (Sweep.workloads config stop run) (Sweep.pods config stop run)) w fun x w' =>
        Justified v.Grows v stop x.1 w' ∧ Justified v.Grows v stop x.2 w' :=
    Meets.both hbeside hbeside (Process.uses_any _) (Process.uses_any _)
      (within (hsustained.meets_workloads (hJ.grows hw)))
      (fun w₂ hlater => within (hsustained.meets_pods ((hJ.grows hw).trans hlater.grows)))
      stable stable
  apply ((hJ.meets_kept hw).and halves).seq
  rintro x w₁ ⟨⟨hw₁, -⟩, hx, hy⟩
  exact .pure (justified_merge hw₁ hx hy)

theorem meets_untilClear (hw : J w) :
    Meets E J (Sweep.untilClear config stop deadline run) w (Justified J v stop) := by
  refine .iterate (fun _ => J) hw fun found w hw => ?_
  apply (hJ.meets_once hw).seq
  intro result w₁ hresult
  cases hafter : Sweep.round.afterSweep found result with
  | inr o =>
    refine .pure ⟨hresult.1, ?_⟩
    rintro e rfl hcancelled
    obtain ⟨_, -, -, ho⟩ | ⟨e', rfl, -, ho⟩ := Sweep.round.afterSweep_eq_inr_iff.mp hafter
    · cases ho
    · cases ho
      exact hresult.2 e rfl hcancelled
  | inl found =>
    dsimp only
    apply (hJ.meets_pause hresult.1).seq
    rintro paused w₂ ⟨hw₂, hstopped⟩
    cases paused with
    | stopped => exact .pure (.fired hw₂ (hstopped rfl))
    | overdue => exact .pure (.of_not_cancelled hw₂ rfl)
    | «over» => exact .pure hw₂

end Sweeps

/-! ### Deployment and verification -/

theorem meets_deployment {policy : Backoff} {x : Workload} (hw : J w) :
    Meets E J (Deployment.run stop policy x) w (Justified J v stop) := by
  have hadoption {conflict : CheckError} {existing : Option Workload} {w : World B} (hw : J w)
      (hconflict : Justified J v stop (.error conflict : Except CheckError Unit) w) :
      Justified J v stop (Deployment.adoption x conflict existing) w := by
    unfold Deployment.adoption
    split
    · exact hconflict
    · split
      · exact .ok hw
      · exact .of_not_cancelled hw rfl
  apply (hJ.meets_call hw).seq
  intro created w₁ hcreated
  cases created with
  | ok => exact .pure (.ok hcreated.1)
  | error e =>
    dsimp only
    split
    · next hconflict =>
      have hnot : e.isCancelled = false := by
        cases e <;> simp_all [CheckError.isConflict, CheckError.apiCode?, CheckError.isCancelled]
      refine Justified.seq (hJ.meets_call hcreated.1) (fun _ => rfl) fun existing w₂ hw₂ => ?_
      exact .pure (hadoption hw₂ (.of_not_cancelled hw₂ hnot))
    · refine .pure ⟨hcreated.1, ?_⟩
      rintro _ ⟨⟩ hcancelled
      refine hcreated.2 e rfl ?_
      unfold Deployment.refusal at hcancelled
      split at hcancelled
      · split at hcancelled <;> cases hcancelled
      · exact hcancelled

theorem meets_verification {set : ToleranceSet} {name : String} (hw : J w) :
    Meets E J (Verification.run config stop deadline set name) w (Justified J v stop) := by
  have hlook {w : World B} (hw : J w) :
      Meets E J (Verification.look config stop set name) w (Justified J v stop) := by
    refine Justified.seq (hJ.meets_call hw) (fun _ => rfl) fun nodes w₁ hw₁ => ?_
    exact Justified.seq (hJ.meets_call hw₁) (fun _ => rfl) fun pods w₂ hw₂ => .pure (.ok hw₂)
  refine .iterate (fun _ => J) hw fun l w hw => ?_
  apply (hJ.meets_pause hw).seq
  rintro paused w₁ ⟨hw₁, hstopped⟩
  cases paused with
  | stopped => exact .pure (.fired hw₁ (hstopped rfl))
  | overdue => exact .pure (.of_not_cancelled hw₁ rfl)
  | «over» =>
    refine .bind (.fired ?_)
    split
    · exact .pure (.ok hw₁)
    · apply (hlook hw₁).seq
      intro seen w₂ hseen
      refine .pure ?_
      cases hafter : l.after config.stabilityTicks seen with
      | inl => exact hseen.1
      | inr o =>
        obtain ⟨-, -, rfl⟩ | ⟨e, rfl, -, rfl⟩ := Looks.after_eq_inr_iff.mp hafter
        · exact .ok hseen.1
        · exact hseen.error

end Sustained

/-! ### The worker -/

namespace Worker

/-- There is nothing to tell of this phase, or one failure; with the reason `R` it may be that the
phase was cancelled. -/
def Tells (R : Cluster.Phase → Prop) (phase : Cluster.Phase) (fs : List Failure) : Prop :=
  fs = [] ∨ ∃ e, fs = [.during phase e] ∧ (e.isCancelled = true → R phase)

/-- What is told from deployment on: of deployment or of verification, and of teardown. -/
def TellsRest (R : Cluster.Phase → Prop) (fs : List Failure) : Prop :=
  ∃ probed torn, fs = probed ++ torn ∧ (Tells R .deploying probed ∨ Tells R .verifying probed) ∧
    Tells R .tearingDown torn

/-- What the worker tells, in this order. If its first sweep was cancelled this is all. -/
def TellsAll (R : Cluster.Phase → Prop) (fs : List Failure) : Prop :=
  ∃ swept rest, fs = swept ++ rest ∧ Tells R .preCleanup swept ∧ TellsRest R rest ∧
    ∀ e, swept = [.during .preCleanup e] → e.isCancelled = true → rest = []

/-- Why it may be told that a phase was cancelled: since `v` the cluster has given such an answer,
or the run was stopped without an interrupt. Of teardown it may be told anyway. -/
def Reason (J : World B → Prop) (v w : World B) (phase : Cluster.Phase) : Prop :=
  phase ≠ .tearingDown → v.Has Event.Cancels w ∨
    ∃ w₁, J w₁ ∧ w₁.fired .run = true ∧ w₁.fired .shutdown = false

variable {R R' : Cluster.Phase → Prop} {phase : Cluster.Phase} {fs : List Failure}
  {a : Assignment} {set : ToleranceSet}

theorem Reason.grows (hgrows : w.Grows w') (phase : Cluster.Phase) (h : Reason J v w phase) :
    Reason J v w' phase :=
  fun hphase => (h hphase).imp_left fun h => h.mono (.refl v) hgrows

theorem Tells.mono (h : Tells R phase fs) (hR : ∀ phase, R phase → R' phase) :
    Tells R' phase fs :=
  h.imp_right fun ⟨e, hfs, he⟩ => ⟨e, hfs, fun hcancelled => hR _ (he hcancelled)⟩

theorem TellsAll.mono (h : TellsAll R fs) (hR : ∀ phase, R phase → R' phase) :
    TellsAll R' fs := by
  obtain ⟨swept, rest, hfs, hswept, ⟨probed, torn, hrest, hprobed, htorn⟩, honly⟩ := h
  refine ⟨swept, rest, hfs, hswept.mono hR, ⟨probed, torn, hrest, ?_, htorn.mono hR⟩, honly⟩
  exact hprobed.imp (fun h => h.mono hR) fun h => h.mono hR

/-- The failures are of different phases, at most one of each of the three parts, and one of a first
sweep that was cancelled is the only one. -/
def InOrder (fs : List Failure) : Prop :=
  (∃ swept probed torn, fs = swept ++ probed ++ torn ∧ Tells (fun _ => True) .preCleanup swept ∧
    (Tells (fun _ => True) .deploying probed ∨ Tells (fun _ => True) .verifying probed) ∧
    Tells (fun _ => True) .tearingDown torn) ∧
  ∀ e, .during .preCleanup e ∈ fs → e.isCancelled = true → fs = [.during .preCleanup e]

theorem Tells.eq_of_mem {e : CheckError} {phase' : Cluster.Phase} (h : Tells R phase fs)
    (hmem : .during phase' e ∈ fs) :
    phase' = phase ∧ fs = [.during phase e] ∧ (e.isCancelled = true → R phase) := by
  rcases h with rfl | ⟨e', rfl, he'⟩
  · cases hmem
  · cases List.mem_singleton.mp hmem
    exact ⟨rfl, rfl, he'⟩

theorem Tells.reason {e : CheckError} {phase' : Cluster.Phase} (h : Tells R phase fs)
    (hmem : .during phase' e ∈ fs) (he : e.isCancelled = true) : R phase' := by
  obtain ⟨rfl, -, hR⟩ := h.eq_of_mem hmem
  exact hR he

theorem TellsAll.reason {e : CheckError} (h : TellsAll R fs) (hmem : .during phase e ∈ fs)
    (he : e.isCancelled = true) : R phase := by
  obtain ⟨swept, rest, rfl, hswept, ⟨probed, torn, rfl, hprobed, htorn⟩, -⟩ := h
  rcases List.mem_append.mp hmem with hmem | hmem
  · exact hswept.reason hmem he
  rcases List.mem_append.mp hmem with hmem | hmem
  · exact hprobed.elim (fun h => h.reason hmem he) fun h => h.reason hmem he
  · exact htorn.reason hmem he

theorem TellsAll.inOrder (h : TellsAll R fs) : InOrder fs := by
  have htold : TellsAll (fun _ => True) fs := h.mono fun _ _ => trivial
  obtain ⟨swept, rest, rfl, hswept, ⟨probed, torn, rfl, hprobed, htorn⟩, honly⟩ := htold
  refine ⟨⟨swept, probed, torn, (List.append_assoc ..).symm, hswept, hprobed, htorn⟩, ?_⟩
  intro e hmem he
  rcases List.mem_append.mp hmem with hmem | hmem
  · obtain ⟨-, hswept, -⟩ := hswept.eq_of_mem hmem
    rw [hswept, honly e hswept he, List.append_nil]
  -- the other failures are of other phases
  · rcases List.mem_append.mp hmem with hmem | hmem
    · rcases hprobed with h | h
      · cases (h.eq_of_mem hmem).1
      · cases (h.eq_of_mem hmem).1
    · cases (htorn.eq_of_mem hmem).1

theorem meets_tells (phase : Cluster.Phase) {e : CheckError} (hw : J w)
    (he : e.isCancelled = true → v.Justifies .run w) :
    Meets E J (record phase e) w fun fs w' => J w' ∧ Tells (Reason J v w') phase fs := by
  refine .bind (.fired (.pure ⟨hw, ?_⟩))
  split
  · exact .inl rfl
  · next hnot =>
    refine .inr ⟨e, rfl, fun hcancelled _ => ?_⟩
    have hshutdown : w.fired .shutdown = false := by simpa [hcancelled] using hnot
    exact (he hcancelled).symm.imp_right fun hfired => ⟨w, hw, hfired, hshutdown⟩

section

variable (hJ : Sustained E v J)
include hJ

theorem meets_teardown_tells (hw : J w) :
    Meets E J (teardown a) w fun fs w' =>
      J w' ∧ w.Grows w' ∧ Tells (Reason J v w') .tearingDown fs := by
  have hentered : w.Grows (w.note (S := Cluster) (.entered .tearingDown)) :=
    .single (World.adds_note ..) trivial
  refine .bind (.note (.bind (.fired (.bind (.clock ?_)))))
  apply (hJ.meets_kept (hJ.keeps.note trivial hw)).seq
  rintro outcome w₁ ⟨hw₁, hgrows⟩
  cases outcome with
  | ok => exact .pure ⟨hw₁, hentered.trans hgrows, .inl rfl⟩
  | error e =>
    exact .pure ⟨hw₁, hentered.trans hgrows, .inr ⟨e, rfl, fun _ h => absurd rfl h⟩⟩

theorem meets_verify_tells (hw : J w) :
    Meets E J (verify a set) w fun fs w' => J w' ∧ Tells (Reason J v w') .verifying fs := by
  refine .bind (.note ?_)
  apply (hJ.meets_verification (hJ.keeps.note trivial hw)).seq
  intro outcome w₁ houtcome
  cases outcome with
  | ok => exact .pure ⟨houtcome.1, .inl rfl⟩
  | error e => exact meets_tells .verifying houtcome.1 (houtcome.2 e rfl)

theorem meets_probe_tells {x : Workload} (hw : J w) :
    Meets E J (probe a set x) w fun fs w' => J w' ∧ TellsRest (Reason J v w') fs := by
  have tornDown {phase : Cluster.Phase} {fs : List Failure} {w : World B} (hw : J w)
      (hphase : phase = .deploying ∨ phase = .verifying) (hfs : Tells (Reason J v w) phase fs) :
      Meets E J (teardown a >>= fun gs => (pure (fs ++ gs) : Process Cluster _)) w
        fun fs w' => J w' ∧ TellsRest (Reason J v w') fs := by
    apply (meets_teardown_tells hJ hw).seq
    rintro gs w₁ ⟨hw₁, hgrows, hgs⟩
    have hfs : Tells (Reason J v w₁) phase fs := hfs.mono (Reason.grows hgrows)
    refine .pure ⟨hw₁, fs, gs, rfl, ?_, hgs⟩
    rcases hphase with rfl | rfl
    · exact .inl hfs
    · exact .inr hfs
  refine .bind (.note ?_)
  apply (hJ.meets_deployment (hJ.keeps.note trivial hw)).seq
  intro deployed w₁ hdeployed
  cases deployed with
  | ok =>
    apply (meets_verify_tells hJ hdeployed.1).seq
    rintro fs w₂ ⟨hw₂, hfs⟩
    exact tornDown hw₂ (.inr rfl) hfs
  | error e =>
    apply (meets_tells .deploying hdeployed.1 (hdeployed.2 e rfl)).seq
    rintro fs w₂ ⟨hw₂, hfs⟩
    split
    · exact .pure ⟨hw₂, fs, [], (List.append_nil fs).symm, .inl hfs, .inl rfl⟩
    · exact tornDown hw₂ (.inl rfl) hfs

theorem meets_work_tells (hw : J w) :
    Meets E J (work a) w fun fs w' => J w' ∧ TellsAll (Reason J v w') fs := by
  refine .bind (.note ?_)
  apply (hJ.meets_kept (hJ.keeps.note trivial hw)).seq
  rintro owner w₁ ⟨hw₁, -⟩
  apply (hJ.meets_kept hw₁).seq
  rintro set w₂ ⟨hw₂, -⟩
  refine .bind (.note (.bind (.clock ?_)))
  apply (hJ.meets_untilClear (hJ.keeps.note trivial hw₂)).seq
  intro swept w₃ hswept
  cases swept with
  | ok =>
    apply (meets_probe_tells hJ hswept.1).mono
    rintro fs w₄ ⟨hw₄, hfs⟩
    exact ⟨hw₄, [], fs, rfl, .inl rfl, hfs, nofun⟩
  | error e =>
    dsimp only
    split
    · apply (meets_tells .preCleanup hswept.1 (hswept.2 e rfl)).mono
      rintro fs w₄ ⟨hw₄, hfs⟩
      exact ⟨hw₄, fs, [], (List.append_nil fs).symm, hfs,
        ⟨[], [], rfl, .inl (.inl rfl), .inl rfl⟩, fun _ _ _ => rfl⟩
    · next hnot =>
      apply (meets_probe_tells hJ hswept.1).seq
      rintro fs w₄ ⟨hw₄, hfs⟩
      refine .pure ⟨hw₄, [_], fs, rfl, .inr ⟨e, rfl, fun h => absurd h hnot⟩, hfs, ?_⟩
      rintro _ ⟨⟩ hcancelled
      exact absurd hcancelled hnot

/-- Whatever happens, the worker tells its failures in order. -/
theorem meets_run_tells (hw : J w) :
    Meets E J (run a) w fun fs w' => J w' ∧ TellsAll (Reason J v w') fs := by
  apply (meets_work_tells hJ hw).seq
  rintro fs w₁ ⟨hw₁, hfs⟩
  refine .bind (.note (.pure ⟨hJ.keeps.note trivial hw₁, hfs.mono (Reason.grows ?_)⟩))
  exact .single (World.adds_note ..) trivial

end

end Worker

/-! ### The run -/

/-- Time passes, and the run may be stopped; if this is so, only by an interrupt. -/
def World.Spares (S : Prop) (w w' : World B) : Prop :=
  w.Later w' ∧ (S → (w.fired .run = true → w.fired .shutdown = true) →
    w'.fired .run = true → w'.fired .shutdown = true)

/-- Since `v` the log has grown, and if this is so, the run was stopped only by an interrupt. -/
def World.Spared (S : Prop) (v w : World B) : Prop :=
  v.Grows w ∧ (S → w.fired .run = true → w.fired .shutdown = true)

namespace World.Spares

variable {S : Prop}

theorem trans {w₂ : World B} (h : w.Spares S w₁) (h' : w₁.Spares S w₂) : w.Spares S w₂ :=
  ⟨h.1.trans h'.1, fun hS hw => h'.2 hS (h.2 hS hw)⟩

theorem flows : Lifecycle.Flows (B := B) fun _ => World.Spares S where
  refl _ w := ⟨.refl w, fun _ h => h⟩
  trans _ _ _ _ := .trans
  advance _ := ⟨.of_passes (.advance ..), fun _ h => h⟩

theorem of_stop {cause : StopCause} (hcause : S → cause = .interrupt) (w : World B) :
    w.Spares S (Lifecycle.stop cause w) := by
  refine ⟨.of_passes (.stop cause w), fun hS _ _ => ?_⟩
  rw [hcause hS]
  rfl

theorem sustained (S : Prop) (v : World B) :
    Sustained (fun _ => World.Spares S) v (v.Spared S ·) where
  transitive _ _ _ _ := .trans
  later h := h.1
  lasts _ _ _ hw h := ⟨hw.1.trans h.1.grows, fun hS => h.2 hS (hw.2 hS)⟩
  keeps :=
    have hgrows := World.Grows.keeps v
    { call := fun hr h => ⟨hgrows.call hr h.1, h.2⟩
      answer := fun hr h => ⟨hgrows.answer hr h.1, h.2⟩
      note := fun hn h => ⟨hgrows.note hn h.1, h.2⟩ }
  grows h := h.1

end World.Spares

theorem Teardown.Grounds.cancels {name : String} {e : CheckError}
    (h : Grounds v name w (.error e)) (he : e.isCancelled = true) : v.Has Event.Cancels w := by
  cases h with
  | refused hanswered =>
    obtain ⟨events, t, n, hadds, hmem⟩ := hanswered
    exact ⟨events, hadds, _, hmem, t, n, _, e, rfl, he⟩
  | cancelled hanswered he' =>
    obtain ⟨events, t, n, hadds, hmem⟩ := hanswered
    exact ⟨events, hadds, _, hmem, t, n, _, _, rfl, he'⟩

namespace Lifecycle

variable {fuel : Nat} {rt : Runtime} {a : Assignment} {interrupts : List Nat}
  {cause : Option StopCause} {own : List Failure} {phase : Cluster.Phase} {e : CheckError}

/-- The worker was stopped for this cause, before its end was noticed. -/
def StoppedFor (fuel : Nat) (rt : Runtime) (a : Assignment) (interrupts : List Nat) (w : World B)
    (cause : StopCause) : Prop :=
  ∃ later st w₁, Stopped fuel rt a interrupts w cause later st w₁

theorem stoppedFor_iff {c : StopCause} : StoppedFor fuel rt a interrupts w c ↔
    ∃ t, stopping fuel rt a interrupts w = some (c, t) := by
  constructor
  · rintro ⟨later, st, w₁, hstopped⟩
    obtain ⟨taken, w₀, hawait, hcause, -, -⟩ := hstopped.await_eq
    exact ⟨w₀.now, by simp only [stopping, hawait, hcause, Option.map_some]⟩
  · rintro ⟨t, h⟩
    simp only [stopping] at h
    rcases hawait : await fuel rt none (Clock.timer a.deadline) interrupts
      (.suspended (.ready (Worker.run a))) w with ⟨taken, st, w₀⟩
    rw [hawait] at h
    obtain ⟨_, hcause, ⟨⟩⟩ := Option.map_eq_some_iff.mp h
    exact ⟨_, st, _, .of_await hawait hcause⟩

theorem cause_eq_some_iff (h : runToEnd fuel rt a interrupts w = some (.done cause own, w'))
    {c : StopCause} : cause = some c ↔ StoppedFor fuel rt a interrupts w c := by
  rw [stoppedFor_iff, ← stopping_cause h]
  simp

/-- The worker tells its failures in order. That a phase was cancelled it tells only if the deadline
has stopped it, or if the cluster has given such an answer. -/
theorem runToEnd_tells (hrun : w.fired .run = false) (hhardStop : w.fired .hardStop = false)
    (h : runToEnd fuel rt a interrupts w = some (.done cause own, w')) :
    Worker.InOrder own ∧ (¬ StoppedFor fuel rt a interrupts w .deadline →
      ∀ phase e, .during phase e ∈ own → e.isCancelled = true → w.Has Event.Cancels w') := by
  have hspared : w.Spared (¬ StoppedFor fuel rt a interrupts w .deadline) w :=
    ⟨.refl w, fun _ hfired => by rw [hrun] at hfired; cases hfired⟩
  have hstop (t : Nat) (cause : StopCause) (w₁ : World B)
      (hstopping : stopping fuel rt a interrupts w = some (cause, w₁.now)) :
      w₁.Spares (¬ StoppedFor fuel rt a interrupts w .deadline) (stop cause w₁) := by
    refine .of_stop (fun hnot => ?_) w₁
    cases cause with
    | interrupt => rfl
    | deadline => exact absurd (stoppedFor_iff.mpr ⟨_, hstopping⟩) hnot
  obtain ⟨st, hstands, hend⟩ := runToEnd_course World.Spares.flows hstop h
  have hsustained := World.Spares.sustained (¬ StoppedFor fuel rt a interrupts w .deadline) w
  cases hend
  have htells := (hstands.of_meets World.Spares.flows
    (fun w₀ h₀ => Worker.meets_run_tells hsustained (hsustained.lasts 0 hspared h₀))
    (fun _ _ => hsustained.lasts 0) hspared fun fs w₁ w₂ hw₁ hw₂ =>
      ⟨hsustained.lasts 0 hw₁.1 hw₂, hw₁.2.mono (Worker.Reason.grows hw₂.1.grows)⟩).1 own rfl
  refine ⟨htells.2.inOrder, fun hnot phase e hmem he => ?_⟩
  by_cases hphase : phase = .tearingDown
  · subst hphase
    -- teardown is not abandoned in a run that does not end by force
    obtain ⟨-, hdone⟩ := runToEnd_times hrun hhardStop h
    rcases hdone cause own rfl with ⟨-, hapart⟩ |
      ⟨before, torn, rfl, hapart, t, o, -, hconcluded, htorn⟩
    · exact absurd rfl (hapart _ hmem e)
    · have htorn := (htorn e).mp ((List.mem_append.mp hmem).resolve_left
        fun hmem => hapart _ hmem e rfl)
      rcases hconcluded with hgrounds | ⟨-, _, htimeout, -⟩
      · exact (htorn ▸ hgrounds).cancels he
      · cases htorn.symm.trans htimeout
        cases he
  · rcases htells.2.reason hmem he hphase with hcancels | ⟨w₁, hw₁, hfired, hshutdown⟩
    · exact hcancels
    · rw [hw₁.2 hnot hfired] at hshutdown
      cases hshutdown

def ToldIff (f : Failure) (p : Prop) (fs : List Failure) : Prop :=
  p ∧ fs = [f] ∨ ¬ p ∧ fs = []

/-- The failures of a run whose worker ended in `w₁` with failures of its own. First comes that it
was interrupted, then that it took too long: it was stopped at the deadline, or the worker failed
and was not done before. A cancelled error is among them only if the run was stopped at the deadline
or the cluster has given it as an answer; a run is stopped but once. -/
structure Recounts (fuel : Nat) (rt : Runtime) (a : Assignment) (interrupts : List Nat)
    (w : World B) (fs own : List Failure) (w₁ : World B) : Prop where
  ended : ∃ cause, runToEnd fuel rt a interrupts w = some (.done cause own, w₁)
  parts : ∃ stopped late, fs = stopped ++ late ++ own ∧
    ToldIff .interrupted (StoppedFor fuel rt a interrupts w .interrupt) stopped ∧
    ToldIff (.overBudget a.config.runBudget)
      (StoppedFor fuel rt a interrupts w .deadline ∨ own ≠ [] ∧ a.deadline ≤ w₁.now) late
  inOrder : Worker.InOrder own
  once : StoppedFor fuel rt a interrupts w .interrupt →
    ¬ StoppedFor fuel rt a interrupts w .deadline
  cancelled : ¬ StoppedFor fuel rt a interrupts w .deadline →
    ∀ phase e, .during phase e ∈ fs → e.isCancelled = true → w.Has Event.Cancels w₁

theorem recounts_of_done (hrun : w.fired .run = false) (hhardStop : w.fired .hardStop = false)
    (h : runToEnd fuel rt a interrupts w = some (.done cause own, w₁)) :
    Recounts fuel rt a interrupts w (failures a cause w₁.now own) own w₁ := by
  have hcause (c : StopCause) := cause_eq_some_iff h (c := c)
  obtain ⟨hinOrder, hcancelled⟩ := runToEnd_tells hrun hhardStop h
  refine ⟨⟨cause, h⟩, ⟨_, _, rfl, ?_, ?_⟩, hinOrder, ?_, ?_⟩
  · rw [← hcause]
    unfold ToldIff
    split <;> simp_all
  · rw [← hcause]
    unfold ToldIff
    split <;> simp_all
  · intro hinterrupt hdeadline
    cases ((hcause _).mpr hinterrupt).symm.trans ((hcause _).mpr hdeadline)
  · intro hnot phase e hmem he
    exact hcancelled hnot phase e (during_mem_failures.mp hmem) he

variable {config : Config} {r : Run} {reporter : Reporter} {m : Aftermath B}

/-- What a run tells that does not end by force and whose worker does not crash. -/
theorem recounts_of_run (h : run fuel rt config r interrupts reporter w.reset = some m)
    (hexit : m.summary.exit ≠ .forced) (hsound : ∀ task f, .crashed task f ∉ m.summary.failures) :
    ∃ own w₁, Recounts fuel rt ⟨config, r, w.reset.now + config.runBudget.nanos⟩ interrupts w.reset
      m.summary.failures own w₁ := by
  rcases run_cases h with ⟨hforced, -⟩ | ⟨cause, own, w₁, hreport, -, hfailures, -⟩
  · exact absurd hforced hexit
  · obtain ⟨e, w₂, hend, ⟨rfl, rfl⟩ | ⟨f, -, rfl, -⟩⟩ := atReport_cases hreport
    · rw [hfailures, beginSweep_now]
      exact ⟨own, w₂, recounts_of_done rfl rfl hend⟩
    · refine absurd ?_ (hsound rt.task f)
      rw [hfailures]
      exact List.mem_append_right _ (List.mem_singleton.mpr rfl)

end Lifecycle

/-! ### A cluster that says that it was cancelled -/

namespace Messages

/-- Nothing is there, and deleting a workload is answered as if the run had been cancelled. -/
def aborting : Behaviour Cluster where
  State := Unit
  Ticket := Unit
  start _ _ s := (.zero, (), s)
  answer _ r _ s :=
    match r with
    | .listNodes => (.ok [], s)
    | .listPods _ => (.ok [], s)
    | .listWorkloads _ _ => (.ok ⟨[], none⟩, s)
    | .deleteWorkload _ => (.error (.cancelled "delete workload"), s)
    | .createWorkload _ | .deletePods _ | .deletePod _ => (.ok (), s)
    | .getPod _ | .getWorkload _ => (.ok none, s)

def start : World aborting :=
  .initial ()

def interrupts : List Nat :=
  [1500000000]

def own : List Failure :=
  [.during .tearingDown (.cancelled "delete workload")]

theorem exists_told : ∃ m : Aftermath aborting,
    Lifecycle.run 400 .simulated .standard Leftovers.probe interrupts Leftovers.prompt start.reset =
        some m ∧
      m.summary.exit = .interrupted ∧ m.summary.failures = .interrupted :: own := by
  have h : (Lifecycle.run 400 .simulated .standard Leftovers.probe interrupts Leftovers.prompt
      start.reset).any (fun m => m.summary.exit = .interrupted ∧
        m.summary.failures = .interrupted :: own) = true := by
    decide +kernel
  obtain ⟨m, hrun, hm⟩ := (Option.any_eq_true _ _).mp h
  exact ⟨m, hrun, of_decide_eq_true hm⟩

theorem crashed_not_mem (task : Nat) (f : Fault) :
    .crashed task f ∉ Failure.interrupted :: own := by
  simp [own]

end Messages

namespace Lifecycle

/-- The theorem for a run that is interrupted and then told that it was cancelled. -/
theorem recounts_of_aborting : ∃ (m : Aftermath Messages.aborting) (own : List Failure)
    (w₁ : World Messages.aborting),
    run 400 .simulated .standard Leftovers.probe Messages.interrupts Leftovers.prompt
        Messages.start.reset = some m ∧
      m.summary.exit ≠ .forced ∧ m.summary.failures = .interrupted :: Messages.own ∧
      (∀ task f, .crashed task f ∉ m.summary.failures) ∧
      Recounts 400 .simulated ⟨.standard, Leftovers.probe,
        Messages.start.reset.now + Config.standard.runBudget.nanos⟩ Messages.interrupts
        Messages.start.reset m.summary.failures own w₁ := by
  obtain ⟨m, hrun, hexit, hfailures⟩ := Messages.exists_told
  have hforced : m.summary.exit ≠ .forced := by simp [hexit]
  have hsound : ∀ task f, .crashed task f ∉ m.summary.failures := by
    rw [hfailures]
    exact Messages.crashed_not_mem
  obtain ⟨own, w₁, hrecounts⟩ := recounts_of_run hrun hforced hsound
  exact ⟨m, own, w₁, hrun, hforced, hfailures, hsound, hrecounts⟩

/-- It is not so that a run which was interrupted never tells that a part was cancelled. -/
theorem cancelled_not_never_told : ¬ ∀ (B : Behaviour Cluster) (fuel : Nat) (rt : Runtime)
    (config : Config) (r : Run) (interrupts : List Nat) (reporter : Reporter) (w : World B)
    (m : Aftermath B),
    run fuel rt config r interrupts reporter w.reset = some m → m.summary.exit ≠ .forced →
    (∀ task f, .crashed task f ∉ m.summary.failures) →
    StoppedFor fuel rt ⟨config, r, w.reset.now + config.runBudget.nanos⟩ interrupts w.reset
      .interrupt →
    ∀ phase e, .during phase e ∈ m.summary.failures → e.isCancelled = false := by
  intro h
  obtain ⟨m, hrun, hexit, hfailures⟩ := Messages.exists_told
  have hsound : ∀ task f, .crashed task f ∉ m.summary.failures := by
    rw [hfailures]
    exact Messages.crashed_not_mem
  have hstopping : stopping 400 .simulated ⟨.standard, Leftovers.probe,
      Messages.start.reset.now + Config.standard.runBudget.nanos⟩ Messages.interrupts
      Messages.start.reset = some (.interrupt, 1500000000) := by
    decide +kernel
  have hnot := h _ _ _ _ _ _ _ _ m hrun (by simp [hexit]) hsound
    (stoppedFor_iff.mpr ⟨_, hstopping⟩) .tearingDown (.cancelled "delete workload")
    (by simp [hfailures, Messages.own])
  cases hnot

end Lifecycle
end NodeCoverage
