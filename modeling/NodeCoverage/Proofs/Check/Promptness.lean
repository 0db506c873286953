import NodeCoverage.Proofs.Check.Progress
import NodeCoverage.Proofs.Process.Heeds
/-!
# The parts of a run heed their signal

Every part of a run makes its calls and its pauses under a signal. Once the signal has fired, a call
is abandoned and says so. Some loops take no notice of errors, such as that of a listing or of a
deletion that is made again; but each of them pauses before the next round, and the pause is cut
short by the same signal. So there is no place at which a part could wait and not be over as soon as
the signal fires, and no part makes a call after that.
-/

namespace NodeCoverage

open Process (Obeys)

variable {α β σ : Type} {config : Config} {stop : Signal} {deadline : Nat} {workloadName : String}

/-- An error that says that the signal has fired. -/
def Cancellation (x : Except CheckError α) : Prop :=
  ∃ e, x = .error e ∧ e.isCancelled = true

/-- A result of a round with which the signal ends the loop. -/
def LastRound (x : σ ⊕ Except CheckError α) : Prop :=
  ∃ o, x = .inr o ∧ Cancellation o

section Relay

variable {p : Process Cluster (Except CheckError α)}

theorem Process.Heeds.ending {next : Except CheckError α → Process Cluster β} {Q : β → Prop}
    {f : CheckError → β} (h : p.Heeds stop Cancellation)
    (herror : ∀ e, next (.error e) = pure (f e)) (hQ : ∀ e, e.isCancelled = true → Q (f e))
    (hok : ∀ a, (next (.ok a)).Heeds stop Q) : (p >>= next).Heeds stop Q := by
  refine h.seq ?_ fun x => ?_
  · rintro _ ⟨e, rfl, he⟩
    rw [herror]
    exact hQ e he
  · cases x with
    | ok a => exact hok a
    | error e =>
      rw [herror]
      exact trivial

theorem Process.Heeds.relay {next : Except CheckError α → Process Cluster (Except CheckError β)}
    (h : p.Heeds stop Cancellation) (herror : ∀ e, next (.error e) = pure (.error e))
    (hok : ∀ a, (next (.ok a)).Heeds stop Cancellation) :
    (p >>= next).Heeds stop Cancellation :=
  h.ending herror (fun e he => ⟨e, rfl, he⟩) hok

theorem Process.Obeys.relay {next : Except CheckError α → Process Cluster (Except CheckError β)}
    (h : p.Obeys stop Cancellation) (herror : ∀ e, next (.error e) = Pure.pure (.error e))
    (hok : ∀ a, (next (.ok a)).Heeds stop Cancellation) :
    (p >>= next).Obeys stop Cancellation := by
  refine ⟨⟨_, h.1, ?_⟩, h.2.relay herror hok⟩
  rintro _ ⟨e, rfl, he⟩
  rw [herror]
  exact ⟨e, rfl, he⟩

theorem Process.Heeds.turn {next : Except CheckError α → Process Cluster (σ ⊕ Except CheckError β)}
    (h : p.Heeds stop Cancellation) (herror : ∀ e, next (.error e) = pure (.inr (.error e)))
    (hok : ∀ a, (next (.ok a)).Heeds stop LastRound) : (p >>= next).Heeds stop LastRound :=
  h.ending herror (fun e he => ⟨_, rfl, e, rfl, he⟩) hok

theorem Process.Obeys.turn {next : Except CheckError α → Process Cluster (σ ⊕ Except CheckError β)}
    (h : p.Obeys stop Cancellation) (herror : ∀ e, next (.error e) = Pure.pure (.inr (.error e)))
    (hok : ∀ a, (next (.ok a)).Heeds stop LastRound) : (p >>= next).Obeys stop LastRound := by
  refine ⟨⟨_, h.1, ?_⟩, h.2.turn herror hok⟩
  rintro _ ⟨e, rfl, he⟩
  rw [herror]
  exact ⟨_, rfl, e, rfl, he⟩

end Relay

namespace Cluster

theorem obeys_callAs {policy : Backoff} {operation : String} {r : Request} :
    (callAs stop policy operation r).Obeys stop Cancellation := by
  refine Obeys.abandonOn.seq ?_ fun o => ?_
  · rintro _ rfl
    exact ⟨_, rfl, rfl⟩
  · cases o <;> exact trivial

theorem obeys_call {policy : Backoff} {r : Request} :
    (call stop policy r).Obeys stop Cancellation :=
  obeys_callAs

end Cluster

namespace Sweep

variable {run : Run} {kind : Sweepable} {m : Metadata} {h : HalfSweep}

theorem classify_heeds : (classify config stop run m h).Heeds stop Cancellation := by
  have halive {owner : String} : (ownerAlive config stop owner h).Heeds stop Cancellation := by
    unfold ownerAlive
    split
    · exact trivial
    · exact Cluster.obeys_call.2.relay (fun _ => rfl) fun _ => trivial
  unfold classify
  split
  · exact trivial
  · split
    · exact trivial
    · refine halive.relay (fun _ => rfl) fun (alive, h) => ?_
      cases alive <;> exact trivial

theorem remove_heeds {name : String} {reason : OrphanReason} :
    (remove config stop kind name reason h).Heeds stop Cancellation := by
  have hdelete : (kind.delete stop config.apiBackoff name).Heeds stop Cancellation := by
    cases kind <;> exact Cluster.obeys_call.2
  have hnote : (Process.note (S := Cluster) (.orphan (kind.path name) reason.message)).Heeds stop
      fun _ => False := trivial
  refine hnote.seq nofun fun _ => hdelete.seq ?_ fun deleted => ?_
  · rintro _ ⟨e, rfl, he⟩
    simp only [he, if_true]
    exact ⟨e, rfl, he⟩
  · cases deleted with
    | ok => exact trivial
    | error e =>
      dsimp only
      split <;> exact trivial

theorem visit_heeds : (visit config stop run kind m h).Heeds stop Cancellation := by
  unfold visit
  split
  · exact trivial
  · split
    · exact trivial
    · refine classify_heeds.relay (fun _ => rfl) fun (orphaned, h) => ?_
      cases orphaned with
      | none => exact trivial
      | some reason => exact remove_heeds

theorem visitAll_heeds {ms : List Metadata} :
    (visitAll config stop run kind ms h).Heeds stop Cancellation := by
  induction ms generalizing h with
  | nil => exact trivial
  | cons m ms ih => exact visit_heeds.relay (fun _ => rfl) fun _ => ih

theorem workloads_obeys : (workloads config stop run).Obeys stop Cancellation := by
  refine .iterate fun (token, h) => .turn Cluster.obeys_call (fun _ => rfl)
    fun page => visitAll_heeds.turn (fun _ => rfl) fun h => ?_
  dsimp only
  split <;> exact trivial

theorem pods_obeys : (pods config stop run).Obeys stop Cancellation :=
  .relay Cluster.obeys_call (fun _ => rfl) fun _ =>
    visitAll_heeds.relay (fun _ => rfl) fun _ => trivial

/-- When the signal fires, one half may have failed already for another reason, and its error may
come first. -/
theorem once_obeys : (once config stop run).Obeys stop fun x => ∃ e, x = .error e := by
  have halves : (Process.both (workloads config stop run) (pods config stop run)).Obeys stop
      fun x => (∃ e, x.1 = .error e) ∨ ∃ e, x.2 = .error e := by
    refine ⟨⟨_, _, workloads_obeys.1, pods_obeys.1, ?_⟩, _, _, workloads_obeys.2, pods_obeys.2, ?_⟩
    · rintro x y ⟨e, hx, -⟩ -
      exact .inl ⟨e, hx⟩
    · rintro x y (⟨e, hx, -⟩ | ⟨e, hy, -⟩)
      · exact .inl ⟨e, hx⟩
      · exact .inr ⟨e, hy⟩
  refine halves.seq ?_ fun _ => trivial
  rintro ⟨x, y⟩ (⟨e, rfl⟩ | ⟨e, rfl⟩)
  · exact ⟨e, rfl⟩
  · cases x with
    | error e => exact ⟨e, rfl⟩
    | ok report => exact ⟨e, rfl⟩

/-- A sweep that failed for another reason is followed by a pause, and that is cut short. -/
theorem round_obeys {found : List String} :
    (round config stop deadline run found).Obeys stop LastRound := by
  refine once_obeys.seq ?_ fun result => ?_
  · rintro _ ⟨e, rfl⟩
    cases he : e.isCancelled with
    | true =>
      simp only [round.afterSweep, he, if_true]
      exact ⟨_, rfl, e, rfl, he⟩
    | false =>
      simp only [round.afterSweep, he, Bool.false_eq_true, if_false]
      refine ⟨_, Obeys.pause.1, ?_⟩
      rintro _ rfl
      exact ⟨_, rfl, _, rfl, rfl⟩
  · split
    · exact trivial
    · refine Obeys.pause.2.seq ?_ fun paused => ?_
      · rintro _ rfl
        exact ⟨_, rfl, _, rfl, rfl⟩
      · cases paused <;> exact trivial

theorem untilClear_obeys : (untilClear config stop deadline run).Obeys stop Cancellation :=
  .iterate fun _ => round_obeys

end Sweep

namespace Verification

variable {set : ToleranceSet}

theorem look_heeds : (look config stop set workloadName).Heeds stop Cancellation :=
  Cluster.obeys_call.2.relay (fun _ => rfl) fun _ =>
    Cluster.obeys_call.2.relay (fun _ => rfl) fun _ => trivial

theorem run_obeys : (run config stop deadline set workloadName).Obeys stop Cancellation := by
  refine .iterate fun l => Obeys.pause.seq ?_ fun paused => ?_
  · rintro _ rfl
    exact ⟨_, rfl, _, rfl, rfl⟩
  · cases paused with
    | stopped | overdue => exact trivial
    | «over» =>
      have hfired : (Process.fired (S := Cluster) .shutdown).Heeds stop fun _ => False := trivial
      refine hfired.seq nofun fun interrupted => ?_
      cases interrupted with
      | true => exact trivial
      | false =>
        refine look_heeds.seq ?_ fun _ => trivial
        rintro _ ⟨e, rfl, he⟩
        simp only [Looks.after, he, if_true]
        exact ⟨_, rfl, e, rfl, he⟩

end Verification

namespace Teardown

theorem pause_obeys {outstanding : String} :
    (pause config stop deadline outstanding).Obeys stop Cancellation := by
  refine Obeys.pause.seq ?_ fun paused => ?_
  · rintro _ rfl
    exact ⟨_, rfl, rfl⟩
  · cases paused <;> exact trivial

/-- The error of a deletion that is made again is dropped, also if it was cancelled. -/
theorem deleteAgain_obeys {l : Lingering} :
    (deleteAgain config stop workloadName l).Obeys stop fun _ => True := by
  refine Obeys.clock.before fun now => ?_
  split
  · exact Obeys.before Cluster.obeys_call fun _ => Obeys.clock.before fun _ => .pure trivial
  · exact .pure trivial

theorem podRound_obeys {l : Lingering} :
    (podRound config stop deadline workloadName l).Obeys stop LastRound := by
  refine Cluster.obeys_call.seq ?_ fun listing => ?_
  · rintro _ ⟨e, rfl, he⟩
    simp only [afterListing, he, if_true]
    exact ⟨_, rfl, _, rfl, rfl⟩
  · split
    · exact trivial
    · exact deleteAgain_obeys.2.before fun l => pause_obeys.turn (fun _ => rfl) fun _ => trivial

theorem awaitPods_obeys :
    (awaitPods config stop deadline workloadName).Obeys stop Cancellation :=
  Obeys.clock.before fun _ => .iterate fun _ => podRound_obeys

theorem present_obeys : (present config stop workloadName).Obeys stop Cancellation := by
  refine .iterate fun token => .turn Cluster.obeys_call (fun _ => rfl) fun page => ?_
  dsimp only
  split
  · exact trivial
  · split <;> exact trivial

theorem parentRound_obeys {u : Unit} :
    (parentRound config stop deadline workloadName u).Obeys stop LastRound := by
  have hwait : (parentRound.wait config stop deadline workloadName).Heeds stop LastRound :=
    pause_obeys.2.turn (fun _ => rfl) fun _ => trivial
  refine present_obeys.seq ?_ fun found => ?_
  · rintro _ ⟨e, rfl, he⟩
    simp only [he, if_true]
    exact ⟨_, rfl, e, rfl, he⟩
  · rcases found with e | _ | _
    · dsimp only
      split
      · exact trivial
      · exact hwait
    · exact trivial
    · exact hwait

theorem awaitParent_obeys :
    (awaitParent config stop deadline workloadName).Obeys stop Cancellation :=
  .iterate fun _ => parentRound_obeys

theorem run_obeys : (run config stop deadline workloadName).Obeys stop Cancellation := by
  have hremove : (remove config stop workloadName).Obeys stop Cancellation :=
    .relay Cluster.obeys_call (fun _ => rfl) fun _ => Cluster.obeys_call.2
  exact hremove.relay (fun _ => rfl) fun _ =>
    awaitPods_obeys.2.relay (fun _ => rfl) fun _ => awaitParent_obeys.2

end Teardown

namespace Worker

variable {a : Assignment}

theorem owner_obeys : (owner a).Obeys .run fun _ => True := by
  refine Obeys.before Cluster.obeys_call fun found => ?_
  rcases found with e | _ | pod <;> exact .pure trivial

theorem tolerances_obeys : (tolerances a).Obeys .run fun _ => True := by
  unfold tolerances
  split
  · exact .pure trivial
  · have hdiscover : (ToleranceSet.discover .run a.config.apiBackoff a.config.allowedTaints).Obeys
        .run Cancellation :=
      .relay Cluster.obeys_call (fun _ => rfl) fun _ => trivial
    refine hdiscover.before fun discovered => ?_
    cases discovered <;> exact .pure trivial

end Worker

/-- At whatever instant the signal fires, and wherever these wait then, they are over at that
instant: they end with a cancellation, and make no call after that. -/
theorem ends_on_cancellation (config : Config) (stop : Signal) (deadline : Nat) (run : Run)
    (set : ToleranceSet) (workloadName : String) (policy : Backoff) (operation : String)
    (r : Cluster.Request) :
    (Cluster.callAs stop policy operation r).EndsOn stop Cancellation ∧
      (Sweep.untilClear config stop deadline run).EndsOn stop Cancellation ∧
      (Verification.run config stop deadline set workloadName).EndsOn stop Cancellation ∧
      (Teardown.awaitPods config stop deadline workloadName).EndsOn stop Cancellation ∧
      (Teardown.awaitParent config stop deadline workloadName).EndsOn stop Cancellation ∧
      (Teardown.run config stop deadline workloadName).EndsOn stop Cancellation :=
  ⟨Cluster.obeys_callAs.endsOn fun _ => Cluster.diligent_callAs,
    Sweep.untilClear_obeys.endsOn fun _ => Sweep.untilClear_diligent,
    Verification.run_obeys.endsOn fun _ => Verification.run_diligent,
    Teardown.awaitPods_obeys.endsOn fun _ => Teardown.awaitPods_diligent,
    Teardown.awaitParent_obeys.endsOn fun _ => Teardown.awaitParent_diligent,
    Teardown.run_obeys.endsOn fun _ => Teardown.run_diligent⟩

/-- The pods cannot be listed, and the workloads only after a long time. -/
def halting : Behaviour Cluster where
  State := Unit
  Ticket := Unit
  start _ r s := (match r with | .listWorkloads _ _ => .ofSeconds 60 | _ => .zero, (), s)
  answer _ r _ s :=
    match r with
    | .listNodes => (.ok [], s)
    | .listPods _ =>
      (.error (.cluster (.api ⟨"Failure", "pods is forbidden", "Forbidden", 403⟩)), s)
    | .listWorkloads _ _ => (.ok ⟨[], none⟩, s)
    | .createWorkload _ | .deleteWorkload _ | .deletePods _ | .deletePod _ => (.ok (), s)
    | .getPod _ | .getWorkload _ => (.ok none, s)

-- One half of the sweep has failed when the signal fires, the other half is in a call.
example : (match Suspended.runWith 400 400 [(Clock.ofMillis 5000, .run)]
    (.ready (Sweep.untilClear .standard .run (Clock.ofMillis 100000) ⟨"daemonset", "probe", 1⟩))
    (World.initial (B := halting) ()) with
    | (.finished (.error e), w) => e.isCancelled && w.now == Clock.ofMillis 5000 && w.calls == 2
    | _ => false) = true := by
  decide +kernel

end NodeCoverage
