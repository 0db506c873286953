import NodeCoverage.Proofs.Check.Reporting
import NodeCoverage.Proofs.Process.Retry
import NodeCoverage.Report.Delivery
/-!
# The receiver hears one verdict

Whatever the receiver answers, a run that is reported posts one report under one identifier, again
and again until an answer is definitive or the policy gives up. What the run makes of it is what the
last answer says.
-/

namespace NodeCoverage

open Process (Retried Waits Yields)

namespace Aggregator

/-- An answer after which the report is not posted again. -/
def isDefinitive (answer : Option Http.Response) : Bool :=
  answer.any fun r => r.status = 200 || r.status = 400

variable {answer : Option Http.Response}

theorem verdict_cases (answer : Option Http.Response) :
    (∃ body, answer = some ⟨200, body⟩ ∧ verdict answer = .ok ()) ∨
      (∃ body, answer = some ⟨400, body⟩ ∧ verdict answer = .error (.rejected body)) ∨
      (isDefinitive answer = false ∧ ∃ e, verdict answer = .error e ∧ e.isPermanent = false) := by
  rcases answer with _ | ⟨status, body⟩
  · exact .inr (.inr ⟨rfl, .transport, rfl, rfl⟩)
  by_cases hok : status = 200
  · subst hok
    exact .inl ⟨body, rfl, rfl⟩
  by_cases hrefused : status = 400
  · subst hrefused
    exact .inr (.inl ⟨body, rfl, rfl⟩)
  · exact .inr (.inr ⟨by simp [isDefinitive, hok, hrefused], .badStatus status body,
      by simp [verdict, hok, hrefused], rfl⟩)

theorem verdict_eq_ok_iff : verdict answer = .ok () ↔ ∃ body, answer = some ⟨200, body⟩ := by
  refine ⟨fun h => ?_, fun ⟨body, hbody⟩ => hbody ▸ rfl⟩
  rcases verdict_cases answer with ⟨body, hbody, -⟩ | ⟨_, -, hv⟩ | ⟨-, _, hv, -⟩
  · exact ⟨body, hbody⟩
  all_goals rw [h] at hv; cases hv

theorem verdict_eq_rejected_iff {body : String} :
    verdict answer = .error (.rejected body) ↔ answer = some ⟨400, body⟩ := by
  refine ⟨fun h => ?_, fun hbody => hbody ▸ rfl⟩
  rcases verdict_cases answer with ⟨_, -, hv⟩ | ⟨_, hbody, hv⟩ | ⟨-, _, hv, he⟩
  all_goals rw [h] at hv; cases hv
  · exact hbody
  · cases he

theorem isDefinitive_eq_false_iff : isDefinitive answer = false ↔
    ∃ e, verdict answer = .error e ∧ e.isPermanent = false := by
  refine ⟨fun h => ?_, fun ⟨e, hv, he⟩ => ?_⟩
  · rcases verdict_cases answer with ⟨_, rfl, -⟩ | ⟨_, rfl, -⟩ | ⟨-, hfailed⟩
    · cases h
    · cases h
    · exact hfailed
  · rcases verdict_cases answer with ⟨_, rfl, -⟩ | ⟨_, rfl, -⟩ | ⟨h, -⟩
    · cases hv
    · cases hv
      cases he
    · exact h

end Aggregator

namespace Posting

open Aggregator (isDefinitive verdict)

variable {B : Behaviour Aggregator} {p : Posting} {policy : Backoff} {w w' : World B}
  {answers : List (Option Http.Response)} {outcome : Except ReportError Unit}

/-- These events are nothing but the posting, made again and again, with these answers. -/
inductive Exchanged (p : Posting) : List (Option Http.Response) → List (Event Aggregator) → Prop
  | none : Exchanged p [] []
  | next {answers : List (Option Http.Response)} {events : List (Event Aggregator)}
    {x : Option Http.Response} (t t' : Nat) : Exchanged p answers events →
    Exchanged p (answers ++ [x])
      (events ++ [.called t answers.length p, .answered t' answers.length p x])

/-- The posting has been made and answered so often. -/
structure Heard (p : Posting) (answers : List (Option Http.Response)) (w : World B) : Prop where
  exchanged : Exchanged p answers w.trace.toList
  calls : w.calls = answers.length

/-- The posting has been made once more and is not answered yet. -/
def Pending (p : Posting) (answers : List (Option Http.Response)) (w : World B) : Prop :=
  ∃ events t, Exchanged p answers events ∧
    w.trace.toList = events ++ [.called t answers.length p]

/-! ### One attempt -/

theorem heard_world (now : Nat) (state : B.State) : Heard p [] (world (B := B) now state) :=
  ⟨.none, rfl⟩

theorem Heard.advance (h : Heard p answers w) (t : Nat) : Heard p answers (w.advance t) :=
  ⟨h.exchanged, h.calls⟩

theorem Heard.called (h : Heard p answers w) :
    (w.call (S := Aggregator) p).2.trace.toList =
      w.trace.toList ++ [.called w.now answers.length p] := by
  simp [World.call, h.calls]

theorem Heard.answered (h : Heard p answers w) (t : Nat) (k : B.Ticket) :
    let x : Option Http.Response × World B :=
      ((w.call (S := Aggregator) p).2.advance t).answer answers.length p k
    Heard p (answers ++ [x.1]) x.2 := by
  intro x
  have hlog : x.2.trace.toList = w.trace.toList ++ [.called w.now answers.length p,
      .answered ((w.call (S := Aggregator) p).2.advance t).now answers.length p x.1] := by
    simp [x, World.answer, World.advance, h.called]
  refine ⟨?_, ?_⟩
  · rw [hlog]
    exact h.exchanged.next ..
  · rw [List.length_append, List.length_singleton, ← h.calls]
    rfl

theorem Heard.attempt (h : Heard p answers w) (hyields : Yields p.attempt w outcome w') :
    ∃ x, outcome = verdict x ∧ Heard p (answers ++ [x]) w' := by
  obtain ⟨x, w₁, hcall, hend⟩ := Yields.bind_iff.mp hyields
  obtain ⟨rfl, rfl⟩ := Yields.pure_iff.mp hend
  have hheard := h.answered (w.call (S := Aggregator) p).1.2.2 (w.call (S := Aggregator) p).1.2.1
  rw [show answers.length = (w.call (S := Aggregator) p).1.1 from h.calls.symm,
    Yields.call_iff.mp hcall] at hheard
  exact ⟨x, rfl, hheard⟩

theorem Heard.pending (h : Heard p answers w) (hwaits : Waits p.attempt w w') :
    Pending p answers w' := by
  rcases hwaits.bind_cases with hcall | ⟨_, _, -, hend⟩
  · obtain ⟨t, rfl⟩ := hcall.call_cases
    exact ⟨_, _, h.exchanged, h.called⟩
  · exact absurd hend Waits.not_pure

theorem exists_yields_attempt (w : World B) : ∃ outcome w', Yields p.attempt w outcome w' := by
  obtain ⟨x, w', hcall⟩ : ∃ x w', Yields (.call (S := Aggregator) p) w x w' :=
    ⟨_, _, Yields.call_iff.mpr rfl⟩
  exact ⟨verdict x, w', Yields.bind_iff.mpr ⟨x, w', hcall, Yields.pure_iff.mpr ⟨rfl, rfl⟩⟩⟩

/-! ### All attempts -/

theorem heard_of_retried {errors : List ReportError} (hw : Heard p [] w)
    (h : Retried policy ReportError.isPermanent p.attempt w errors w') :
    ∃ answers, answers.length = errors.length ∧ Heard p answers w' ∧
      ∀ x ∈ answers, isDefinitive x = false := by
  induction h with
  | none => exact ⟨[], rfl, hw, nofun⟩
  | next _ _ hattempt hpermanent _ hsleep ih =>
    obtain ⟨answers, hlength, hheard, hanswers⟩ := ih
    obtain ⟨x, hx, hheard⟩ := hheard.attempt hattempt
    refine ⟨answers ++ [x], by simp [hlength], ?_, ?_⟩
    · rw [Process.yields_sleep_iff.mp hsleep]
      exact hheard.advance _
    · simp only [List.mem_append, List.mem_singleton, or_imp, forall_and, forall_eq]
      exact ⟨hanswers, Aggregator.isDefinitive_eq_false_iff.mpr ⟨_, hx.symm, hpermanent⟩⟩

/-- What has come of the posting, first made at `t`, when no other attempt follows. -/
structure Settled (policy : Backoff) (p : Posting) (t : Nat) (result : Except ReportError Unit)
    (w : World B) (earlier : List (Option Http.Response)) (last : Option Http.Response) :
    Prop where
  exchanged : Exchanged p (earlier ++ [last]) w.trace.toList
  indefinite : ∀ x ∈ earlier, isDefinitive x = false
  told : result = verdict last
  accepted : result = .ok () ↔ ∃ body, last = some ⟨200, body⟩
  refused : ∀ body, result = .error (.rejected body) ↔ last = some ⟨400, body⟩
  gaveUp : isDefinitive last = false → (∃ e, result = .error e) ∧ ∃ interval,
    policy.interval? earlier.length = some interval ∧
      policy.exhausted ⟨w.now - t⟩ (policy.delay w.draw interval) = true

theorem settled_of_yields {result : Except ReportError Unit} (hw : Heard p [] w)
    (h : Yields (p.send policy) w result w') :
    ∃ earlier last, Settled policy p w.now result w' earlier last := by
  obtain ⟨errors, interval, w₁, hretried, hinterval, hattempt, hlast⟩ :=
    Process.yields_retry_iff.mp h
  obtain ⟨earlier, hlength, hheard, hearlier⟩ := heard_of_retried hw hretried
  obtain ⟨last, rfl, hheard⟩ := hheard.attempt hattempt
  refine ⟨earlier, last, hheard.exchanged, hearlier, rfl, Aggregator.verdict_eq_ok_iff,
    fun body => Aggregator.verdict_eq_rejected_iff, fun hindefinite => ?_⟩
  obtain ⟨e, he, hpermanent⟩ := Aggregator.isDefinitive_eq_false_iff.mp hindefinite
  refine ⟨⟨e, he⟩, interval, hlength ▸ hinterval, (hlast e he).resolve_left ?_⟩
  rw [hpermanent]
  exact Bool.false_ne_true

/-- While the report is not delivered every answer was one after which it is posted again. -/
theorem exchanged_of_waits (hw : Heard p [] w) (h : Waits (p.send policy) w w') :
    ∃ answers, (∀ x ∈ answers, isDefinitive x = false) ∧
      (Exchanged p answers w'.trace.toList ∨ Pending p answers w') := by
  obtain ⟨errors, interval, w₁, hretried, -, hwaits⟩ := Process.waits_retry h
  obtain ⟨answers, -, hheard, hanswers⟩ := heard_of_retried hw hretried
  rcases hwaits with hwaits | ⟨e, w₂, hattempt, hpermanent, hwaits⟩
  · exact ⟨answers, hanswers, .inr (hheard.pending hwaits)⟩
  · obtain ⟨x, hx, hheard⟩ := hheard.attempt hattempt
    obtain ⟨t, rfl⟩ := hwaits.of_clock_bind.sleepUntil_cases
    refine ⟨answers ++ [x], ?_, .inl (hheard.advance t).exchanged⟩
    simp only [List.mem_append, List.mem_singleton, or_imp, forall_and, forall_eq]
    exact ⟨hanswers, Aggregator.isDefinitive_eq_false_iff.mpr ⟨_, hx.symm, hpermanent⟩⟩

theorem yields_of_run {fuel now : Nat} {state : B.State} {result : Except ReportError Unit}
    (h : Posting.run fuel policy now state p = (.finished result, w')) :
    Yields (p.send policy) (world now state) result w' :=
  Yields.of_runUntil h

/-- Under a policy that gives up, every report is delivered or not. -/
theorem exists_run (hgives : policy.GivesUp) (now : Nat) (state : B.State) :
    ∃ result w' enough, ∀ fuel, enough ≤ fuel →
      Posting.run fuel policy now state p = (.finished result, w') := by
  obtain ⟨result, w', hyields⟩ :=
    Process.exists_yields_retry hgives exists_yields_attempt (world now state)
  obtain ⟨enough, hrun⟩ := Yields.exists_fuel hyields (show Suspended.within none _ = true from rfl)
  exact ⟨result, w', enough, fun fuel hfuel => hrun fuel fuel hfuel hfuel⟩

end Posting

namespace Lifecycle

variable {C : Behaviour Cluster} {B : Behaviour Aggregator}

theorem conclude_delivers {fuel : Nat} {rt : Runtime} {a : Assignment} {reporter : Reporter}
    {cause : Option StopCause} {own : List Failure}
    {sweep : Option (Status C (Except CheckError SweepReport))} {w : World C} {m : Aftermath C}
    (h : conclude fuel rt a reporter cause own sweep w = some m) :
    ∃ result ended,
      m.summary.report = some (w.now, .ofErrors (m.summary.failures.map Failure.message)) ∧
      reporter.deliver w.now (.ofErrors (m.summary.failures.map Failure.message)) =
        some (result, ended) ∧
      m.summary.exit = exit cause result := by
  simp only [conclude] at h
  split at h
  · cases h
  · next result ended hdeliver =>
    cases h
    exact ⟨result, ended, rfl, hdeliver, rfl⟩

/-- A run that does not end by force exits as the answer to its report says. -/
theorem run_delivers {fuel : Nat} {rt : Runtime} {config : Config} {r : Run} {interrupts : List Nat}
    {reporter : Reporter} {w : World C} {m : Aftermath C}
    (h : run fuel rt config r interrupts reporter w = some m) (hexit : m.summary.exit ≠ .forced) :
    ∃ t cause result ended,
      m.summary.report = some (t, .ofErrors (m.summary.failures.map Failure.message)) ∧
      reporter.deliver t (.ofErrors (m.summary.failures.map Failure.message)) =
        some (result, ended) ∧
      m.summary.exit = exit cause result := by
  obtain ⟨e, w₁, -, hfollows⟩ := run_follows h
  cases hfollows with
  | forced hm => exact absurd (congrArg (·.summary.exit) hm) hexit
  | crashed h => exact ⟨_, _, conclude_delivers h⟩
  | done h => exact ⟨_, _, conclude_delivers h⟩

theorem deliver_posting {fuel t ended : Nat} {policy : Backoff} {url runUuid : String}
    {state : B.State} {report : Report} {result : Except ReportError Unit}
    (h : (Reporter.posting fuel policy url runUuid state).deliver t report =
      some (result, ended)) :
    ∃ w', Posting.run fuel policy t state ⟨url, runUuid, report⟩ = (.finished result, w') ∧
      ended = w'.now := by
  simp only [Reporter.posting] at h
  split at h
  · next hrun =>
    cases h
    exact ⟨_, hrun, rfl⟩
  · cases h

/-- A run that does not end by force posts one report, which says that all is well if nothing has
failed, under one identifier, until an answer accepts it, refuses it, or is the last for which the
policy has time. The run's exit tells whether the last answer has accepted it. No answer before it
was definitive, not even if there is never a last one; but there is one if the policy gives up. -/
theorem hears_one_verdict (fuel fuel' : Nat) (rt : Runtime) (config : Config) (r : Run)
    (interrupts : List Nat) (w : World C) (policy : Backoff) (url runUuid : String)
    (state : B.State) :
    (∀ m, run fuel rt config r interrupts (.posting fuel' policy url runUuid state) w = some m →
        m.summary.exit ≠ .forced → ∃ t report result w' earlier last,
          m.summary.report = some (t, report) ∧
          report.toJson = .object
            [("Errors", .array ((m.summary.failures.map Failure.message).map .string)),
              ("OK", .bool (m.summary.failures.map Failure.message).isEmpty)] ∧
          Posting.run fuel' policy t state ⟨url, runUuid, report⟩ = (.finished result, w') ∧
          Posting.Settled policy ⟨url, runUuid, report⟩ t result w' earlier last ∧
          (m.summary.exit = .reportFailed ↔ ∀ body, last ≠ some ⟨200, body⟩)) ∧
      (∀ t report w', Waits (Posting.send policy ⟨url, runUuid, report⟩)
          (Posting.world t state) w' →
        ∃ answers, (∀ x ∈ answers, Aggregator.isDefinitive x = false) ∧
          (Posting.Exchanged ⟨url, runUuid, report⟩ answers w'.trace.toList ∨
            Posting.Pending ⟨url, runUuid, report⟩ answers w')) ∧
      (policy.GivesUp → ∀ t report, ∃ enough, ∀ fuel, enough ≤ fuel →
        ((Reporter.posting fuel policy url runUuid state).deliver t report).isSome = true) := by
  refine ⟨fun m hrun hexit => ?_, fun t report w' hwaits => ?_, fun hgives t report => ?_⟩
  · obtain ⟨t, cause, result, ended, hreport, hdeliver, hexit'⟩ := run_delivers hrun hexit
    obtain ⟨w', hposting, -⟩ := deliver_posting hdeliver
    obtain ⟨earlier, last, hsettled⟩ :=
      Posting.settled_of_yields (Posting.heard_world t state) (Posting.yields_of_run hposting)
    refine ⟨t, _, result, w', earlier, last, hreport, rfl, hposting, hsettled, ?_⟩
    rw [hexit', (exit_cases cause result).2.1]
    constructor
    · rintro ⟨e, rfl⟩ body hlast
      cases hsettled.accepted.mpr ⟨body, hlast⟩
    · intro hlast
      cases result with
      | error e => exact ⟨e, rfl⟩
      | ok =>
        obtain ⟨body, hbody⟩ := hsettled.accepted.mp rfl
        exact absurd hbody (hlast body)
  · exact Posting.exchanged_of_waits (Posting.heard_world t state) hwaits
  · obtain ⟨result, w', enough, hposting⟩ :=
      Posting.exists_run (p := ⟨url, runUuid, report⟩) hgives t state
    refine ⟨enough, fun fuel hfuel => ?_⟩
    simp only [Reporter.posting, hposting fuel hfuel, Option.isSome_some]

end Lifecycle

/-! ### A receiver that answers what it was told to answer -/

namespace Aggregator

/-- The answers are these, one after the other, and then nothing is answered any more. -/
def answering : Behaviour Aggregator where
  State := List (Option Http.Response)
  Ticket := Unit
  start _ _ s := (.zero, (), s)
  answer _ _ _ s := (s.headD none, s.tail)

/-- Busy, then out of reach, and then content. -/
def reluctant : List (Option Http.Response) :=
  [some ⟨503, "busy"⟩, none, some ⟨200, ""⟩]

end Aggregator

/-- Half a minute is not enough for eleven pauses, however short they are drawn. -/
theorem Posting.policy_givesUp : Posting.policy.GivesUp := by
  have h : (Posting.policy.slept? 11).any (fun total => (Duration.ofSeconds 30).nanos < total) =
      true := by
    decide +kernel
  obtain ⟨total, hslept, hlong⟩ := (Option.any_eq_true _ _).mp h
  exact ⟨_, rfl, 11, total, hslept, of_decide_eq_true hlong⟩

/-- The theorem for a receiver that accepts the third posting. -/
theorem Lifecycle.hears_one_verdict_reluctant : ∃ m : Aftermath Leftovers.lossy,
    run 400 .simulated .standard Leftovers.probe []
        (.posting (B := Aggregator.answering) 400 Posting.policy "http://receiver" "run"
          Aggregator.reluctant) Leftovers.bare = some m ∧
      m.summary.exit = .completed ∧
      (∃ t report result w' earlier body, m.summary.report = some (t, report) ∧
        Posting.Settled (B := Aggregator.answering) Posting.policy
          ⟨"http://receiver", "run", report⟩ t result w' earlier (some ⟨200, body⟩)) ∧
      Posting.policy.GivesUp ∧ ∃ enough, ∀ fuel, enough ≤ fuel →
        ((Reporter.posting (B := Aggregator.answering) fuel Posting.policy "http://receiver" "run"
          Aggregator.reluctant).deliver 0 .success).isSome = true := by
  have h : (run 400 .simulated .standard Leftovers.probe []
      (.posting (B := Aggregator.answering) 400 Posting.policy "http://receiver" "run"
        Aggregator.reluctant) Leftovers.bare).any (fun m => m.summary.exit = .completed) =
      true := by
    decide +kernel
  obtain ⟨m, hrun, hm⟩ := (Option.any_eq_true _ _).mp h
  have hexit : m.summary.exit = .completed := of_decide_eq_true hm
  obtain ⟨hverdict, -, hdelivered⟩ := hears_one_verdict (B := Aggregator.answering) 400 400
    .simulated .standard Leftovers.probe [] Leftovers.bare Posting.policy "http://receiver" "run"
    Aggregator.reluctant
  obtain ⟨t, report, result, w', earlier, last, hreport, -, -, hsettled, hfailed⟩ :=
    hverdict m hrun (by simp [hexit])
  obtain ⟨body, rfl⟩ : ∃ body, last = some ⟨200, body⟩ := by
    apply Classical.byContradiction
    intro hnone
    have hreportFailed := hfailed.mpr fun body hbody => hnone ⟨body, hbody⟩
    rw [hexit] at hreportFailed
    cases hreportFailed
  exact ⟨m, hrun, hexit, ⟨t, report, result, w', earlier, body, hreport, hsettled⟩,
    Posting.policy_givesUp, hdelivered Posting.policy_givesUp 0 .success⟩

end NodeCoverage
