import NodeCoverage.Proofs.Check.Clearing
import NodeCoverage.Proofs.Check.Sweeping
import NodeCoverage.Proofs.Process.Abandon
/-!
# Whom the timeout of the sweeps names

When the deadline comes, the sweeps before a run name what the last one that was carried through has
found, whether its deletion succeeded or not. In a store in which deletions take effect at once, an
object so named is still there exactly if no deletion of it was answered well. Where all deletions
succeed and the deadline leaves no time for another sweep, what is named is gone.
-/

namespace NodeCoverage

open Cluster (Calls Made Request)
open Process (Finishes Meets Reaches Rounds Uses Yields)

variable {B : Behaviour Cluster}

/-! ### Deletions -/

namespace Sweepable

def deletion : Sweepable → String → Request
  | workload, name => .deleteWorkload name
  | pod, name => .deletePod name

theorem deletion_inj {kind kind' : Sweepable} {name name' : String} :
    kind.deletion name = kind'.deletion name' ↔ kind = kind' ∧ name = name' := by
  cases kind <;> cases kind' <;> simp [deletion]

theorem path_inj {kind kind' : Sweepable} {name name' : String} :
    kind.path name = kind'.path name' ↔ kind = kind' ∧ name = name' := by
  refine ⟨fun h => ?_, by rintro ⟨rfl, rfl⟩; rfl⟩
  have h := congrArg String.toList h
  cases kind <;> cases kind' <;> simp [path] at h <;> simp [String.toList_inj.mp h]

end Sweepable

/-- The event is the answer that the object of this kind and name was deleted. -/
def Event.Removes (kind : Sweepable) (name : String) : Event Cluster → Prop
  | .answered _ _ r x => r = kind.deletion name ∧ Except.isOk (α := r.Result) x = true
  | .called _ _ _ | .noted _ _ => False

theorem Event.removes_answered {t n : Nat} {kind kind' : Sweepable} {name name' : String}
    {x : Except CheckError (kind.deletion name).Result} :
    (Event.answered (S := Cluster) t n (kind.deletion name) x).Removes kind' name' ↔
      (kind = kind' ∧ name = name') ∧ x.isOk = true :=
  and_congr_left' Sweepable.deletion_inj

/-- Since `v` a deletion of the object of this kind and name was answered well. -/
def World.Removed (v w : World B) (kind : Sweepable) (name : String) : Prop :=
  v.Has (Event.Removes kind name) w

def Inventory.Contains (inv : Inventory B) (kind : Sweepable) (name : String) (t : Nat)
    (s : B.State) : Prop :=
  ∃ m ∈ inv.objects kind t s, m.name = some name

/-- Deletions take effect at once: when one is answered well, the objects of its kind and name are
gone and all others are there as before. One that fails changes nothing, and neither does anything
else that a sweep asks for. Only what is there is shown. -/
structure Obedient (inv : Inventory B) : Prop where
  same : ∀ {t s t' s' kind}, Steady t s t' s' → inv.objects kind t' s' = inv.objects kind t s
  starts : ∀ {t s} {kind kind' : Sweepable} {name},
    inv.objects kind' t (B.start t (kind.deletion name) s).2.2 = inv.objects kind' t s
  refused : ∀ {t k s} {kind kind' : Sweepable} {name e},
    (B.answer t (kind.deletion name) k s).1 = .error e →
    inv.objects kind' t (B.answer t (kind.deletion name) k s).2 = inv.objects kind' t s
  deleted : ∀ {t k s} {kind kind' : Sweepable} {name u m},
    (B.answer t (kind.deletion name) k s).1 = .ok u →
    (m ∈ inv.objects kind' t (B.answer t (kind.deletion name) k s).2 ↔
      m ∈ inv.objects kind' t s ∧ ¬ (kind' = kind ∧ m.name = some name))
  shown : ∀ {t k s r kind m}, Sweep.Asks r → m ∈ kind.shown r (B.answer t r k s).1 →
    m ∈ inv.objects kind t s

/-- Since `v` the store has lost what was deleted, and nothing else has changed it. -/
def World.Sheds (inv : Inventory B) (v w : World B) : Prop :=
  ∃ events, v.Adds events w ∧ ∀ kind m, m ∈ inv.objects kind w.now w.state ↔
    m ∈ inv.objects kind v.now v.state ∧
      ∀ name, m.name = some name → ∀ e ∈ events, ¬ e.Removes kind name

namespace World.Sheds

variable {inv : Inventory B} {v w w₁ w₂ w₃ : World B}

theorem refl (w : World B) : w.Sheds inv w :=
  ⟨[], .refl w, by simp⟩

theorem trans (h₁ : w₁.Sheds inv w₂) (h₂ : w₂.Sheds inv w₃) : w₁.Sheds inv w₃ := by
  obtain ⟨events, hadds, hevents⟩ := h₁
  obtain ⟨more, hadds', hmore⟩ := h₂
  refine ⟨events ++ more, hadds.trans hadds', fun kind m => ?_⟩
  rw [hmore, hevents]
  simp only [List.mem_append, or_imp, forall_and, and_assoc]

theorem single {e : Event Cluster} (hadds : w₁.Adds [e] w₂)
    (he : ∀ kind name, ¬ e.Removes kind name)
    (hsame : ∀ kind, inv.objects kind w₂.now w₂.state = inv.objects kind w₁.now w₁.state) :
    w₁.Sheds inv w₂ :=
  ⟨[e], hadds, fun kind m => by simp [hsame, he]⟩

/-- What is there now was there, and no deletion of it was answered well since. -/
theorem contains_iff (h : v.Sheds inv w) {kind : Sweepable} {name : String} :
    inv.Contains kind name w.now w.state ↔
      inv.Contains kind name v.now v.state ∧ ¬ v.Removed w kind name := by
  obtain ⟨events, hadds, hevents⟩ := h
  have hremoved : v.Removed w kind name ↔ ∃ e ∈ events, e.Removes kind name := by
    refine ⟨fun ⟨events', hadds', e, he⟩ => ?_, fun ⟨e, he⟩ => ⟨events, hadds, e, he⟩⟩
    obtain rfl := hadds.unique hadds'
    exact ⟨e, he⟩
  rw [hremoved]
  unfold Inventory.Contains
  simp only [hevents]
  constructor
  · rintro ⟨m, ⟨hm, hnone⟩, hname⟩
    exact ⟨⟨m, hm, hname⟩, fun ⟨e, he, hremoves⟩ => hnone name hname e he hremoves⟩
  · rintro ⟨⟨m, hm, hname⟩, hnone⟩
    refine ⟨m, ⟨hm, fun name' hname' e he hremoves => ?_⟩, hname⟩
    cases hname.symm.trans hname'
    exact hnone ⟨e, he, hremoves⟩

end World.Sheds

namespace Sweep

theorem Asks.cases {r : Request} (h : Asks r) :
    r.deletes = none ∨ ∃ (kind : Sweepable) (name : String), r = kind.deletion name := by
  cases r with
  | deleteWorkload name => exact .inr ⟨.workload, name, rfl⟩
  | deletePod name => exact .inr ⟨.pod, name, rfl⟩
  | createWorkload | deletePods => exact h.elim
  | listNodes | listPods | listWorkloads | getPod | getWorkload => exact .inl rfl

theorem exists_pageCall (token : Option String) {pages : List Cluster.Page} {page : Cluster.Page}
    (h : page ∈ pages) : ∃ token',
      ⟨.listWorkloads Labels.systemSelector token', .ok page⟩ ∈ pageCalls token pages := by
  induction pages generalizing token with
  | nil => cases h
  | cons p pages ih =>
    rcases List.mem_cons.mp h with rfl | h
    · exact ⟨token, List.mem_cons_self ..⟩
    · obtain ⟨token', hcall⟩ := ih p.next h
      exact ⟨token', List.mem_cons_of_mem _ hcall⟩

theorem Listed.exists_shown {kind : Sweepable} {made : List Made} {entries : List Metadata}
    (h : Listed made entries kind) :
    ∀ m ∈ entries, ∃ c ∈ made, m ∈ kind.shown c.request c.outcome := by
  intro m hm
  cases kind with
  | workload =>
    obtain ⟨pages, -, hlistings, rfl⟩ := h
    obtain ⟨page, hpage, hm⟩ := List.mem_flatMap.mp hm
    obtain ⟨token, hcall⟩ := exists_pageCall none hpage
    exact ⟨_, List.mem_of_mem_filter (hlistings ▸ hcall), by simpa [Sweepable.shown] using hm⟩
  | pod =>
    obtain ⟨pods, hlistings, rfl⟩ := h
    have hcall := List.mem_singleton_self (⟨.listPods Labels.systemSelector, .ok pods⟩ : Made)
    exact ⟨_, List.mem_of_mem_filter (hlistings ▸ hcall), by simpa [Sweepable.shown] using hm⟩

section

variable {inv : Inventory B} (hinv : Obedient inv) {w w' : World B}
include hinv

theorem sheds_passes (h : w.Passes w') : w.Sheds inv w' := by
  obtain ⟨stops, hstops⟩ := h.trace_eq
  refine ⟨_, hstops, fun kind m => ?_⟩
  rw [h.state_eq, hinv.same (.passes h.now_le)]
  refine (and_iff_left fun name _ e he => ?_).symm
  obtain ⟨t, -, rfl⟩ := List.mem_map.mp he
  exact id

theorem sheds_call {r : Request} (hr : Asks r) : w.Sheds inv (w.call r).2 := by
  refine .single (World.adds_call w r) (fun _ _ => id) fun kind => ?_
  rcases hr.cases with hnone | ⟨kind', name, rfl⟩
  · exact hinv.same (.start hr hnone)
  · exact hinv.starts

theorem sheds_answer {r : Request} (hr : Asks r) {n : Nat} {k : B.Ticket} :
    w.Sheds inv (w.answer n r k).2 := by
  rcases hr.cases with hnone | ⟨kind, name, rfl⟩
  · refine .single (World.adds_answer w n r k) ?_ fun kind => hinv.same (.answer hr hnone)
    rintro kind name ⟨rfl, -⟩
    cases kind <;> cases hnone
  · cases hx : (B.answer w.now (kind.deletion name) k w.state).1 with
    | error e =>
      refine .single (World.adds_answer w n _ k) ?_ fun kind' => hinv.refused hx
      rintro kind' name' ⟨-, hok⟩
      rw [show (w.answer n (kind.deletion name) k).1 = .error e from hx] at hok
      cases hok
    | ok u =>
      have hanswer : (w.answer n (kind.deletion name) k).1 = .ok u := hx
      refine ⟨_, World.adds_answer w n _ k, fun kind' m => (hinv.deleted hx).trans ?_⟩
      refine and_congr_right fun _ => ?_
      simp only [List.mem_singleton, forall_eq]
      constructor
      · intro hother name' hname he
        obtain ⟨⟨rfl, rfl⟩, -⟩ := Event.removes_answered.mp he
        exact hother ⟨rfl, hname⟩
      · rintro hnone ⟨rfl, hname⟩
        exact hnone name hname (Event.removes_answered.mpr ⟨⟨rfl, rfl⟩, by rw [hanswer]; rfl⟩)

theorem sheds_beside {calls : Request → Prop} (hcalls : ∀ r, calls r → Asks r) :
    (Lifecycle.passing (B := B)).Beside calls Notes (World.Sheds inv) where
  refl := .refl
  trans := .trans
  moves := sheds_passes hinv
  call hr := sheds_call hinv (hcalls _ hr)
  answer hr := sheds_answer hinv (hcalls _ hr)
  note _ := .single (World.adds_note ..) (fun _ _ => id) fun _ => rfl

variable {config : Config} {stop : Signal} {run : Run} {kind : Sweepable}

theorem shown_of_calls (kind : Sweepable) {made : List Made} {policy : Backoff}
    (hcalls : Calls (fun _ => World.Sheds inv) stop policy w made w')
    (hasks : ∀ c ∈ made, Asks c.request) : w.Sheds inv w' ∧
      ∀ c ∈ made, ∀ m ∈ kind.shown c.request c.outcome, m ∈ inv.objects kind w.now w.state := by
  induction hcalls with
  | none => exact ⟨.refl w, fun _ hc => absurd hc List.not_mem_nil⟩
  | note entry _ ih =>
    obtain ⟨hsheds, hshown⟩ := ih hasks
    exact ⟨hsheds.trans (.single (World.adds_note ..) (fun _ _ => id) fun _ => rfl), hshown⟩
  | @call made r x w₁ w₂ _ hcall ih =>
    simp only [List.mem_append, List.mem_singleton, or_imp, forall_and, forall_eq] at hasks ⊢
    obtain ⟨hsheds, hshown⟩ := ih hasks.1
    have hmeets : Meets (fun _ => World.Sheds inv) (w.Sheds inv) (Cluster.call stop policy r) w₁
        fun o w' => w.Sheds inv w' ∧ ∀ a, o = .ok a →
          ∃ w₁ n k, w.Sheds inv w₁ ∧ w₁.answer n r k = (o, w') :=
      Cluster.meets_answer (fun _ _ _ _ h₁ h₂ => h₁.trans h₂) hsheds
        (fun _ h => h.trans (sheds_call hinv hasks.2))
        fun _ _ _ h => h.trans (sheds_answer hinv hasks.2)
    obtain ⟨hsheds₂, hanswer⟩ := hmeets.of_reaches (fun _ _ _ h he => h.trans he) hcall
    refine ⟨hsheds₂, hshown, fun m hm => ?_⟩
    cases x with
    | error e => cases r <;> cases hm
    | ok a =>
      obtain ⟨w₃, n, k, ⟨_, -, hsub⟩, hx⟩ := hanswer a rfl
      refine ((hsub kind m).mp (hinv.shown (k := k) hasks.2 ?_)).1
      rw [show (B.answer w₃.now r k w₃.state).1 = .ok a from congrArg Prod.fst hx]
      exact hm

theorem contains_of_half (kind : Sweepable) {report : SweepReport}
    (h : Finishes (fun _ => World.Sheds inv) (half config stop run kind) w (.ok report) w') :
    ∀ path ∈ report.found, ∃ name, path = kind.path name ∧
      inv.Contains kind name w.now w.state := by
  obtain ⟨made, hcalls, entries, hpurged⟩ := half_calls h
  obtain ⟨-, hshown⟩ := shown_of_calls hinv kind hcalls fun c hc => (hpurged.asks c hc).1
  intro path hpath
  rw [hpurged.found] at hpath
  obtain ⟨name, hname, rfl⟩ := List.mem_map.mp hpath
  obtain ⟨m, hm, hname⟩ := List.mem_filterMap.mp hname
  obtain ⟨c, hc, hm⟩ := hpurged.listed.exists_shown m (List.mem_of_mem_filter hm)
  exact ⟨name, rfl, m, hshown c hc m hm, hname⟩

/-- A sweep only sheds, and what it has found was there when it began. -/
theorem contains_of_once {result : Except CheckError SweepReport}
    (h : Finishes Lifecycle.passing (once config stop run) w result w') :
    w.Sheds inv w' ∧ ∀ report, result = .ok report → ∀ path ∈ report.found, ∃ kind name,
      path = kind.path name ∧ inv.Contains kind name w.now w.state := by
  have hbeside {calls : Request → Prop} (hcalls : ∀ r, calls r → Asks r) :=
    sheds_beside (B := B) hinv hcalls
  refine ⟨(Meets.of_uses (.refl w) ((hbeside fun _ => id).keeps w) once_uses).of_reaches
    (fun _ _ _ h he => h.trans (sheds_passes hinv he)) h, ?_⟩
  rintro report rfl
  obtain ⟨⟨x, y⟩, w₁, hboth, hresult⟩ := Finishes.bind_iff.mp h
  obtain ⟨hmerge, rfl⟩ := Finishes.pure_iff.mp hresult
  rcases Reaches.both_cases (hbeside fun _ h => h.1) (hbeside fun _ h => h.1) workloads_uses
    pods_uses hboth with ⟨_, hs, -⟩ | hs | ⟨_, _, _, w₃, _, hx, -, hw₃, hy, -, hend⟩
  · cases hs
  · cases hs
  · cases hend
    cases x with
    | error e => cases hmerge
    | ok workloads =>
      cases y with
      | error e => cases hmerge
      | ok pods =>
        cases hmerge
        intro path hpath
        rcases List.mem_append.mp hpath with hpath | hpath
        · obtain ⟨name, rfl, hthere⟩ := contains_of_half hinv .workload hx path hpath
          exact ⟨.workload, name, rfl, hthere⟩
        · obtain ⟨name, rfl, hthere⟩ := contains_of_half hinv .pod hy path hpath
          exact ⟨.pod, name, rfl, (hw₃.contains_iff.mp hthere).1⟩

end

/-! ### The sweeps before a run -/

/-- There is another sweep after one that has found something, or that failed and was not
cancelled. -/
def LeavesOpen : Except CheckError SweepReport → Prop
  | .ok report => report.isClear = false
  | .error e => e.isCancelled = false

/-- What the last sweep that was carried through has found. -/
def lastFound (results : List (Except CheckError SweepReport)) : List String :=
  ((results.filterMap Except.toOption).getLast?.map SweepReport.found).getD []

section Definitions

variable (E : Surroundings B) (config : Config) (stop : Signal) (deadline : Nat) (run : Run)

/-- Sweeps since `w`, none of which was the last, each with a pause after it that was not cut
short. -/
inductive Repeated (w : World B) : List (Except CheckError SweepReport) → World B → Prop
  | none : Repeated w [] w
  | next {results : List (Except CheckError SweepReport)} {result : Except CheckError SweepReport}
      {w₁ w₂ w₃ : World B} :
    Repeated w results w₁ → Finishes E (once config stop run) w₁ result w₂ → LeavesOpen result →
    Finishes E (Process.pause stop deadline config.removalPollInterval) w₂ .over w₃ →
    Repeated w (results ++ [result]) w₃

/-- The deadline has come in the pause after a sweep that was to be followed by another one. The
last one that was carried through has found these objects. -/
def Overtaken (w : World B) (found : List String) (w' : World B) : Prop :=
  ∃ results result w₁ w₂, Repeated E config stop deadline run w results w₁ ∧
    Finishes E (once config stop run) w₁ result w₂ ∧ LeavesOpen result ∧
    Finishes E (Process.pause stop deadline config.removalPollInterval) w₂ .overdue w' ∧
    found = lastFound (results ++ [result])

end Definitions

theorem lastFound_concat {results : List (Except CheckError SweepReport)}
    {result : Except CheckError SweepReport} :
    lastFound (results ++ [result]) = (result.toOption.map (·.found)).getD (lastFound results) := by
  cases result <;> simp [lastFound, Except.toOption]

theorem afterSweep_lastFound_iff {results : List (Except CheckError SweepReport)}
    {result : Except CheckError SweepReport} {found : List String} :
    round.afterSweep (lastFound results) result = .inl found ↔
      LeavesOpen result ∧ found = lastFound (results ++ [result]) := by
  rw [round.afterSweep_eq_inl_iff, lastFound_concat]
  cases result <;> simp [LeavesOpen, Except.toOption]

section

variable {E : Surroundings B} {config : Config} {stop : Signal} {deadline : Nat} {run : Run}
  {w w' : World B} {found : List String}

theorem rounds_round_iff : Rounds E (round config stop deadline run) [] w found w' ↔
    ∃ results, Repeated E config stop deadline run w results w' ∧ found = lastFound results := by
  constructor
  · intro h
    induction h with
    | none => exact ⟨[], .none, rfl⟩
    | next _ hround ih =>
      obtain ⟨results, hrepeated, rfl⟩ := ih
      obtain ⟨result, w₁, honce, ⟨_, -, hx, -⟩ | ⟨found', how, hafter, hpause, hx⟩⟩ :=
        finishes_round_iff.mp hround
      · cases hx
      · obtain ⟨hopen, rfl⟩ := afterSweep_lastFound_iff.mp hafter
        cases how with
        | stopped | overdue => cases hx
        | «over» =>
          cases hx
          exact ⟨_, hrepeated.next honce hopen hpause, rfl⟩
  · rintro ⟨results, hrepeated, rfl⟩
    induction hrepeated with
    | none => exact .none
    | next _ honce hopen hpause ih =>
      exact .next ih (finishes_round_iff.mpr ⟨_, _, honce,
        .inr ⟨_, .over, afterSweep_lastFound_iff.mpr ⟨hopen, rfl⟩, hpause, rfl⟩⟩)

/-- The sweeps time out in the pause that the deadline cuts short, and name what the last one that
was carried through has found. -/
theorem finishes_timeout_iff {phase detail : String} :
    Finishes E (untilClear config stop deadline run) w (.error (.timeout phase detail)) w' ↔
      phase = "orphan cleanup" ∧ ∃ found, Overtaken E config stop deadline run w found w' ∧
        detail = describe found := by
  unfold untilClear
  rw [Finishes.iterate_iff]
  constructor
  · rintro ⟨found, w₁, hrounds, hround⟩
    obtain ⟨results, hrepeated, rfl⟩ := rounds_round_iff.mp hrounds
    obtain ⟨result, w₂, honce, ⟨_, hafter, hx, -⟩ | ⟨found', how, hafter, hpause, hx⟩⟩ :=
      finishes_round_iff.mp hround
    · cases hx
      obtain ⟨_, -, -, ho⟩ | ⟨e, -, he, ho⟩ := round.afterSweep_eq_inr_iff.mp hafter
      · cases ho
      · cases ho
        cases he
    · obtain ⟨hopen, rfl⟩ := afterSweep_lastFound_iff.mp hafter
      cases how with
      | stopped | «over» => cases hx
      | overdue =>
        cases hx
        exact ⟨rfl, _, ⟨results, result, w₁, w₂, hrepeated, honce, hopen, hpause, rfl⟩, rfl⟩
  · rintro ⟨rfl, _, ⟨results, result, w₁, w₂, hrepeated, honce, hopen, hpause, rfl⟩, rfl⟩
    exact ⟨lastFound results, w₁, rounds_round_iff.mpr ⟨results, hrepeated, rfl⟩,
      finishes_round_iff.mpr ⟨result, w₂, honce, .inr ⟨_, .overdue,
        afterSweep_lastFound_iff.mpr ⟨hopen, rfl⟩, hpause, rfl⟩⟩⟩

variable {inv : Inventory B} (hinv : Obedient inv)
include hinv

theorem contains_of_sweep {results : List (Except CheckError SweepReport)}
    {result : Except CheckError SweepReport} {w₁ w₂ : World B} (hsheds : w.Sheds inv w₁)
    (hfound : ∀ path ∈ lastFound results, ∃ kind name, path = kind.path name ∧
      inv.Contains kind name w.now w.state)
    (honce : Finishes Lifecycle.passing (once config stop run) w₁ result w₂) :
    w.Sheds inv w₂ ∧ ∀ path ∈ lastFound (results ++ [result]), ∃ kind name,
      path = kind.path name ∧ inv.Contains kind name w.now w.state := by
  obtain ⟨hsheds₂, hreport⟩ := contains_of_once hinv honce
  refine ⟨hsheds.trans hsheds₂, fun path hpath => ?_⟩
  rw [lastFound_concat] at hpath
  cases result with
  | error e => exact hfound path hpath
  | ok report =>
    obtain ⟨kind, name, rfl, hthere⟩ := hreport report rfl path hpath
    exact ⟨kind, name, rfl, (hsheds.contains_iff.mp hthere).1⟩

theorem sheds_pause {how : Pause} (h : Finishes Lifecycle.passing
    (Process.pause stop deadline config.removalPollInterval) w how w') : w.Sheds inv w' := by
  have hpause : Uses (S := Cluster) Asks Notes config.Faults
      (Process.pause stop deadline config.removalPollInterval) := pause_uses
  exact (Meets.of_uses (.refl w) ((sheds_beside hinv fun _ => id).keeps w) hpause).of_reaches
    (fun _ _ _ h he => h.trans (sheds_passes hinv he)) h

theorem Repeated.contains {results : List (Except CheckError SweepReport)}
    (h : Repeated Lifecycle.passing config stop deadline run w results w') :
    w.Sheds inv w' ∧ ∀ path ∈ lastFound results, ∃ kind name, path = kind.path name ∧
      inv.Contains kind name w.now w.state := by
  induction h with
  | none => exact ⟨.refl w, nofun⟩
  | next _ honce _ hpause ih =>
    obtain ⟨hsheds, hfound⟩ := contains_of_sweep hinv ih.1 ih.2 honce
    exact ⟨hsheds.trans (sheds_pause hinv hpause), hfound⟩

theorem Overtaken.contains
    (h : Overtaken Lifecycle.passing config stop deadline run w found w') :
    w.Sheds inv w' ∧ ∀ path ∈ found, ∃ kind name, path = kind.path name ∧
      inv.Contains kind name w.now w.state := by
  obtain ⟨results, result, w₁, w₂, hrepeated, honce, -, hpause, rfl⟩ := h
  obtain ⟨hsheds, hfound⟩ := hrepeated.contains hinv
  obtain ⟨hsheds, hfound⟩ := contains_of_sweep hinv hsheds hfound honce
  exact ⟨hsheds.trans (sheds_pause hinv hpause), hfound⟩

/-- When the sweeps before a run time out, they name the objects that the last sweep that was
carried through has found. All of these were there when the sweeps began, and of them just those are
still there of which no deletion was answered well since. -/
theorem timeout_names_survivors_iff {phase detail : String} :
    (Finishes Lifecycle.passing (untilClear config stop deadline run) w
        (.error (.timeout phase detail)) w' ↔
      phase = "orphan cleanup" ∧ ∃ found,
        Overtaken Lifecycle.passing config stop deadline run w found w' ∧
        detail = describe found) ∧
    ∀ found, Overtaken Lifecycle.passing config stop deadline run w found w' →
      (∀ path ∈ found, ∃ kind name, path = kind.path name ∧
        inv.Contains kind name w.now w.state) ∧
      ∀ kind name, kind.path name ∈ found →
        (inv.Contains kind name w'.now w'.state ↔ ¬ w.Removed w' kind name) := by
  refine ⟨finishes_timeout_iff, fun found hovertaken => ?_⟩
  obtain ⟨hsheds, hfound⟩ := hovertaken.contains hinv
  refine ⟨hfound, fun kind name hpath => ?_⟩
  obtain ⟨kind', name', hsame, hthere⟩ := hfound _ hpath
  obtain ⟨rfl, rfl⟩ := Sweepable.path_inj.mp hsame
  rw [hsheds.contains_iff, and_iff_right hthere]

end

/-! ### A store that holds on to some of its objects -/

namespace Survivors

def refused : CheckError :=
  .cluster (.api ⟨"Failure", "daemonsets is forbidden", "Forbidden", 403⟩)

/-- The workloads are these, and all but one of them can be deleted. -/
def guarding (held : String) : Behaviour Cluster where
  State := List Workload
  Ticket := Unit
  start _ _ s := (.zero, (), s)
  answer _ r _ s :=
    match r with
    | .listNodes => (.ok [], s)
    | .listPods _ => (.ok [], s)
    | .listWorkloads _ _ => (.ok ⟨s, none⟩, s)
    | .deleteWorkload name =>
      if name = held then (.error refused, s)
      else (.ok (), s.filter (·.metadata.name ≠ some name))
    | .createWorkload _ | .deletePods _ | .deletePod _ => (.ok (), s)
    | .getPod _ => (.ok none, s)
    | .getWorkload _ => (.ok none, s)

def inventory (held : String) : Inventory (guarding held) where
  workloads _ s := s
  pods _ _ := []

theorem eq_of_steady {held : String} {t t' : Nat} {s s' : (guarding held).State}
    (h : Steady t s t' s') : s' = s := by
  induction h with
  | passes | start => rfl
  | @answer _ _ r _ hr hdeletes =>
    cases r with
    | deleteWorkload | deletePod => cases hdeletes
    | createWorkload | deletePods => exact hr.elim
    | listNodes | listPods | listWorkloads | getPod | getWorkload => rfl
  | trans _ _ ih₁ ih₂ => exact ih₂.trans ih₁

theorem guarding_obedient (held : String) : Obedient (inventory held) where
  same h := by
    rw [eq_of_steady h]
    rfl
  starts := rfl
  refused := by
    intro t k s kind kind' name e h
    cases kind with
    | pod => cases h
    | workload =>
      by_cases hname : name = held
      · simp [guarding, Sweepable.deletion, hname]
      · simp [guarding, Sweepable.deletion, hname] at h
  deleted := by
    intro t k s kind kind' name u m h
    cases kind with
    | pod => cases kind' <;> simp [guarding, Sweepable.deletion, Inventory.objects, inventory]
    | workload =>
      by_cases hname : name = held
      · simp [guarding, Sweepable.deletion, hname] at h
      · cases kind' with
        | pod => simp [Inventory.objects, inventory]
        | workload =>
          have hleft : ((guarding held).answer t (Sweepable.workload.deletion name) k s).2 =
              s.filter (·.metadata.name ≠ some name) := by
            simp [guarding, Sweepable.deletion, hname]
          rw [hleft]
          constructor
          · intro hm
            obtain ⟨x, hx, rfl⟩ := List.mem_map.mp hm
            obtain ⟨hx, hother⟩ := List.mem_filter.mp hx
            exact ⟨List.mem_map_of_mem hx, by simpa using hother⟩
          · rintro ⟨hm, hother⟩
            obtain ⟨x, hx, rfl⟩ := List.mem_map.mp hm
            exact List.mem_map_of_mem (List.mem_filter.mpr ⟨hx, by simpa using hother⟩)
  shown := by
    intro t k s r kind m _ hm
    cases r <;> cases kind <;> simp [Sweepable.shown, guarding] at hm
    simpa [Inventory.objects, inventory] using hm

/-- What has no labels is an orphan. -/
def unlabeled (name : String) : Workload :=
  ⟨{ name := some name }, none⟩

/-- Two leftovers of which one can be deleted. -/
def littered : World (guarding "held") :=
  .initial [unlabeled "held", unlabeled "left"]

def brief : Nat :=
  (Duration.ofSeconds 1).nanos / 10

def swept : World (guarding "held") :=
  ((Suspended.ready (once .standard .run Clearing.probe)).runUntil 200 none 20 littered).2

def overdue : World (guarding "held") :=
  let pauseEnd := Clock.after swept.now Config.standard.removalPollInterval
  swept.advance (Clock.timer (min brief pauseEnd))

theorem overtaken : Overtaken Lifecycle.passing .standard .run brief Clearing.probe littered
    ["daemonset/held", "daemonset/left"] overdue := by
  have honce : Yields (once .standard .run Clearing.probe) littered
      (.ok ⟨["daemonset/held", "daemonset/left"], ["daemonset/held"]⟩) swept :=
    Yields.of_endsWith 200 20 (by decide +kernel)
  have hpause : Yields (Process.pause .run brief Config.standard.removalPollInterval) swept
      .overdue overdue :=
    (Yields.pause_iff (honce.fired_eq .run)).mpr ⟨by decide +kernel, rfl⟩
  exact ⟨[], _, littered, swept, .none, Lifecycle.passing_of_yields honce, rfl,
    Lifecycle.passing_of_yields hpause, rfl⟩

theorem contains_overdue {name : String} :
    (inventory "held").Contains .workload name overdue.now overdue.state ↔ name = "held" := by
  have hleft : (inventory "held").objects .workload overdue.now overdue.state =
      [{ name := some "held" }] := by decide +kernel
  simp [Inventory.Contains, hleft, eq_comm]

end Survivors

open Survivors in
/-- The theorem for two leftovers that are both named when the deadline comes. One of them is still
there, and one is not. -/
theorem timeout_names_survivors_iff_littered : Obedient (inventory "held") ∧
    Finishes Lifecycle.passing (untilClear .standard .run brief Clearing.probe) littered
      (.error (.timeout "orphan cleanup"
        "objects still present: daemonset/held, daemonset/left")) overdue ∧
    littered.Removed overdue .workload "left" ∧ ¬ littered.Removed overdue .workload "held" := by
  obtain ⟨htimeout, hnames⟩ : (Finishes Lifecycle.passing (untilClear .standard .run brief
      Clearing.probe) littered (.error (.timeout "orphan cleanup"
        "objects still present: daemonset/held, daemonset/left")) overdue ↔ _) ∧ _ :=
    timeout_names_survivors_iff (guarding_obedient "held")
  obtain ⟨-, hsurvives⟩ := hnames _ overtaken
  have hleft := hsurvives .workload "left" (by decide)
  have hheld := hsurvives .workload "held" (by decide)
  rw [contains_overdue] at hleft hheld
  exact ⟨guarding_obedient "held", htimeout.mpr ⟨rfl, _, overtaken, by decide⟩,
    Classical.byContradiction fun h => absurd (hleft.mpr h) (by decide), hheld.mp rfl⟩

open Survivors in
/-- A timeout may name an object that is gone. -/
theorem not_always_naming_survivors : ¬ ∀ (B : Behaviour Cluster) (inv : Inventory B)
    (config : Config) (stop : Signal) (deadline : Nat) (run : Run) (w w' : World B)
    (found : List String), Obedient inv →
    Overtaken Lifecycle.passing config stop deadline run w found w' →
    Finishes Lifecycle.passing (untilClear config stop deadline run) w
      (.error (.timeout "orphan cleanup" (describe found))) w' →
    ∀ kind name, kind.path name ∈ found → inv.Contains kind name w'.now w'.state := by
  intro h
  have hthere := h _ _ _ _ _ _ _ _ _ (guarding_obedient "held") overtaken
    (finishes_timeout_iff.mpr ⟨rfl, _, overtaken, rfl⟩) .workload "left" (by decide)
  exact absurd (contains_overdue.mp hthere) (by decide)

end Sweep
end NodeCoverage
