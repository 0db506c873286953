import NodeCoverage.Proofs.Check.Leftovers
import NodeCoverage.Proofs.Check.Rounds
import NodeCoverage.Proofs.Check.Sparing
import NodeCoverage.Proofs.Process.Beside
import NodeCoverage.Proofs.Process.Trace
/-!
# What is left when a sweep finds nothing

A sweep deletes while it walks over the pages, so it can miss what it should have found. But the
sweeps before a run go on until one of them finds nothing in either of its halves. That one has
deleted nothing, so the store was the same from its beginning to its end, if only sweeps change it;
hence every object was shown to it, and it has taken none of them for an orphan.
-/

namespace NodeCoverage

open Cluster (Request)
open Process (Meets Reaches Rounds Uses)

variable {B : Behaviour Cluster}

/-- The kind of objects that the event is a deletion of, or the answer to one. -/
def Event.deletes : Event Cluster → Option Sweepable
  | .called _ _ r => r.deletes
  | .answered _ _ r _ => r.deletes
  | .noted _ _ => none

/-- Time passes, and a sweep asks for something, but nothing is deleted. -/
inductive Steady : Nat → B.State → Nat → B.State → Prop
  | passes {t t' : Nat} {s : B.State} : t ≤ t' → Steady t s t' s
  | start {t : Nat} {s : B.State} {r : Request} :
    Sweep.Asks r → r.deletes = none → Steady t s t (B.start t r s).2.2
  | answer {t : Nat} {s : B.State} {r : Request} {k : B.Ticket} :
    Sweep.Asks r → r.deletes = none → Steady t s t (B.answer t r k s).2
  | trans {t₁ t₂ t₃ : Nat} {s₁ s₂ s₃ : B.State} :
    Steady t₁ s₁ t₂ s₂ → Steady t₂ s₂ t₃ s₃ → Steady t₁ s₁ t₃ s₃

/-- What holds of the store goes on to hold as long as nothing is deleted. -/
def Lasting (K : Nat → B.State → Prop) : Prop :=
  ∀ ⦃t s t' s'⦄, Steady t s t' s' → K t s → K t' s'

def Inventory.objects (inv : Inventory B) (kind : Sweepable) (t : Nat) (s : B.State) :
    List Metadata :=
  match kind with
  | .workload => (inv.workloads t s).map Workload.metadata
  | .pod => (inv.pods t s).map Pod.metadata

/-- Nothing but deletions changes the store, and as long as it is unchanged listings are complete:
that of the pods shows all of them, and a walk over the pages of the workloads shows each of them,
which is `ahead` of a token until it was shown. How long the pages are is left open. -/
structure Undisturbed (inv : Inventory B)
    (ahead : Metadata → Option String → Nat → B.State → Prop) : Prop where
  same : ∀ {t s t' s' kind}, Steady t s t' s' → inv.objects kind t' s' = inv.objects kind t s
  podsListed : ∀ {t k s pods}, (B.answer t (.listPods Labels.systemSelector) k s).1 = .ok pods →
    ∀ m ∈ inv.objects .pod t s, m.isPicked Labels.systemSelector = true →
      m ∈ pods.map Pod.metadata
  begins : ∀ {t s m}, m ∈ inv.objects .workload t s →
    m.isPicked Labels.systemSelector = true → ahead m none t s
  lasts : ∀ {t s t' s' m token}, Steady t s t' s' → ahead m token t s → ahead m token t' s'
  listed : ∀ {t k s m token page}, ahead m token t s →
    (B.answer t (.listWorkloads Labels.systemSelector token) k s).1 = .ok page →
    m ∈ page.items.map Workload.metadata ∨ ∃ next, page.next = some next ∧
      ahead m (some next) t (B.answer t (.listWorkloads Labels.systemSelector token) k s).2

/-! ### Objects that are not orphans -/

/-- The object names a creating process, which is the run's own or exists, and says that it was
created by a run that began no earlier. -/
def Metadata.IsCurrent (m : Metadata) (run : Run) (alive : String → Prop) : Prop :=
  ∃ owner text time, m.label? Labels.instanceKey = some owner ∧ owner ≠ "" ∧
    m.label? Labels.runTimeKey = some text ∧ Text.readInt64 text = .ok time ∧
    run.timestamp ≤ time ∧ (owner = run.host ∨ alive owner)

namespace Metadata

variable {m : Metadata} {run : Run} {alive : String → Prop}

theorem label?_ne_empty {key value : String} (h : m.label? key = some value) : value ≠ "" := by
  rintro rfl
  simpa using (Option.filter_eq_some_iff.mp h).2

theorem isCurrent_of_triage {owner : String}
    (h : Triage.ofMetadata m run.timestamp = .checkOwner owner)
    (halive : owner = run.host ∨ alive owner) : m.IsCurrent run alive := by
  unfold Triage.ofMetadata at h
  split at h
  · cases h
  · next o howner =>
    split at h
    · cases h
    · next text htext =>
      split at h
      · cases h
      · next time htime =>
        split at h
        · cases h
        · next hlate =>
          cases h
          exact ⟨owner, text, time, howner, label?_ne_empty howner, htext, htime,
            Int.not_lt.mp hlate, halive⟩

theorem IsCurrent.mono {alive' : String → Prop} (h : m.IsCurrent run alive)
    (hmono : ∀ owner, alive owner → alive' owner) : m.IsCurrent run alive' := by
  obtain ⟨owner, text, time, howner, hne, htext, htime, hle, halive⟩ := h
  exact ⟨owner, text, time, howner, hne, htext, htime, hle, halive.imp_right (hmono owner)⟩

/-- Nothing of an earlier run is current, wherever that run has left it. -/
theorem IsCurrent.not_ofRun {r : Run} (h : m.IsCurrent run alive)
    (hl : -(Nat.pow 2 63 : Nat) ≤ r.timestamp) (hu : r.timestamp < (Nat.pow 2 63 : Nat))
    (hearlier : r.timestamp < run.timestamp) : ¬ m.OfRun r := by
  intro hm
  obtain ⟨_, text, time, -, -, htext, htime, hle, -⟩ := h
  obtain ⟨hlabel, hread⟩ := hm.runTime_eq hl hu
  cases htext.symm.trans hlabel
  cases htime.symm.trans hread
  omega

end Metadata

/-- Since `v` it was answered that there is a pod of the name. -/
def World.PodFound (v : World B) (name : String) (w : World B) : Prop :=
  ∃ events, v.Adds events w ∧
    ∃ t n pod, Event.answered (S := Cluster) t n (Request.getPod name) (.ok (some pod)) ∈ events

theorem World.PodFound.mono {v w w' : World B} {name : String} (h : v.PodFound name w)
    (hw : w.Since (fun _ => True) w') : v.PodFound name w' := by
  obtain ⟨events, hadds, t, n, pod, hmem⟩ := h
  obtain ⟨more, hadds', -⟩ := hw
  exact ⟨events ++ more, hadds.trans hadds', t, n, pod, List.mem_append_left _ hmem⟩

namespace Sweep

/-! ### Beside one half -/

/-- What can happen beside the half of a sweep for one kind of objects: nothing of its kind is
deleted, and if nothing is deleted at all then the store is steady. -/
def Rely (kind : Sweepable) (w w' : World B) : Prop :=
  w.Since (·.deletes ≠ some kind) w' ∧
    (w.Since (·.deletes = none) w' → Steady w.now w.state w'.now w'.state)

namespace Rely

variable {kind : Sweepable} {w w₁ w₂ w₃ : World B}

theorem refl (w : World B) : Rely kind w w :=
  ⟨.refl w, fun _ => .passes (Nat.le_refl _)⟩

theorem trans (h₁ : Rely kind w₁ w₂) (h₂ : Rely kind w₂ w₃) : Rely kind w₁ w₃ := by
  refine ⟨h₁.1.trans h₂.1, fun h => ?_⟩
  obtain ⟨hbefore, hafter⟩ := World.Since.split (h₁.1.mono fun _ _ => trivial)
    (h₂.1.mono fun _ _ => trivial) h
  exact (h₁.2 hbefore).trans (h₂.2 hafter)

theorem single {e : Event Cluster} (h : w₁.Adds [e] w₂) (he : e.deletes ≠ some kind)
    (hsteady : e.deletes = none → Steady w₁.now w₁.state w₂.now w₂.state) : Rely kind w₁ w₂ :=
  ⟨.single h he, fun hnone => hsteady (World.Since.of_single h hnone)⟩

theorem passes (h : w₁.Passes w₂) : Rely kind w₁ w₂ := by
  obtain ⟨stops, hstops⟩ := h.trace_eq
  refine ⟨⟨_, hstops, fun e he => ?_⟩, fun _ => h.state_eq ▸ .passes h.now_le⟩
  obtain ⟨t, -, rfl⟩ := List.mem_map.mp he
  exact nofun

theorem beside (other kind : Sweepable) (hkind : other ≠ kind) :
    (Lifecycle.passing (B := B)).Beside (HalfAsks other) Notes (Rely kind) := by
  have hdeletes {r : Request} (hr : HalfAsks other r) : r.deletes ≠ some kind := by
    rcases hr.2 with h | h <;> rw [h]
    · exact nofun
    · exact fun he => hkind (Option.some.inj he)
  exact
    { refl := refl
      trans := trans
      moves := passes
      call := fun hr => single (World.adds_call ..) (hdeletes hr) fun h => .start hr.1 h
      answer := fun hr => single (World.adds_answer ..) (hdeletes hr) fun h => .answer hr.1 h
      note := fun _ => single (World.adds_note ..) nofun fun _ => .passes (Nat.le_refl _) }

end Rely

def beside (kind : Sweepable) : Surroundings B :=
  fun _ => Rely kind

theorem beside_transitive (kind : Sweepable) : (beside kind (B := B)).Transitive :=
  fun _ _ _ _ h₁ h₂ => h₁.trans h₂

/-! ### One half -/

/-- An object that is passed over: it has no name, or is being deleted, or is current. -/
def Spared (run : Run) (v : World B) (m : Metadata) (w : World B) : Prop :=
  m.name = none ∨ m.deletionTimestamp.isSome = true ∨ m.IsCurrent run (v.PodFound · w)

theorem Spared.mono {run : Run} {v w w' : World B} {m : Metadata} (h : Spared run v m w)
    (hw : w.Since (fun _ => True) w') : Spared run v m w' :=
  h.imp_right fun h => h.imp_right fun h => h.mono fun _ hf => hf.mono hw

/-- One half of a sweep that began in `v` has come as far as `h`, and has seen these objects. As
long as nothing is deleted, `K` holds of the store. -/
structure Halfway (kind : Sweepable) (run : Run) (v : World B) (K : Nat → B.State → Prop)
    (seen : List Metadata) (h : HalfSweep) (w : World B) : Prop where
  since : v.Since (fun _ => True) w
  /-- What deletes something has found it. -/
  spares : h.report.found = [] → v.Since (·.deletes ≠ some kind) w
  kept : v.Since (·.deletes = none) w → K w.now w.state
  alive : ∀ owner, h.owners.lookup owner = some true → v.PodFound owner w
  fine : h.report.found = [] → ∀ m ∈ seen, Spared run v m w

namespace Halfway

variable {kind : Sweepable} {run : Run} {v w w' : World B} {K K' : Nat → B.State → Prop}
  {seen : List Metadata} {h : HalfSweep} {m : Metadata}

theorem begin (hw : Rely kind v w) :
    Halfway kind run v (Steady v.now v.state) [] .empty w where
  since := hw.1.mono fun _ _ => trivial
  spares _ := hw.1
  kept := hw.2
  alive := nofun
  fine _ := nofun

theorem weaken (hh : Halfway kind run v K seen h w)
    (hK : v.Since (·.deletes = none) w → K' w.now w.state) :
    Halfway kind run v K' seen h w :=
  { hh with kept := hK }

theorem extend (hK : Lasting K) (hh : Halfway kind run v K seen h w)
    (hany : w.Since (fun _ => True) w')
    (hspares : h.report.found = [] → w.Since (·.deletes ≠ some kind) w')
    (hsteady : w.Since (·.deletes = none) w' → Steady w.now w.state w'.now w'.state) :
    Halfway kind run v K seen h w' where
  since := hh.since.trans hany
  spares hf := (hh.spares hf).trans (hspares hf)
  kept hnone := by
    obtain ⟨hbefore, hafter⟩ := World.Since.split hh.since hany hnone
    exact hK (hsteady hafter) (hh.kept hbefore)
  alive owner ho := (hh.alive owner ho).mono hany
  fine hf m hm := (hh.fine hf m hm).mono hany

theorem rely (hK : Lasting K) (hh : Halfway kind run v K seen h w) (hw : Rely kind w w') :
    Halfway kind run v K seen h w' :=
  hh.extend hK (hw.1.mono fun _ _ => trivial) (fun _ => hw.1) hw.2

theorem add (hK : Lasting K) (hh : Halfway kind run v K seen h w) {e : Event Cluster}
    (hadds : w.Adds [e] w') (hsteady : e.deletes = none → Steady w.now w.state w'.now w'.state)
    (he : e.deletes = none ∨ h.report.found ≠ []) : Halfway kind run v K seen h w' := by
  refine hh.extend hK (.single hadds trivial) (fun hf => ?_) fun hnone => ?_
  · have hnone : e.deletes = none := he.resolve_right (absurd hf)
    exact .single hadds (by rw [hnone]; exact nofun)
  · exact hsteady (World.Since.of_single hadds hnone)

section Steps

variable (hK : Lasting K) (hh : Halfway kind run v K seen h w)
include hK hh

theorem call {r : Request} (hr : Asks r) (hd : r.deletes = none ∨ h.report.found ≠ []) :
    Halfway kind run v K seen h (w.call r).2 :=
  hh.add hK (World.adds_call ..) (fun hnone => .start hr hnone) hd

theorem answer {r : Request} {n : Nat} {k : B.Ticket} (hr : Asks r)
    (hd : r.deletes = none ∨ h.report.found ≠ []) :
    Halfway kind run v K seen h (w.answer n r k).2 :=
  hh.add hK (World.adds_answer ..) (fun hnone => .answer hr hnone) hd

theorem note {e : Cluster.Entry} : Halfway kind run v K seen h (w.note e) :=
  hh.add hK (World.adds_note ..) (fun _ => .passes (Nat.le_refl _)) (.inl rfl)

theorem meets_call {r : Request} {stop : Signal} {policy : Backoff} (hr : Asks r)
    (hd : r.deletes = none ∨ h.report.found ≠ []) :
    Meets (beside kind) (fun _ => True) (Cluster.call stop policy r) w fun o w' =>
      Halfway kind run v K seen h w' ∧ ∀ a, o = .ok a →
        ∃ w₁ n k, Halfway kind run v K seen h w₁ ∧ w₁.answer n r k = (o, w') := by
  have hcall : Meets (beside kind) (Halfway kind run v K seen h) (Cluster.call stop policy r) w
      fun o w' => Halfway kind run v K seen h w' ∧ ∀ a, o = .ok a →
        ∃ w₁ n k, Halfway kind run v K seen h w₁ ∧ w₁.answer n r k = (o, w') :=
    Cluster.meets_answer (beside_transitive kind) hh (fun _ hh => hh.call hK hr hd)
      fun _ _ _ hh => hh.answer hK hr hd
  exact hcall.within (fun _ _ _ hh hw => hh.rely hK hw) fun _ _ => trivial

end Steps

theorem see (hh : Halfway kind run v K seen h w)
    (hm : h.report.found = [] → Spared run v m w) :
    Halfway kind run v K (seen ++ [m]) h w := by
  refine { hh with fine := fun hf x hx => ?_ }
  rcases List.mem_append.mp hx with hx | hx
  · exact hh.fine hf x hx
  · rw [List.mem_singleton.mp hx]
    exact hm hf

theorem find (hh : Halfway kind run v K seen h w) {h' : HalfSweep}
    (howners : h'.owners = h.owners) (hfound : h'.report.found ≠ []) :
    Halfway kind run v K seen h' w where
  since := hh.since
  spares hf := absurd hf hfound
  kept := hh.kept
  alive := howners ▸ hh.alive
  fine hf := absurd hf hfound

theorem learn (hh : Halfway kind run v K seen h w) {owner : String} {alive : Bool}
    (ha : alive = true → v.PodFound owner w) :
    Halfway kind run v K seen (h.learn owner alive) w := by
  refine { hh with alive := fun name hname => ?_ }
  simp only [HalfSweep.learn, List.lookup_cons] at hname
  split at hname
  · next he =>
    rw [eq_of_beq he]
    exact ha (Option.some.inj hname)
  · exact hh.alive name hname

end Halfway

section Half

variable {kind : Sweepable} {run : Run} {v w : World B} {K : Nat → B.State → Prop}
  {seen : List Metadata} {h : HalfSweep} {m : Metadata} {config : Config} {stop : Signal}

theorem meets_ownerAlive {owner : String} (hK : Lasting K)
    (hh : Halfway kind run v K seen h w) :
    Meets (beside kind) (fun _ => True) (ownerAlive config stop owner h) w fun o w' =>
      ∀ alive h', o = .ok (alive, h') → Halfway kind run v K seen h' w' ∧
        (alive = true → v.PodFound owner w') := by
  unfold ownerAlive
  split
  · next alive hknown =>
    apply Meets.pure
    rintro _ _ ⟨⟩
    refine ⟨hh, ?_⟩
    rintro rfl
    exact hh.alive owner hknown
  · apply (hh.meets_call hK (r := .getPod owner) trivial (.inl rfl)).seq
    intro found w' ⟨hh', hanswer⟩
    cases found with
    | error e => exact .pure nofun
    | ok pod =>
      apply Meets.pure
      rintro _ _ ⟨⟩
      obtain ⟨w₁, n, k, hh₁, hw'⟩ := hanswer pod rfl
      have hfound : pod.isSome = true → v.PodFound owner w' := by
        intro hsome
        obtain ⟨p, rfl⟩ := Option.isSome_iff_exists.mp hsome
        obtain ⟨events, hadds, -⟩ := hh₁.since
        have hadds' := hadds.trans (World.adds_answer w₁ n (Request.getPod owner) k)
        rw [hw'] at hadds'
        exact ⟨_, hadds', w₁.now, n, p, List.mem_append_right _ (List.mem_singleton.mpr rfl)⟩
      exact ⟨hh'.learn hfound, hfound⟩

theorem meets_classify (hK : Lasting K) (hh : Halfway kind run v K seen h w) :
    Meets (beside kind) (fun _ => True) (classify config stop run m h) w fun o w' =>
      ∀ reason h', o = .ok (reason, h') → Halfway kind run v K seen h' w' ∧
        (reason = none → m.IsCurrent run (v.PodFound · w')) := by
  unfold classify
  split
  · apply Meets.pure
    rintro _ _ ⟨⟩
    exact ⟨hh, nofun⟩
  · next owner howner =>
    split
    · next hhost =>
      apply Meets.pure
      rintro _ _ ⟨⟩
      exact ⟨hh, fun _ => Metadata.isCurrent_of_triage howner (.inl hhost)⟩
    · apply (meets_ownerAlive hK hh).seq
      intro found w' hfound
      rcases found with e | ⟨_ | _, h'⟩
      · exact .pure nofun
      · apply Meets.pure
        rintro _ _ ⟨⟩
        exact ⟨(hfound _ _ rfl).1, nofun⟩
      · apply Meets.pure
        rintro _ _ ⟨⟩
        obtain ⟨hh', halive⟩ := hfound _ _ rfl
        exact ⟨hh', fun _ => Metadata.isCurrent_of_triage howner (.inr (halive rfl))⟩

theorem meets_delete {name : String} (hK : Lasting K) (hh : Halfway kind run v K seen h w)
    (hfound : h.report.found ≠ []) :
    Meets (beside kind) (fun _ => True) (kind.delete stop config.apiBackoff name) w
      fun _ w' => Halfway kind run v K seen h w' := by
  cases kind with
  | workload =>
    exact (hh.meets_call hK (r := .deleteWorkload name) trivial (.inr hfound)).mono
      fun _ _ h => h.1
  | pod =>
    exact (hh.meets_call hK (r := .deletePod name) trivial (.inr hfound)).mono fun _ _ h => h.1

theorem meets_remove {name : String} {reason : OrphanReason} (hK : Lasting K)
    (hh : Halfway kind run v K seen h w) :
    Meets (beside kind) (fun _ => True) (remove config stop kind name reason h) w fun o w' =>
      ∀ h', o = .ok h' → Halfway kind run v K seen h' w' ∧ h'.report.found ≠ [] := by
  have hfound : (h.find (kind.path name)).report.found ≠ [] := by simp [HalfSweep.find]
  refine .bind (.note ?_)
  -- the object counts as found before it is deleted, so that the deletion is excused
  have hnoted : Halfway kind run v K seen (h.find (kind.path name))
      (w.note (.orphan (kind.path name) reason.message)) := (hh.note hK).find rfl hfound
  apply (meets_delete hK hnoted hfound).seq
  intro deleted w' hh'
  cases deleted with
  | ok =>
    apply Meets.pure
    rintro _ ⟨⟩
    exact ⟨hh', hfound⟩
  | error e =>
    dsimp only
    split
    · exact .pure nofun
    · apply Meets.pure
      rintro _ ⟨⟩
      exact ⟨hh'.find rfl hfound, hfound⟩

theorem meets_visit (hK : Lasting K) (hh : Halfway kind run v K seen h w) :
    Meets (beside kind) (fun _ => True) (visit config stop run kind m h) w fun o w' =>
      ∀ h', o = .ok h' → Halfway kind run v K (seen ++ [m]) h' w' := by
  unfold visit
  split
  · next hname =>
    apply Meets.pure
    rintro _ ⟨⟩
    exact hh.see fun _ => .inl hname
  · split
    · next hdeleted =>
      apply Meets.pure
      rintro _ ⟨⟩
      exact hh.see fun _ => .inr (.inl hdeleted)
    · apply (meets_classify hK hh).seq
      intro found w' hfound
      rcases found with e | ⟨_ | reason, h'⟩
      · exact .pure nofun
      · apply Meets.pure
        rintro _ ⟨⟩
        obtain ⟨hh', hcurrent⟩ := hfound _ _ rfl
        exact hh'.see fun _ => .inr (.inr (hcurrent rfl))
      · apply (meets_remove hK (hfound _ _ rfl).1).mono
        intro o w'' hremoved h'' ho
        obtain ⟨hh'', hne⟩ := hremoved h'' ho
        exact hh''.see fun hf => absurd hf hne

theorem meets_visitAll {ms : List Metadata} (hK : Lasting K)
    (hh : Halfway kind run v K seen h w) :
    Meets (beside kind) (fun _ => True) (visitAll config stop run kind ms h) w fun o w' =>
      ∀ h', o = .ok h' → Halfway kind run v K (seen ++ ms) h' w' := by
  induction ms generalizing seen h w with
  | nil =>
    apply Meets.pure
    rintro _ ⟨⟩
    rwa [List.append_nil]
  | cons m ms ih =>
    apply (meets_visit hK hh).seq
    intro visited w' hvisited
    cases visited with
    | error e => exact .pure nofun
    | ok h' =>
      apply (ih (hvisited h' rfl)).mono
      intro o w'' hall h'' ho
      simpa using hall h'' ho

end Half

/-! ### Both halves -/

section Both

variable {inv : Inventory B} {ahead : Metadata → Option String → Nat → B.State → Prop}
  {kind : Sweepable} {run : Run} {v w w' : World B} {config : Config} {stop : Signal}

/-- One half has come to its end with this report, and if nothing was deleted then it has seen all
objects of its kind. -/
def Swept (inv : Inventory B) (kind : Sweepable) (run : Run) (v : World B) (report : SweepReport)
    (w : World B) : Prop :=
  ∃ seen h, h.report = report ∧
    Halfway kind run v (fun t s => Steady v.now v.state t s ∧
      ∀ m ∈ inv.objects kind v.now v.state,
        m.isPicked Labels.systemSelector = true → m ∈ seen) seen h w

theorem Swept.rely {report : SweepReport} (h : Swept inv kind run v report w)
    (hw : Rely kind w w') : Swept inv kind run v report w' := by
  obtain ⟨seen, h, hreport, hh⟩ := h
  exact ⟨seen, h, hreport, hh.rely (fun _ _ _ _ hs hK => ⟨hK.1.trans hs, hK.2⟩) hw⟩

theorem meets_pods (hinv : Undisturbed inv ahead) (hw : Rely .pod v w) :
    Meets (beside .pod) (fun _ => True) (pods config stop run) w fun o w' =>
      ∀ report, o = .ok report → Swept inv .pod run v report w' := by
  have hbegin : Halfway .pod run v (Steady v.now v.state) [] .empty w := .begin hw
  have hsteady : Lasting (Steady (B := B) v.now v.state) := fun _ _ _ _ hs hK => hK.trans hs
  apply (hbegin.meets_call hsteady (r := .listPods Labels.systemSelector) rfl (.inl rfl)).seq
  intro listing w' ⟨hh', hanswer⟩
  cases listing with
  | error e => exact .pure nofun
  | ok ps =>
    obtain ⟨w₁, n, k, hh₁, hw'⟩ := hanswer ps rfl
    have hlisted : Halfway .pod run v (fun t s => Steady v.now v.state t s ∧
        ∀ m ∈ inv.objects .pod v.now v.state, m.isPicked Labels.systemSelector = true →
          m ∈ ps.map Pod.metadata) [] .empty w' := by
      refine hh'.weaken fun hnone => ⟨hh'.kept hnone, fun m hm hpicked => ?_⟩
      have hsince : w₁.Since (fun _ => True) w' := by
        have hadds := World.adds_answer w₁ n (Request.listPods Labels.systemSelector) k
        rw [hw'] at hadds
        exact .single hadds trivial
      have hsame : inv.objects .pod w₁.now w₁.state = inv.objects .pod v.now v.state :=
        hinv.same (hh₁.kept (World.Since.split hh₁.since hsince hnone).1)
      exact hinv.podsListed (congrArg Prod.fst hw') m (hsame ▸ hm) hpicked
    apply (meets_visitAll (fun _ _ _ _ hs hK => ⟨hK.1.trans hs, hK.2⟩) hlisted).seq
    intro visited w'' hvisited
    cases visited with
    | error e => exact .pure nofun
    | ok h =>
      apply Meets.pure
      rintro _ ⟨⟩
      exact ⟨_, h, rfl, hvisited h rfl⟩

/-- As long as nothing is deleted, what was not seen is still to be shown. -/
def Owed (inv : Inventory B) (ahead : Metadata → Option String → Nat → B.State → Prop)
    (v : World B) (seen : List Metadata) (next : Option (Option String)) (t : Nat)
    (s : B.State) : Prop :=
  Steady v.now v.state t s ∧ ∀ m ∈ inv.objects .workload v.now v.state,
    m.isPicked Labels.systemSelector = true →
      m ∈ seen ∨ ∃ token, next = some token ∧ ahead m token t s

theorem Owed.lasting (hinv : Undisturbed inv ahead) (seen : List Metadata)
    (next : Option (Option String)) : Lasting (Owed inv ahead v seen next) := by
  intro t s t' s' hs hK
  refine ⟨hK.1.trans hs, fun m hm hpicked => ?_⟩
  rcases hK.2 m hm hpicked with hseen | ⟨token, htoken, ha⟩
  · exact .inl hseen
  · exact .inr ⟨token, htoken, hinv.lasts hs ha⟩

theorem meets_page (hinv : Undisturbed inv ahead) {token : Option String}
    {seen : List Metadata} {h : HalfSweep}
    (hh : Halfway .workload run v (Owed inv ahead v seen (some token)) seen h w) :
    Meets (beside .workload) (fun _ => True)
      (Cluster.call stop config.apiBackoff (.listWorkloads Labels.systemSelector token)) w
      fun o w' => ∀ page : Cluster.Page, o = .ok page →
        Halfway .workload run v (Owed inv ahead v (seen ++ page.items.map Workload.metadata)
          (page.next.map some)) seen h w' := by
  apply (hh.meets_call (Owed.lasting hinv seen _)
    (r := .listWorkloads Labels.systemSelector token) rfl (.inl rfl)).mono
  intro o w' ⟨hh', hanswer⟩ page ho
  obtain ⟨w₁, n, k, hh₁, hw'⟩ := hanswer page ho
  have hadds := World.adds_answer w₁ n (Request.listWorkloads Labels.systemSelector token) k
  rw [hw'] at hadds
  refine hh'.weaken fun hnone => ⟨(hh'.kept hnone).1, fun m hm hpicked => ?_⟩
  have hbefore := (World.Since.split hh₁.since (.single hadds trivial) hnone).1
  rcases (hh₁.kept hbefore).2 m hm hpicked with hseen | ⟨_, ⟨⟩, ha⟩
  · exact .inl (List.mem_append_left _ hseen)
  · rcases hinv.listed ha ((congrArg Prod.fst hw').trans ho) with hpage | ⟨next, hnext, ha'⟩
    · exact .inl (List.mem_append_right _ hpage)
    · refine .inr ⟨some next, by rw [hnext]; rfl, ?_⟩
      have hstate : w'.now = w₁.now ∧ w'.state = _ :=
        ⟨congrArg (fun x => x.2.now) hw'.symm, congrArg (fun x => x.2.state) hw'.symm⟩
      rw [hstate.1, hstate.2]
      exact ha'

theorem meets_workloads (hinv : Undisturbed inv ahead) :
    Meets (beside .workload) (fun _ => True) (workloads config stop run) v fun o w' =>
      ∀ report, o = .ok report → Swept inv .workload run v report w' := by
  apply Meets.iterate fun (s : Option String × HalfSweep) w => ∃ seen,
    Halfway .workload run v (Owed inv ahead v seen (some s.1)) seen s.2 w
  -- between two pages: what was not seen yet is ahead of the token
  · refine ⟨[], (Halfway.begin (.refl v)).weaken fun _ => ⟨.passes (Nat.le_refl _), ?_⟩⟩
    intro m hm hpicked
    exact .inr ⟨none, rfl, hinv.begins hm hpicked⟩
  · intro (token, h) w ⟨seen, hh⟩
    apply (meets_page hinv hh).seq
    intro listing w' hlisting
    cases listing with
    | error e => exact .pure nofun
    | ok page =>
      apply (meets_visitAll (Owed.lasting hinv _ _) (hlisting page rfl)).seq
      intro visited w'' hvisited
      cases visited with
      | error e => exact .pure nofun
      | ok h' =>
        have hh' := hvisited h' rfl
        dsimp only
        split
        · next next hnext =>
          rw [hnext] at hh'
          exact .pure ⟨_, hh'⟩
        · next hnext =>
          rw [hnext] at hh'
          apply Meets.pure
          rintro _ ⟨⟩
          refine ⟨_, h', rfl, hh'.weaken fun hnone => ⟨(hh'.kept hnone).1, ?_⟩⟩
          intro m hm hpicked
          exact ((hh'.kept hnone).2 m hm hpicked).resolve_right nofun

/-- A sweep that finds nothing leaves only what is nameless, being deleted, or current. -/
theorem meets_once (hinv : Undisturbed inv ahead) :
    Meets Lifecycle.passing (fun _ => True) (once config stop run) v fun o w' =>
      ∀ report, o = .ok report → report.isClear = true →
        v.Since (·.deletes = none) w' ∧
        ∀ kind, ∀ m ∈ inv.objects kind w'.now w'.state,
          m.isPicked Labels.systemSelector = true → Spared run v m w' := by
  have hboth : Meets Lifecycle.passing (fun _ => True)
      (Process.both (workloads config stop run) (pods config stop run)) v fun x w' =>
        (∀ report, x.1 = .ok report → Swept inv .workload run v report w') ∧
          ∀ report, x.2 = .ok report → Swept inv .pod run v report w' :=
    Meets.both (Rely.beside .pod .workload (by decide)) (Rely.beside .workload .pod (by decide))
      workloads_uses pods_uses
      (meets_workloads hinv) (fun _ hw => meets_pods hinv hw)
      (fun _ _ _ hP hw report ho => (hP report ho).rely hw)
      (fun _ _ _ hQ hw report ho => (hQ report ho).rely hw)
  apply hboth.seq
  rintro ⟨x, y⟩ w' ⟨hx, hy⟩
  apply Meets.pure
  intro report ho hclear
  rcases x with e | r₁
  · cases ho
  rcases y with e | r₂
  · cases ho
  cases ho
  obtain ⟨seen₁, h₁, rfl, hh₁⟩ := hx r₁ rfl
  obtain ⟨seen₂, h₂, rfl, hh₂⟩ := hy r₂ rfl
  have hfound : h₁.report.found = [] ∧ h₂.report.found = [] := by
    simpa [SweepReport.isClear, SweepReport.append] using hclear
  -- each half deletes nothing of the other kind, and of its own only what it has found
  have hnone : v.Since (·.deletes = none) w' := by
    refine ((hh₁.spares hfound.1).and (hh₂.spares hfound.2)).mono fun e he => ?_
    cases hd : e.deletes with
    | none => rfl
    | some kind =>
      cases kind with
      | workload => exact absurd hd he.1
      | pod => exact absurd hd he.2
  refine ⟨hnone, fun kind m hm hpicked => ?_⟩
  rw [hinv.same (hh₁.kept hnone).1] at hm
  cases kind with
  | workload => exact hh₁.fine hfound.1 m ((hh₁.kept hnone).2 m hm hpicked)
  | pod => exact hh₂.fine hfound.2 m ((hh₂.kept hnone).2 m hm hpicked)

end Both

/-! ### The sweeps before a run -/

theorem once_of_round {config : Config} {stop : Signal} {deadline : Nat} {run : Run}
    {found : List String} {v w : World B}
    (h : Reaches Lifecycle.passing (round config stop deadline run found) v
      (.finished (.inr (.ok ()))) w) :
    ∃ report, Reaches Lifecycle.passing (once config stop run) v (.finished (.ok report)) w ∧
      report.isClear = true := by
  obtain ⟨_, _, honce, ⟨_, hafter, hx, rfl⟩ | ⟨_, how, -, -, hx⟩⟩ := finishes_round_iff.mp h
  · cases hx
    obtain ⟨report, rfl, hclear, -⟩ | ⟨_, -, -, ho⟩ := round.afterSweep_eq_inr_iff.mp hafter
    · exact ⟨report, honce, hclear⟩
    · cases ho
  · cases how <;> cases hx

end Sweep

/-- When the sweeps before a run end well, the last of them has found nothing, and of what can be
swept only what is current is there: what names its creator, which is the run's own process or was
found by that sweep, and the instant of a run that began no earlier. Nothing of an earlier run is
left. -/
theorem current_after_untilClear {inv : Inventory B}
    {ahead : Metadata → Option String → Nat → B.State → Prop} {config : Config} {stop : Signal}
    {deadline : Nat} {run : Run} {w w' : World B} (hinv : Undisturbed inv ahead)
    (h : Reaches Lifecycle.passing (Sweep.untilClear config stop deadline run) w
      (.finished (.ok ())) w') :
    ∃ found v report,
      Rounds Lifecycle.passing (Sweep.round config stop deadline run) [] w found v ∧
      Reaches Lifecycle.passing (Sweep.once config stop run) v (.finished (.ok report)) w' ∧
      report.isClear = true ∧
      ∀ kind, ∀ m ∈ inv.objects kind w'.now w'.state,
        m.name.isSome = true → m.deletionTimestamp = none →
          (m.isPicked Labels.systemSelector = true → m.IsCurrent run (v.PodFound · w')) ∧
          ∀ r : Run, -(Nat.pow 2 63 : Nat) ≤ r.timestamp → r.timestamp < (Nat.pow 2 63 : Nat) →
            r.timestamp < run.timestamp → ¬ m.OfRun r := by
  obtain ⟨found, v, st, hrounds, hround, hend⟩ := h.iterate_cases
  cases hend with
  | finished =>
    obtain ⟨report, honce, hclear⟩ := Sweep.once_of_round hround
    have hspared := ((Sweep.meets_once hinv).of_reaches (fun _ _ _ _ _ => trivial) honce
      report rfl hclear).2
    refine ⟨found, v, report, hrounds, honce, hclear, fun kind m hm hname hdel => ?_⟩
    have hcurrent (hpicked : m.isPicked Labels.systemSelector = true) :
        m.IsCurrent run (v.PodFound · w') := by
      rcases hspared kind m hm hpicked with hnone | hsome | hcurrent
      · simp [hnone] at hname
      · simp [hdel] at hsome
      · exact hcurrent
    exact ⟨hcurrent, fun r hl hu hearlier hr => (hcurrent hr.isPicked).not_ofRun hl hu hearlier hr⟩

/-! ### A cluster that counts what was shown -/

namespace Clearing

structure Stock where
  workloads : List Workload
  pods : List Pod

/-- A cluster with pages of this size. A token is as long as the number of workloads on the pages
before it, so a walk over the pages passes workloads by when others are deleted meanwhile. -/
def counting (size : Nat) : Behaviour Cluster where
  State := Stock
  Ticket := Unit
  start _ _ s := (.zero, (), s)
  answer _ r _ s :=
    match r with
    | .listNodes => (.ok [], s)
    | .listPods selector => (.ok (s.pods.filter (·.metadata.isPicked selector)), s)
    | .listWorkloads selector token =>
      let picked := s.workloads.filter (·.metadata.isPicked selector)
      let shown := (token.getD "").length
      let next := if shown + size < picked.length then
        some (String.ofList (List.replicate (shown + size) '.')) else none
      (.ok ⟨(picked.drop shown).take size, next⟩, s)
    | .createWorkload x => (.ok (), { s with workloads := x :: s.workloads })
    | .deleteWorkload name =>
      (.ok (), { s with workloads := s.workloads.filter (·.metadata.name ≠ some name) })
    | .deletePods selector =>
      (.ok (), { s with pods := s.pods.filter fun p => !p.metadata.isPicked selector })
    | .deletePod name => (.ok (), { s with pods := s.pods.filter (·.metadata.name ≠ some name) })
    | .getPod name => (.ok (s.pods.find? (·.metadata.name = some name)), s)
    | .getWorkload name => (.ok (s.workloads.find? (·.metadata.name = some name)), s)

variable {size : Nat}

def inventory (size : Nat) : Inventory (counting size) where
  workloads _ s := s.workloads
  pods _ s := s.pods

/-- The workload is among those that were not counted yet. -/
def ahead (m : Metadata) (token : Option String) (_ : Nat) (s : (counting size).State) : Prop :=
  ∃ x ∈ (s.workloads.filter (·.metadata.isPicked Labels.systemSelector)).drop
    (token.getD "").length, x.metadata = m

theorem eq_of_steady {t t' : Nat} {s s' : (counting size).State} (h : Steady t s t' s') :
    s' = s := by
  induction h with
  | passes | start => rfl
  | @answer _ _ r _ hr hdeletes =>
    cases r with
    | deleteWorkload | deletePod => cases hdeletes
    | createWorkload | deletePods => exact hr.elim
    | listNodes | listPods | listWorkloads | getPod | getWorkload => rfl
  | trans _ _ ih₁ ih₂ => exact ih₂.trans ih₁

theorem counting_undisturbed (size : Nat) : Undisturbed (inventory size) ahead where
  same h := by
    rw [eq_of_steady h]
    rfl
  podsListed := by
    rintro t k s pods ⟨⟩ m hm hpicked
    obtain ⟨p, hp, rfl⟩ := List.mem_map.mp hm
    exact List.mem_map_of_mem (List.mem_filter.mpr ⟨hp, hpicked⟩)
  begins := by
    intro t s m hm hpicked
    obtain ⟨x, hx, rfl⟩ := List.mem_map.mp hm
    exact ⟨x, List.mem_filter.mpr ⟨hx, hpicked⟩, rfl⟩
  lasts h ha := by
    rw [eq_of_steady h]
    exact ha
  listed := by
    rintro t k s _ token page ⟨x, hx, rfl⟩ ⟨⟩
    rw [← List.take_append_drop size (List.drop ..)] at hx
    rcases List.mem_append.mp hx with hx | hx
    · exact .inl (List.mem_map_of_mem hx)
    · rw [List.drop_drop] at hx
      have hlength := List.length_pos_of_mem hx
      rw [List.length_drop] at hlength
      refine .inr ⟨_, if_pos (by omega), x, ?_, rfl⟩
      change x ∈ (s.workloads.filter (·.metadata.isPicked Labels.systemSelector)).drop _
      simpa using hx

def probe : Run :=
  ⟨"daemonset", "probe", 5⟩

def left (r : Run) : Workload :=
  ⟨{ name := some r.workloadName, labels := some (Labels.ofRun r) }, none⟩

def recent : Workload :=
  left ⟨"daemonset", "peer", 9⟩

def crowded : World (counting 1) :=
  .initial ⟨[left ⟨"daemonset", "first", 1⟩, left ⟨"daemonset", "second", 2⟩, recent],
    [⟨{ name := some "peer" }, none, none⟩]⟩

def leaves {size : Nat} (l : List Workload) :
    Status (counting size) (Except CheckError Unit) × World (counting size) → Bool
  | (.finished (.ok ()), w) => decide (w.state.workloads = l)
  | _ => false

theorem eq_of_leaves {size : Nat} {l : List Workload}
    {x : Status (counting size) (Except CheckError Unit) × World (counting size)}
    (h : leaves l x = true) :
    ∃ w, x = (.finished (.ok ()), w) ∧ w.state.workloads = l := by
  unfold leaves at h
  split at h
  · exact ⟨_, rfl, of_decide_eq_true h⟩
  · cases h

end Clearing

/-- The theorem for sweeps that delete while they walk over the pages: the first one passes a
leftover by, the second one finds it, and the third one finds nothing. -/
theorem current_after_untilClear_crowded : ∃ w' : World (Clearing.counting 1),
    Undisturbed (Clearing.inventory 1) Clearing.ahead ∧
    Reaches Lifecycle.passing (Sweep.untilClear .standard .run 60000000000 Clearing.probe)
      Clearing.crowded (.finished (.ok ())) w' ∧
    w'.state.workloads = [Clearing.recent] ∧ ∃ v report,
      Reaches Lifecycle.passing (Sweep.once .standard .run Clearing.probe) v
        (.finished (.ok report)) w' ∧
      Clearing.recent.metadata.IsCurrent Clearing.probe (v.PodFound · w') := by
  obtain ⟨w', hr, hleft⟩ := Clearing.eq_of_leaves (l := [Clearing.recent])
    (x := (Suspended.ready (Sweep.untilClear .standard .run 60000000000
      Clearing.probe)).runUntil 400 none 40 Clearing.crowded) (by decide +kernel)
  have hreaches : Reaches Lifecycle.passing
      (Sweep.untilClear .standard .run 60000000000 Clearing.probe) Clearing.crowded
      (.finished (.ok ())) w' := by
    rcases Process.Awaits.ready.runUntil_cases
      (fun t w => World.Passes.advance w t) hr with hst | ⟨hst, -⟩ | ⟨hreaches, -⟩
    · cases hst
    · cases hst
    · exact hreaches
  have hundisturbed := Clearing.counting_undisturbed 1
  obtain ⟨_, v, report, -, honce, -, hcurrent⟩ :=
    current_after_untilClear hundisturbed hreaches
  have hrecent : Clearing.recent.metadata ∈
      (Clearing.inventory 1).objects .workload w'.now w'.state := by
    change _ ∈ w'.state.workloads.map Workload.metadata
    simp [hleft]
  exact ⟨w', hundisturbed, hreaches, hleft, v, report, honce,
    (hcurrent .workload _ hrecent rfl rfl).1 (by decide +kernel)⟩

end NodeCoverage
