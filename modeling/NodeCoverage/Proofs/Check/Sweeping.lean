import Mathlib.Data.List.Nodup
import NodeCoverage.Proofs.Check.Footprint
import NodeCoverage.Proofs.Cluster.Made
import NodeCoverage.Proofs.Process.Beside
import NodeCoverage.Proofs.Process.Trace
import NodeCoverage.Proofs.Process.Yields
/-!
# What a sweep deletes

A half of a sweep that comes to a good end has deleted exactly the orphans among what it listed, in
the order of the listing, and each creating process that it had to ask for it has looked up once.
What is an orphan is said here of the labels and of the lookups, without the sweep. Neither half
cares how the other one ends.
-/

namespace NodeCoverage

/-- The value of a label, empty if it is missing. -/
def Metadata.labelValue (m : Metadata) (key : String) : String :=
  (m.labels.bind (·[key]?)).getD ""

namespace Sweep

open Process (Finishes Reaches Rounds Yields)
open Cluster (Calls Made)

instance decidableBefore {ε : Type} {x : Except ε Int} {current : Int} :
    Decidable (∀ t, x = .ok t → t < current) :=
  match x with
  | .ok t => decidable_of_iff (t < current) (by simp)
  | .error _ => .isTrue nofun

/-- The labels do not say who created the object, or not that it was in a current run: the second at
which that run began is missing, or empty, or not a number of 64 bits, or before the current one. -/
def Unclaimed (run : Run) (m : Metadata) : Prop :=
  m.labelValue Labels.instanceKey = "" ∨ m.labelValue Labels.runTimeKey = "" ∨
    ∀ t, Text.readInt64 (m.labelValue Labels.runTimeKey) = .ok t → t < run.timestamp

/-- The object is unclaimed, or it was created by another process that is gone. -/
def Orphaned (run : Run) (gone : List String) (m : Metadata) : Prop :=
  Unclaimed run m ∨ (m.labelValue Labels.instanceKey ≠ run.host ∧
    m.labelValue Labels.instanceKey ∈ gone)

/-- The object has a name, is not being deleted, and is an orphan. -/
def Due (run : Run) (gone : List String) (m : Metadata) : Prop :=
  m.name.isSome ∧ m.deletionTimestamp.isNone ∧ Orphaned run gone m

/-- To know what to do with the object, its creating process must be looked up. -/
def Questions (run : Run) (m : Metadata) (owner : String) : Prop :=
  m.name.isSome ∧ m.deletionTimestamp.isNone ∧ ¬ Unclaimed run m ∧
    m.labelValue Labels.instanceKey = owner ∧ owner ≠ run.host

instance (run : Run) (m : Metadata) : Decidable (Unclaimed run m) :=
  inferInstanceAs (Decidable (_ ∨ _ ∨ ∀ _, _))

instance (run : Run) (gone : List String) : DecidablePred (Due run gone) :=
  fun _ => inferInstanceAs (Decidable (_ ∧ _ ∧ (_ ∨ _)))

/-! ### What the calls of a half show -/

/-- A deletion of one object of this kind, and what came of it. -/
def removal? : Sweepable → Made → Option (String × Except CheckError Unit)
  | .workload, ⟨.deleteWorkload name, x⟩ => some (name, x)
  | .pod, ⟨.deletePod name, x⟩ => some (name, x)
  | _, _ => none

def removals (kind : Sweepable) (made : List Made) : List (String × Except CheckError Unit) :=
  made.filterMap (removal? kind)

def lookups (made : List Made) : List (String × Option Pod) :=
  made.filterMap Made.lookup?

/-- Those who were looked up and not found. -/
def gone (made : List Made) : List String :=
  (lookups made).filterMap fun l => if l.2.isNone then some l.1 else none

/-- All but the last of these pages name a next one. -/
def Complete : List Cluster.Page → Prop
  | [] => False
  | [page] => page.next = none
  | page :: pages => page.next.isSome ∧ Complete pages

/-- The calls with which these pages were listed, each from where the page before it ended. -/
def pageCalls : Option String → List Cluster.Page → List Made
  | _, [] => []
  | token, page :: pages =>
    ⟨.listWorkloads Labels.systemSelector token, .ok page⟩ :: pageCalls page.next pages

/-- The listings among the calls were complete and have shown these objects. -/
def Listed (made : List Made) (entries : List Metadata) : Sweepable → Prop
  | .workload => ∃ pages, Complete pages ∧
      made.filter (·.request.isListing) = pageCalls none pages ∧
      entries = pages.flatMap fun page => page.items.map Workload.metadata
  | .pod => ∃ pods : List Pod,
      made.filter (·.request.isListing) = [⟨.listPods Labels.systemSelector, .ok pods⟩] ∧
      entries = pods.map Pod.metadata

/-- What a half has done that gives this report. -/
structure Purged (run : Run) (kind : Sweepable) (made : List Made) (entries : List Metadata)
    (report : SweepReport) : Prop where
  /-- It has listed all there is, deleted and looked up, and nothing else. -/
  asks : ∀ m ∈ made, HalfAsks kind m.request
  listed : Listed made entries kind
  /-- Each object that was due was to be deleted once, in the order of the listing. -/
  removed : (removals kind made).map Prod.fst =
    (entries.filter (Due run (gone made))).filterMap Metadata.name
  found : report.found =
    ((entries.filter (Due run (gone made))).filterMap Metadata.name).map kind.path
  failed : report.failed =
    ((removals kind made).filter fun r => !r.2.isOk).map fun r => kind.path r.1
  /-- Nobody was looked up twice, and only those who had to be. -/
  once : ((lookups made).map Prod.fst).Nodup
  asked : ∀ owner, owner ∈ (lookups made).map Prod.fst ↔ ∃ m ∈ entries, Questions run m owner

/-- What a half has done that ends with this error: the call that failed with it was the last, and
was no deletion unless that was cancelled. -/
def Broken (made : List Made) (e : CheckError) : Prop :=
  ∃ before m, made = before ++ [m] ∧ m.error? = some e ∧
    (m.request.deletes ≠ none → e.isCancelled = true)

/-- What a half has done when it ends like this. -/
def Sweeps (run : Run) (kind : Sweepable) (made : List Made) :
    Except CheckError SweepReport → Prop
  | .ok report => ∃ entries, Purged run kind made entries report
  | .error e => Broken made e

def half (config : Config) (stop : Signal) (run : Run) :
    Sweepable → Process Cluster (Except CheckError SweepReport)
  | .workload => workloads config stop run
  | .pod => pods config stop run

/-! ### What the labels say -/

section Labels

variable {run : Run} {m : Metadata}

theorem label?_eq (m : Metadata) (key : String) :
    m.label? key = if m.labelValue key = "" then none else some (m.labelValue key) := by
  unfold Metadata.label? Metadata.labelValue
  cases m.labels.bind (·[key]?) with
  | none => rfl
  | some v =>
    by_cases hv : v = ""
    · subst hv
      rfl
    · simp [Option.filter, hv]

theorem triage_cases (run : Run) (m : Metadata) :
    (∃ reason, Triage.ofMetadata m run.timestamp = .orphan reason ∧ Unclaimed run m) ∨
      Triage.ofMetadata m run.timestamp = .checkOwner (m.labelValue Labels.instanceKey) ∧
        ¬ Unclaimed run m := by
  unfold Triage.ofMetadata Unclaimed
  simp only [label?_eq]
  by_cases howner : m.labelValue Labels.instanceKey = ""
  · simp [howner]
  by_cases htime : m.labelValue Labels.runTimeKey = ""
  · simp [howner, htime]
  simp only [howner, htime, if_false, false_or]
  cases hread : Text.readInt64 (m.labelValue Labels.runTimeKey) with
  | error e => simp
  | ok t => by_cases ht : t < run.timestamp <;> simp [ht]

end Labels

/-! ### Lookups -/

/-- The owners that are kept in mind are those that were looked up by these calls, and those from
before. Nobody is there twice. -/
structure Learns (needs : String → Prop) (h : HalfSweep) (made : List Made) (h' : HalfSweep) :
    Prop where
  owners : h'.owners = ((lookups made).map fun l => (l.1, l.2.isSome)).reverse ++ h.owners
  fresh : (h.owners.map Prod.fst).Nodup → (h'.owners.map Prod.fst).Nodup
  asked : ∀ owner, owner ∈ h'.owners.map Prod.fst ↔ owner ∈ h.owners.map Prod.fst ∨ needs owner

/-- Those who are gone are the ones of these owners that do not exist. -/
def Settled (gone : List String) (owners : List (String × Bool)) : Prop :=
  ∀ owner alive, (owner, alive) ∈ owners → (owner ∈ gone ↔ alive = false)

section Lookups

variable {needs needs' : String → Prop} {h h' h'' : HalfSweep} {made made' : List Made}

theorem lookups_append : lookups (made ++ made') = lookups made ++ lookups made' :=
  List.filterMap_append ..

theorem Learns.nothing (hmade : lookups made = []) (howners : h'.owners = h.owners) :
    Learns (fun _ => False) h made h' := by
  constructor <;> simp [hmade, howners]

theorem Learns.trans (h₁ : Learns needs h made h') (h₂ : Learns needs' h' made' h'') :
    Learns (fun owner => needs owner ∨ needs' owner) h (made ++ made') h'' where
  owners := by simp [h₂.owners, h₁.owners, lookups_append]
  fresh hfresh := h₂.fresh (h₁.fresh hfresh)
  asked owner := by rw [h₂.asked, h₁.asked, or_assoc]

theorem Learns.congr (h₁ : Learns needs h made h') (hneeds : ∀ owner, needs owner ↔ needs' owner) :
    Learns needs' h made h' :=
  ⟨h₁.owners, h₁.fresh, fun owner => by rw [h₁.asked, hneeds]⟩

theorem Learns.settled {gone : List String} (h₁ : Learns needs h made h')
    (hsettled : Settled gone h'.owners) : Settled gone h.owners := by
  intro owner alive howner
  apply hsettled
  rw [h₁.owners]
  exact List.mem_append_right _ howner

theorem Learns.settled_gone (h₁ : Learns needs .empty made h) : Settled (gone made) h.owners := by
  have hnodup : (h.owners.map Prod.fst).Nodup := h₁.fresh List.nodup_nil
  have howners : h.owners = ((lookups made).map fun l => (l.1, l.2.isSome)).reverse := by
    simpa [HalfSweep.empty] using h₁.owners
  intro _ _ howner
  rw [howners, List.mem_reverse, List.mem_map] at howner
  obtain ⟨⟨owner, found⟩, hmem, heq⟩ := howner
  cases heq
  constructor
  · intro hgone
    obtain ⟨⟨_, found'⟩, hmem', heq'⟩ := List.mem_filterMap.mp hgone
    -- a second lookup of the same owner would be the same lookup
    have hsame : (owner, found) = (owner, found') := by
      refine List.inj_on_of_nodup_map (f := Prod.fst) ?_ hmem ?_ rfl
      · simpa [howners, List.map_reverse, Function.comp_def] using hnodup
      · cases found' <;> simp_all
    cases hsame
    cases found <;> simp_all
  · intro hfound
    exact List.mem_filterMap.mpr ⟨_, hmem, by cases found <;> simp_all⟩

end Lookups

/-! ### One object -/

section Steps

variable {B : Behaviour Cluster} {E : Surroundings B} {config : Config} {stop : Signal} {run : Run}
  {kind : Sweepable} {w w' : World B} {h : HalfSweep} {m : Metadata} {ms : List Metadata}

theorem ownerAlive_cases {owner : String} {x : Except CheckError (Bool × HalfSweep)}
    (hx : Finishes E (ownerAlive config stop owner h) w x w') :
    (∃ alive, (owner, alive) ∈ h.owners ∧ x = .ok (alive, h) ∧ w' = w) ∨
      owner ∉ h.owners.map Prod.fst ∧ ∃ found,
        Finishes E (Cluster.call stop config.apiBackoff (.getPod owner)) w found w' ∧
        x = found.map fun pod => (pod.isSome, h.learn owner pod.isSome) := by
  unfold ownerAlive at hx
  split at hx
  · next alive hlookup =>
    obtain ⟨rfl, rfl⟩ := Finishes.pure_iff.mp hx
    obtain ⟨before, after, howners, -⟩ := List.lookup_eq_some_iff.mp hlookup
    exact .inl ⟨alive, by simp [howners], rfl, rfl⟩
  · next hlookup =>
    have hnew : owner ∉ h.owners.map Prod.fst := by
      intro hmem
      obtain ⟨l, hl, rfl⟩ := List.mem_map.mp hmem
      simpa using List.lookup_eq_none_iff.mp hlookup l hl
    refine .inr ⟨hnew, ?_⟩
    obtain ⟨found, w₁, hcall, hx⟩ := Finishes.bind_iff.mp hx
    refine ⟨found, ?_⟩
    cases found <;> · obtain ⟨rfl, rfl⟩ := Finishes.pure_iff.mp hx; exact ⟨hcall, rfl⟩

theorem Broken.single {r : Cluster.Request} {e : CheckError} (hr : r.deletes = none) :
    Broken [⟨r, .error e⟩] e :=
  ⟨[], _, rfl, rfl, absurd hr⟩

theorem Broken.append {made made' : List Made} {e : CheckError} (h : Broken made' e) :
    Broken (made ++ made') e := by
  obtain ⟨before, c, rfl, hc⟩ := h
  exact ⟨made ++ before, c, by simp, hc⟩

def IsLookup (c : Made) : Prop :=
  ∃ owner, c.request = .getPod owner

/-- What is found out about one object, and the lookup that it took. -/
structure Judged (run : Run) (m : Metadata) (h : HalfSweep) (made : List Made) (orphan : Bool)
    (h' : HalfSweep) : Prop where
  asks : ∀ c ∈ made, IsLookup c
  learns : Learns (fun owner => ¬ Unclaimed run m ∧ m.labelValue Labels.instanceKey = owner ∧
    owner ≠ run.host) h made h'
  report : h'.report = h.report
  orphan_iff : ∀ gone, Settled gone h'.owners → (orphan = true ↔ Orphaned run gone m)

theorem Judged.atOnce {orphan : Bool} (hlearns : ¬ Unclaimed run m →
    m.labelValue Labels.instanceKey = run.host ∨
      m.labelValue Labels.instanceKey ∈ h.owners.map Prod.fst)
    (horphan : ∀ gone, Settled gone h.owners → (orphan = true ↔ Orphaned run gone m)) :
    Judged run m h [] orphan h where
  asks := by simp
  learns := by
    refine ⟨by simp [lookups], id, fun owner => ?_⟩
    constructor
    · exact .inl
    · rintro (howner | ⟨hclaimed, rfl, hhost⟩)
      · exact howner
      · exact (hlearns hclaimed).resolve_left hhost
  report := rfl
  orphan_iff := horphan

theorem Judged.lookedUp (pod : Option Pod) (hclaimed : ¬ Unclaimed run m)
    (hhost : m.labelValue Labels.instanceKey ≠ run.host)
    (hnew : m.labelValue Labels.instanceKey ∉ h.owners.map Prod.fst) :
    Judged run m h [⟨.getPod (m.labelValue Labels.instanceKey), .ok pod⟩] pod.isNone
      (h.learn (m.labelValue Labels.instanceKey) pod.isSome) where
  asks := by simp [IsLookup]
  learns := by
    refine ⟨rfl, fun hfresh => List.nodup_cons.mpr ⟨hnew, hfresh⟩, fun owner => ?_⟩
    simp only [HalfSweep.learn, List.map_cons, List.mem_cons]
    constructor
    · rintro (rfl | howner)
      · exact .inr ⟨hclaimed, rfl, hhost⟩
      · exact .inl howner
    · rintro (howner | ⟨-, rfl, -⟩)
      · exact .inr howner
      · exact .inl rfl
  report := rfl
  orphan_iff gone hsettled := by
    have hgone := hsettled _ _ (List.mem_cons_self ..)
    cases pod <;> simp_all [Orphaned]

/-- What comes of finding out about one object. -/
def Judges (run : Run) (m : Metadata) (h : HalfSweep) (made : List Made) :
    Except CheckError (Option OrphanReason × HalfSweep) → Prop
  | .ok (reason, h') => Judged run m h made reason.isSome h'
  | .error e => (∀ c ∈ made, IsLookup c) ∧ Broken made e

theorem classify_calls {x : Except CheckError (Option OrphanReason × HalfSweep)}
    (hx : Finishes E (classify config stop run m h) w x w') :
    ∃ made, Calls E stop config.apiBackoff w made w' ∧ Judges run m h made x := by
  unfold classify at hx
  rcases triage_cases run m with ⟨reason, htriage, hunclaimed⟩ | ⟨htriage, hclaimed⟩
  · simp only [htriage, Finishes.pure_iff] at hx
    obtain ⟨rfl, rfl⟩ := hx
    refine ⟨[], .none, .atOnce (absurd hunclaimed) fun gone _ => ?_⟩
    simp [Orphaned, hunclaimed]
  simp only [htriage] at hx
  split at hx
  · next hhost =>
    obtain ⟨rfl, rfl⟩ := Finishes.pure_iff.mp hx
    refine ⟨[], .none, .atOnce (fun _ => .inl hhost) fun gone _ => ?_⟩
    simp [Orphaned, hclaimed, hhost]
  · next hhost =>
    obtain ⟨found, w₁, halive, hx⟩ := Finishes.bind_iff.mp hx
    rcases ownerAlive_cases halive with ⟨alive, hmem, rfl, rfl⟩ | ⟨hnew, found, hcall, rfl⟩
    · have hend : w' = w₁ ∧ x = .ok (if alive then none else
          some (.ownerGone (m.labelValue Labels.instanceKey)), h) := by
        cases alive <;> · obtain ⟨rfl, rfl⟩ := Finishes.pure_iff.mp hx; exact ⟨rfl, rfl⟩
      obtain ⟨rfl, rfl⟩ := hend
      refine ⟨[], .none, .atOnce (fun _ => .inr (List.mem_map_of_mem hmem)) fun gone hsettled => ?_⟩
      have hgone := hsettled _ _ hmem
      cases alive <;> simp_all [Orphaned]
    · cases found with
      | error e =>
        obtain ⟨rfl, rfl⟩ := Finishes.pure_iff.mp hx
        exact ⟨_, .single hcall, by simp [IsLookup], .single rfl⟩
      | ok pod =>
        have hend : w' = w₁ ∧ x = .ok (if pod.isSome then none else
            some (.ownerGone (m.labelValue Labels.instanceKey)),
            h.learn (m.labelValue Labels.instanceKey) pod.isSome) := by
          cases pod <;> · obtain ⟨rfl, rfl⟩ := Finishes.pure_iff.mp hx; exact ⟨rfl, rfl⟩
        obtain ⟨rfl, rfl⟩ := hend
        refine ⟨_, .single hcall, ?_⟩
        have hjudged := Judged.lookedUp pod hclaimed hhost hnew
        cases pod <;> exact hjudged

theorem remove_calls {name : String} {reason : OrphanReason} {x : Except CheckError HalfSweep}
    (hx : Finishes E (remove config stop kind name reason h) w x w') :
    ∃ c deleted, Calls E stop config.apiBackoff w [c] w' ∧
      removal? kind c = some (name, deleted) ∧
      ((deleted = .ok () ∧ x = .ok (h.find (kind.path name))) ∨
        ∃ e, deleted = .error e ∧ ((e.isCancelled = false ∧
            x = .ok ((h.find (kind.path name)).fail (kind.path name))) ∨
          e.isCancelled = true ∧ x = .error e ∧ c.error? = some e)) := by
  obtain ⟨⟨⟩, w₁, hnote, hx⟩ := Finishes.bind_iff.mp hx
  obtain rfl := Finishes.note_iff.mp hnote
  obtain ⟨deleted, w₂, hdelete, hx⟩ := Finishes.bind_iff.mp hx
  have hcall : ∃ c, Calls E stop config.apiBackoff w [c] w₂ ∧
      removal? kind c = some (name, deleted) ∧ ∀ e, deleted = .error e → c.error? = some e := by
    cases kind with
    | workload => exact ⟨⟨.deleteWorkload name, deleted⟩, (Calls.none.note _).call hdelete, rfl,
        fun e he => by rw [he]; rfl⟩
    | pod => exact ⟨⟨.deletePod name, deleted⟩, (Calls.none.note _).call hdelete, rfl,
        fun e he => by rw [he]; rfl⟩
  obtain ⟨c, hcalls, hremoval, herror⟩ := hcall
  refine ⟨c, deleted, ?_⟩
  rcases deleted with e | ⟨⟨⟩⟩
  · dsimp only at hx
    split at hx
    · next hcancelled =>
      obtain ⟨rfl, rfl⟩ := Finishes.pure_iff.mp hx
      exact ⟨hcalls, hremoval, .inr ⟨e, rfl, .inr ⟨hcancelled, rfl, herror e rfl⟩⟩⟩
    · next hcancelled =>
      obtain ⟨rfl, rfl⟩ := Finishes.pure_iff.mp hx
      exact ⟨hcalls, hremoval, .inr ⟨e, rfl, .inl ⟨eq_false_of_ne_true hcancelled, rfl⟩⟩⟩
  · obtain ⟨rfl, rfl⟩ := Finishes.pure_iff.mp hx
    exact ⟨hcalls, hremoval, .inl ⟨rfl, rfl⟩⟩

/-- What is made of some objects, and the calls that it took. -/
structure Visited (run : Run) (kind : Sweepable) (h : HalfSweep) (ms : List Metadata)
    (made : List Made) (h' : HalfSweep) : Prop where
  asks : ∀ c ∈ made, HalfAsks kind c.request
  learns : Learns (fun owner => ∃ m ∈ ms, Questions run m owner) h made h'
  removed : ∀ gone, Settled gone h'.owners →
    (removals kind made).map Prod.fst = (ms.filter (Due run gone)).filterMap Metadata.name
  found : h'.report.found = h.report.found ++ ((removals kind made).map Prod.fst).map kind.path
  failed : h'.report.failed = h.report.failed ++
    ((removals kind made).filter fun r => !r.2.isOk).map fun r => kind.path r.1

theorem removals_append {made made' : List Made} :
    removals kind (made ++ made') = removals kind made ++ removals kind made' :=
  List.filterMap_append ..

theorem removals_eq_nil {made : List Made} (h : ∀ c ∈ made, IsLookup c) :
    removals kind made = [] := by
  refine List.filterMap_eq_nil_iff.mpr fun ⟨r, x⟩ hc => ?_
  obtain ⟨owner, rfl⟩ := h _ hc
  cases kind <;> rfl

theorem asks_of_removal? {c : Made} {r : String × Except CheckError Unit}
    (h : removal? kind c = some r) : Asks c.request ∧ c.request.deletes = some kind := by
  obtain ⟨request, x⟩ := c
  cases kind <;> cases request <;> first | exact ⟨trivial, rfl⟩ | cases h

theorem isListing_eq_of_removal? {c : Made} {r : String × Except CheckError Unit}
    (h : removal? kind c = some r) : c.request.isListing = false := by
  obtain ⟨request, x⟩ := c
  cases kind <;> cases request <;> first | rfl | cases h

theorem lookup?_eq_none {c : Made} (h : c.request.deletes = some kind) : c.lookup? = none := by
  obtain ⟨r, x⟩ := c
  cases r with
  | getPod => cases h
  | _ => rfl

namespace Visited

theorem nil : Visited run kind h [] [] h := by
  refine ⟨by simp, (Learns.nothing rfl rfl).congr ?_, fun _ _ => rfl, ?_, ?_⟩ <;> simp [removals]

theorem trans {h₁ h₂ : HalfSweep} {ms' : List Metadata} {made made' : List Made}
    (hfirst : Visited run kind h ms made h₁) (hnext : Visited run kind h₁ ms' made' h₂) :
    Visited run kind h (ms ++ ms') (made ++ made') h₂ where
  asks c hc := (List.mem_append.mp hc).elim (hfirst.asks c) (hnext.asks c)
  learns := (hfirst.learns.trans hnext.learns).congr fun owner => by
    simp [or_and_right, exists_or]
  removed gone hsettled := by
    rw [removals_append, List.map_append, hfirst.removed gone (hnext.learns.settled hsettled),
      hnext.removed gone hsettled, List.filter_append, List.filterMap_append]
  found := by simp [hnext.found, hfirst.found, removals_append]
  failed := by simp [hnext.failed, hfirst.failed, removals_append]

theorem listing {c : Made} {h' : HalfSweep} {made : List Made}
    (hvisited : Visited run kind h ms made h') (hasks : HalfAsks kind c.request)
    (hlisting : c.request.isListing = true) : Visited run kind h ms (c :: made) h' := by
  obtain ⟨r, x⟩ := c
  have hlookups : lookups (⟨r, x⟩ :: made) = lookups made := by
    cases r <;> first | rfl | cases hlisting
  have hremovals : removals kind (⟨r, x⟩ :: made) = removals kind made := by
    cases r <;> cases kind <;> first | rfl | cases hlisting
  refine ⟨List.forall_mem_cons.mpr ⟨hasks, hvisited.asks⟩, ⟨?_, hvisited.learns.fresh,
    hvisited.learns.asked⟩, fun gone hsettled => ?_, ?_, ?_⟩
  · rw [hlookups, hvisited.learns.owners]
  · rw [hremovals, hvisited.removed gone hsettled]
  · rw [hremovals, hvisited.found]
  · rw [hremovals, hvisited.failed]

theorem passedOver (hm : m.name = none ∨ m.deletionTimestamp.isSome = true) :
    Visited run kind h [m] [] h := by
  have hdue : ∀ gone, ¬ Due run gone m := by
    rintro gone ⟨hname, hdeleting, -⟩
    rcases hm with hm | hm <;> simp_all
  have hquestions : ∀ owner, ¬ Questions run m owner := by
    rintro owner ⟨hname, hdeleting, -⟩
    rcases hm with hm | hm <;> simp_all
  refine ⟨by simp, (Learns.nothing rfl rfl).congr ?_, fun gone _ => ?_, ?_, ?_⟩
  · simp [hquestions]
  · simp [removals, hdue]
  all_goals simp [removals]

variable {h₁ h' : HalfSweep} {made : List Made}

private theorem learns_of_judged {orphan : Bool} (hname : m.name.isSome = true)
    (hdeleting : m.deletionTimestamp.isNone = true) (hjudged : Judged run m h made orphan h₁) :
    Learns (fun owner => ∃ m' ∈ [m], Questions run m' owner) h made h₁ :=
  hjudged.learns.congr fun owner => by
    simp only [List.mem_singleton, exists_eq_left, Questions, hname, hdeleting, true_and]

private theorem asks_of_judged {orphan : Bool} (hjudged : Judged run m h made orphan h₁) :
    ∀ c ∈ made, HalfAsks kind c.request := by
  intro c hc
  obtain ⟨owner, howner⟩ := hjudged.asks c hc
  rw [howner]
  exact .of_none trivial rfl

theorem spared (hname : m.name.isSome = true) (hdeleting : m.deletionTimestamp.isNone = true)
    (hjudged : Judged run m h made false h₁) : Visited run kind h [m] made h₁ where
  asks := asks_of_judged hjudged
  learns := learns_of_judged hname hdeleting hjudged
  removed gone hsettled := by
    have horphan : ¬ Orphaned run gone m := fun h => by
      simpa using (hjudged.orphan_iff gone hsettled).mpr h
    simp [removals_eq_nil hjudged.asks, Due, horphan]
  found := by simp [removals_eq_nil hjudged.asks, hjudged.report]
  failed := by simp [removals_eq_nil hjudged.asks, hjudged.report]

theorem withRemoval {name : String} {c : Made} {deleted : Except CheckError Unit}
    (hname : m.name = some name) (hdeleting : m.deletionTimestamp.isNone = true)
    (hjudged : Judged run m h made true h₁) (hc : removal? kind c = some (name, deleted))
    (howners : h'.owners = h₁.owners)
    (hfound : h'.report.found = h₁.report.found ++ [kind.path name])
    (hfailed : h'.report.failed =
      h₁.report.failed ++ if deleted.isOk then [] else [kind.path name]) :
    Visited run kind h [m] (made ++ [c]) h' := by
  obtain ⟨hasks, hdeletes⟩ := asks_of_removal? hc
  have hsome : m.name.isSome = true := by simp [hname]
  have hremovals : removals kind (made ++ [c]) = [(name, deleted)] := by
    rw [removals_append, removals_eq_nil hjudged.asks]
    simp [removals, hc]
  constructor
  · intro c' hc'
    rcases List.mem_append.mp hc' with hc' | hc'
    · exact asks_of_judged hjudged c' hc'
    · obtain rfl := List.mem_singleton.mp hc'
      exact ⟨hasks, .inr hdeletes⟩
  · have hlearns := learns_of_judged hsome hdeleting hjudged
    refine ⟨?_, howners ▸ hlearns.fresh, howners ▸ hlearns.asked⟩
    rw [howners, hlearns.owners, lookups_append]
    simp [lookups, lookup?_eq_none hdeletes]
  · intro gone hsettled
    have horphan : Orphaned run gone m := (hjudged.orphan_iff gone (howners ▸ hsettled)).mp rfl
    have hdue : Due run gone m := ⟨hsome, hdeleting, horphan⟩
    simp [hremovals, hdue, hname]
  · simp [hremovals, hfound, hjudged.report]
  · rw [hremovals, hfailed, hjudged.report]
    cases deleted <;> rfl

end Visited

theorem IsLookup.isListing_eq {c : Made} (h : IsLookup c) : c.request.isListing = false := by
  obtain ⟨owner, howner⟩ := h
  rw [howner]
  rfl

/-- What comes of some objects one after the other. None of the calls is a listing. -/
def Visits (run : Run) (kind : Sweepable) (h : HalfSweep) (ms : List Metadata) (made : List Made)
    (x : Except CheckError HalfSweep) : Prop :=
  (∀ c ∈ made, c.request.isListing = false) ∧ match x with
    | .ok h' => Visited run kind h ms made h'
    | .error e => Broken made e

theorem visit_calls {x : Except CheckError HalfSweep}
    (hx : Finishes E (visit config stop run kind m h) w x w') :
    ∃ made, Calls E stop config.apiBackoff w made w' ∧ Visits run kind h [m] made x := by
  unfold visit at hx
  split at hx
  · next hname =>
    obtain ⟨rfl, rfl⟩ := Finishes.pure_iff.mp hx
    exact ⟨[], .none, by simp, .passedOver (.inl hname)⟩
  next name hname =>
  split at hx
  · next hdeleting =>
    obtain ⟨rfl, rfl⟩ := Finishes.pure_iff.mp hx
    exact ⟨[], .none, by simp, .passedOver (.inr hdeleting)⟩
  next hdeleting =>
  have hsome : m.name.isSome = true := by simp [hname]
  have hdeleting : m.deletionTimestamp.isNone = true := by simpa using hdeleting
  obtain ⟨judged, w₁, hclassify, hx⟩ := Finishes.bind_iff.mp hx
  obtain ⟨made, hcalls, hjudged⟩ := classify_calls hclassify
  rcases judged with e | ⟨_ | reason, h₁⟩
  · obtain ⟨rfl, rfl⟩ := Finishes.pure_iff.mp hx
    exact ⟨made, hcalls, fun c hc => (hjudged.1 c hc).isListing_eq, hjudged.2⟩
  · obtain ⟨rfl, rfl⟩ := Finishes.pure_iff.mp hx
    exact ⟨made, hcalls, fun c hc => (hjudged.asks c hc).isListing_eq,
      .spared hsome hdeleting hjudged⟩
  · obtain ⟨c, deleted, hremove, hc, hend⟩ := remove_calls hx
    refine ⟨made ++ [c], hcalls.trans hremove, ?_, ?_⟩
    · intro c' hc'
      rcases List.mem_append.mp hc' with hc' | hc'
      · exact (hjudged.asks c' hc').isListing_eq
      · obtain rfl := List.mem_singleton.mp hc'
        exact isListing_eq_of_removal? hc
    rcases hend with ⟨rfl, rfl⟩ | ⟨e, rfl, ⟨hcancelled, rfl⟩ | ⟨hcancelled, rfl, herror⟩⟩
    · exact .withRemoval hname hdeleting hjudged hc rfl rfl (List.append_nil _).symm
    · exact .withRemoval hname hdeleting hjudged hc rfl rfl rfl
    · exact ⟨made, c, rfl, herror, fun _ => hcancelled⟩

theorem visitAll_calls {x : Except CheckError HalfSweep}
    (hx : Finishes E (visitAll config stop run kind ms h) w x w') :
    ∃ made, Calls E stop config.apiBackoff w made w' ∧ Visits run kind h ms made x := by
  induction ms generalizing h w with
  | nil =>
    obtain ⟨rfl, rfl⟩ := Finishes.pure_iff.mp hx
    exact ⟨[], .none, by simp, .nil⟩
  | cons m ms ih =>
    obtain ⟨visited, w₁, hvisit, hx⟩ := Finishes.bind_iff.mp hx
    obtain ⟨made, hcalls, hsilent, hvisited⟩ := visit_calls hvisit
    cases visited with
    | error e =>
      obtain ⟨rfl, rfl⟩ := Finishes.pure_iff.mp hx
      exact ⟨made, hcalls, hsilent, hvisited⟩
    | ok h₁ =>
      obtain ⟨more, hmore, hsilent', hend⟩ := ih hx
      refine ⟨made ++ more, hcalls.trans hmore, ?_, ?_⟩
      · intro c hc
        exact (List.mem_append.mp hc).elim (hsilent c) (hsilent' c)
      · cases x with
        | ok h' => exact hvisited.trans hend
        | error e => exact hend.append

end Steps

/-! ### A whole half -/

section Halves

variable {B : Behaviour Cluster} {E : Surroundings B} {config : Config} {stop : Signal} {run : Run}
  {kind : Sweepable} {w w' : World B} {h : HalfSweep} {entries : List Metadata} {made : List Made}

theorem Visited.purged (hvisited : Visited run kind .empty entries made h)
    (hlisted : Listed made entries kind) : Purged run kind made entries h.report where
  asks := hvisited.asks
  listed := hlisted
  removed := hvisited.removed _ hvisited.learns.settled_gone
  found := by
    rw [← hvisited.removed _ hvisited.learns.settled_gone]
    exact hvisited.found
  failed := hvisited.failed
  once := by
    have hnodup := hvisited.learns.fresh List.nodup_nil
    rw [hvisited.learns.owners] at hnodup
    simpa [HalfSweep.empty, List.map_reverse, Function.comp_def] using hnodup
  asked owner := by
    have hasked := hvisited.learns.asked owner
    rw [hvisited.learns.owners] at hasked
    simpa [HalfSweep.empty, List.map_reverse, Function.comp_def] using hasked

theorem filter_listings {c : Made} {made : List Made} (hc : c.request.isListing = true)
    (hsilent : ∀ c ∈ made, c.request.isListing = false) :
    (c :: made).filter (·.request.isListing) = [c] := by
  have hnone : made.filter (·.request.isListing) = [] :=
    List.filter_eq_nil_iff.mpr (by simpa using hsilent)
  simp [hc, hnone]

theorem pods_calls {x : Except CheckError SweepReport}
    (hx : Finishes E (pods config stop run) w x w') :
    ∃ made, Calls E stop config.apiBackoff w made w' ∧ Sweeps run .pod made x := by
  obtain ⟨listing, w₁, hlist, hx⟩ := Finishes.bind_iff.mp hx
  cases listing with
  | error e =>
    obtain ⟨rfl, rfl⟩ := Finishes.pure_iff.mp hx
    exact ⟨_, .single hlist, Broken.single rfl⟩
  | ok pods =>
    obtain ⟨visited, w₂, hvisit, hx⟩ := Finishes.bind_iff.mp hx
    obtain ⟨made, hcalls, hsilent, hvisited⟩ := visitAll_calls hvisit
    have hall := (Calls.single hlist).trans hcalls
    cases visited with
    | error e =>
      obtain ⟨rfl, rfl⟩ := Finishes.pure_iff.mp hx
      exact ⟨_, hall, hvisited.append⟩
    | ok h =>
      obtain ⟨rfl, rfl⟩ := Finishes.pure_iff.mp hx
      refine ⟨_, hall, _, (hvisited.listing (c := ⟨.listPods Labels.systemSelector, .ok pods⟩)
        (.of_none rfl rfl) rfl).purged ⟨pods, filter_listings rfl hsilent, rfl⟩⟩

/-- Where the page after these pages begins. -/
def after : Option String → List Cluster.Page → Option String
  | token, [] => token
  | _, page :: pages => after page.next pages

theorem after_concat (token : Option String) (pages : List Cluster.Page) (page : Cluster.Page) :
    after token (pages ++ [page]) = page.next := by
  induction pages generalizing token with
  | nil => rfl
  | cons p pages ih => exact ih p.next

theorem pageCalls_concat (token : Option String) (pages : List Cluster.Page)
    (page : Cluster.Page) : pageCalls token (pages ++ [page]) = pageCalls token pages ++
      [⟨.listWorkloads Labels.systemSelector (after token pages), .ok page⟩] := by
  induction pages generalizing token with
  | nil => rfl
  | cons p pages ih =>
    rw [List.cons_append, pageCalls, ih]
    rfl

theorem complete_concat {pages : List Cluster.Page} {page : Cluster.Page}
    (h : ∀ p ∈ pages, p.next.isSome) (hlast : page.next = none) : Complete (pages ++ [page]) := by
  induction pages with
  | nil => exact hlast
  | cons p pages ih =>
    have hrest := ih fun q hq => h q (List.mem_cons_of_mem _ hq)
    cases pages with
    | nil => exact ⟨h p (List.mem_cons_self ..), hrest⟩
    | cons q pages => exact ⟨h p (List.mem_cons_self ..), hrest⟩

theorem workloadPage_calls {token : Option String}
    {x : (Option String × HalfSweep) ⊕ Except CheckError SweepReport}
    (hx : Finishes E (workloadPage config stop run (token, h)) w x w') :
    ∃ made, Calls E stop config.apiBackoff w made w' ∧
      ((∃ e, x = .inr (.error e) ∧ Broken made e) ∨ ∃ page h',
        x = page.next.elim (.inr (.ok h'.report)) (fun next => .inl (some next, h')) ∧
        Visited run .workload h (page.items.map Workload.metadata) made h' ∧
        made.filter (·.request.isListing) =
          [⟨.listWorkloads Labels.systemSelector token, .ok page⟩]) := by
  obtain ⟨listing, w₁, hlist, hx⟩ := Finishes.bind_iff.mp hx
  cases listing with
  | error e =>
    obtain ⟨rfl, rfl⟩ := Finishes.pure_iff.mp hx
    exact ⟨_, .single hlist, .inl ⟨e, rfl, .single rfl⟩⟩
  | ok page =>
    obtain ⟨visited, w₂, hvisit, hx⟩ := Finishes.bind_iff.mp hx
    obtain ⟨made, hcalls, hsilent, hvisited⟩ := visitAll_calls hvisit
    have hall := (Calls.single hlist).trans hcalls
    cases visited with
    | error e =>
      obtain ⟨rfl, rfl⟩ := Finishes.pure_iff.mp hx
      exact ⟨_, hall, .inl ⟨e, rfl, hvisited.append⟩⟩
    | ok h' =>
      have hend : w' = w₂ ∧
          x = page.next.elim (.inr (.ok h'.report)) (fun next => .inl (some next, h')) := by
        cases hnext : page.next <;>
        · simp only [hnext] at hx
          obtain ⟨rfl, rfl⟩ := Finishes.pure_iff.mp hx
          exact ⟨rfl, rfl⟩
      obtain ⟨rfl, rfl⟩ := hend
      exact ⟨_, hall, .inr ⟨page, h', rfl, hvisited.listing (.of_none rfl rfl) rfl,
        filter_listings rfl hsilent⟩⟩

theorem rounds_workloadPage {token : Option String}
    (hr : Rounds E (workloadPage config stop run) (none, .empty) w (token, h) w') :
    ∃ made pages, Calls E stop config.apiBackoff w made w' ∧
      Visited run .workload .empty
        (pages.flatMap fun page => page.items.map Workload.metadata) made h ∧
      made.filter (·.request.isListing) = pageCalls none pages ∧
      (∀ page ∈ pages, page.next.isSome) ∧ token = after none pages := by
  generalize hs : (token, h) = s at hr
  induction hr generalizing token h with
  | none =>
    cases hs
    exact ⟨[], [], .none, .nil, rfl, by simp, rfl⟩
  | next _ hround ih =>
    rename_i s₁ _ _ _ _
    obtain ⟨token₁, h₁⟩ := s₁
    obtain ⟨made, pages, hcalls, hvisited, hlistings, hnexts, rfl⟩ := ih rfl
    obtain ⟨more, hmore, ⟨_, hx, -⟩ | ⟨page, h', hx, hvisited', hlisting⟩⟩ :=
      workloadPage_calls hround
    · cases hx
    · cases hnext : page.next with
      | none => rw [hnext] at hx; cases hx
      | some next =>
        rw [hnext] at hx
        cases hx
        cases hs
        refine ⟨made ++ more, pages ++ [page], hcalls.trans hmore, ?_, ?_, ?_, ?_⟩
        · simpa using hvisited.trans hvisited'
        · rw [List.filter_append, hlistings, hlisting, pageCalls_concat]
        · simpa [or_imp, forall_and, hnext] using hnexts
        · rw [after_concat, hnext]

theorem workloads_calls {x : Except CheckError SweepReport}
    (hx : Finishes E (workloads config stop run) w x w') :
    ∃ made, Calls E stop config.apiBackoff w made w' ∧ Sweeps run .workload made x := by
  obtain ⟨⟨token, h⟩, w₁, hrounds, hround⟩ := Finishes.iterate_iff.mp hx
  obtain ⟨made, pages, hcalls, hvisited, hlistings, hnexts, rfl⟩ := rounds_workloadPage hrounds
  obtain ⟨more, hmore, ⟨e, hx, hbroken⟩ | ⟨page, h', hx, hvisited', hlisting⟩⟩ :=
    workloadPage_calls hround
  · cases hx
    exact ⟨_, hcalls.trans hmore, hbroken.append⟩
  · cases hnext : page.next with
    | some next => rw [hnext] at hx; cases hx
    | none =>
      rw [hnext] at hx
      cases hx
      refine ⟨_, hcalls.trans hmore, _, (hvisited.trans hvisited').purged
        ⟨pages ++ [page], complete_concat hnexts hnext, ?_, by simp⟩⟩
      rw [List.filter_append, hlistings, hlisting, pageCalls_concat]

theorem half_calls {x : Except CheckError SweepReport}
    (hx : Finishes E (half config stop run kind) w x w') :
    ∃ made, Calls E stop config.apiBackoff w made w' ∧ Sweeps run kind made x := by
  cases kind with
  | workload => exact workloads_calls hx
  | pod => exact pods_calls hx

end Halves

/-! ### Both halves -/

/-- Among whatever else happened, the half was carried through to an end of its own. -/
def Carried {B : Behaviour Cluster} (config : Config) (stop : Signal) (run : Run)
    (kind : Sweepable) (w : World B) (x : Except CheckError SweepReport) (w' : World B) : Prop :=
  ∃ w₁ w₂ made, w.Grows w₁ ∧
    Finishes (fun _ => World.Grows) (half config stop run kind) w₁ x w₂ ∧
    Calls (fun _ => World.Grows) stop config.apiBackoff w₁ made w₂ ∧ Sweeps run kind made x ∧
    w₂.Grows w'

theorem Carried.of_finishes {B : Behaviour Cluster} {config : Config} {stop : Signal} {run : Run}
    {kind : Sweepable} {w w₁ w₂ w' : World B} {x : Except CheckError SweepReport}
    (h₁ : w.Grows w₁) (h : Finishes (fun _ => World.Grows) (half config stop run kind) w₁ x w₂)
    (h₂ : w₂.Grows w') : Carried config stop run kind w x w' := by
  obtain ⟨made, hcalls, hsweeps⟩ := half_calls h
  exact ⟨w₁, w₂, made, h₁, h, hcalls, hsweeps, h₂⟩

/-- A half of a sweep that ends well has deleted the orphans that it listed, and nothing else. In a
sweep each half comes to its own end, whatever the end of the other one is. -/
theorem deletes_exactly_orphans {B : Behaviour Cluster} (E : Surroundings B) (config : Config)
    (stop : Signal) (run : Run) (w w' : World B) :
    (∀ kind x, Finishes E (half config stop run kind) w x w' →
      ∃ made, Calls E stop config.apiBackoff w made w' ∧ Sweeps run kind made x) ∧
    ((∀ t w₁ w₂, E t w₁ w₂ → w₁.Grows w₂) →
      ∀ result, Finishes E (once config stop run) w result w' → ∃ x y, result = merge (x, y) ∧
        Carried config stop run .workload w x w' ∧ Carried config stop run .pod w y w') := by
  refine ⟨fun kind x hx => half_calls hx, fun hE result hresult => ?_⟩
  obtain ⟨⟨x, y⟩, w₁, hboth, hresult⟩ := Finishes.bind_iff.mp hresult
  obtain ⟨rfl, rfl⟩ := Finishes.pure_iff.mp hresult
  rcases Reaches.both_cases (World.Grows.beside hE) (World.Grows.beside hE) workloads_uses
    pods_uses hboth with
    ⟨_, hs, -⟩ | hs | ⟨_, w₂, _, w₃, w₄, hp, hp', hq, hq', hq'', hend⟩
  · cases hs
  · cases hs
  · cases hend
    exact ⟨x, y, rfl, .of_finishes (World.Since.refl w) hp hp', .of_finishes hq hq' hq''⟩

/-! ### A cluster in which the workloads cannot be listed -/

namespace Sweeping

/-- The pods are these. Two of them cannot be looked up or deleted. -/
def orphanage (pods : List Pod) : Behaviour Cluster where
  State := Unit
  Ticket := Unit
  start _ _ s := (.zero, (), s)
  answer _ r _ s :=
    match r with
    | .listNodes => (.ok [], s)
    | .listPods _ => (.ok pods, s)
    | .listWorkloads _ _ => (.error refused, s)
    | .deletePod name => (if name = "abandoned" then .error refused else .ok (), s)
    | .createWorkload _ | .deleteWorkload _ | .deletePods _ => (.ok (), s)
    | .getPod _ => (.ok none, s)
    | .getWorkload _ => (.ok none, s)
where
  refused : CheckError := .cluster (.api ⟨"Failure", "forbidden", "Forbidden", 403⟩)

def run : Run := ⟨"daemonset", "host", 2⟩

def pod (name owner : String) (second : Int) : Pod :=
  { metadata := { name := some name, labels := some (Labels.ofRun ⟨"daemonset", owner, second⟩) } }

/-- A pod without labels, two whose process is gone, an old one, one of the run itself, and one
without a name. -/
def inmates : List Pod :=
  [{ metadata := { name := some "bare" } }, pod "abandoned" "gone" 2, pod "left" "gone" 3,
    pod "old" "host" 1, pod "own" "host" 2, {}]

end Sweeping

open Sweeping in
/-- The theorem for pods of all kinds, while the other half of the sweep fails at once. -/
theorem deletes_exactly_orphans_of_pods :
    let w : World (orphanage inmates) := .initial ()
    let report : SweepReport :=
      ⟨["pod/bare", "pod/abandoned", "pod/left", "pod/old"], ["pod/abandoned"]⟩
    (∃ w', Finishes .alone (half .standard .run run .pod) w (.ok report) w' ∧
      ∃ made, Calls .alone .run Config.standard.apiBackoff w made w' ∧
        Sweeps run .pod made (.ok report)) ∧
    ∃ w' x y, Finishes .alone (once .standard .run run) w (.error orphanage.refused) w' ∧
      .error orphanage.refused = merge (x, y) ∧ Carried .standard .run run .workload w x w' ∧
      Carried .standard .run run .pod w y w' := by
  intro w report
  have hgrows : ∀ t (w₁ w₂ : World (orphanage inmates)), Surroundings.alone t w₁ w₂ →
      w₁.Grows w₂ := by
    rintro t w₁ _ rfl
    exact .advance w₁ _
  constructor
  · have hhalf : Finishes .alone (half .standard .run run .pod) w (.ok report) _ :=
      Yields.of_endsWith 200 20 (by decide +kernel)
    exact ⟨_, hhalf, (deletes_exactly_orphans .alone .standard .run run w _).1 .pod _ hhalf⟩
  · have honce : Finishes .alone (once .standard .run run) w (.error orphanage.refused) _ :=
      Yields.of_endsWith 200 20 (by decide +kernel)
    obtain ⟨x, y, hmerge, hx, hy⟩ :=
      (deletes_exactly_orphans .alone .standard .run run w _).2 hgrows _ honce
    exact ⟨_, x, y, honce, hmerge, hx, hy⟩

end Sweep
end NodeCoverage
