import NodeCoverage.Proofs.Check.Confirmation
/-!
# How often the pods are deleted again

The wait for the pods lists them, deletes them again when it is time to, and sleeps. When it is time
to does not depend on when the wait sleeps or on what the listings show: it is once a whole interval
has passed since the last deletion was over, or since the wait began. So deletions keep their
distance however long each of them takes and however it ends, and the wait never sleeps over one
that was due when the sleep began.
-/

namespace NodeCoverage
namespace Teardown

open Process (Finishes Rounds Unfinished Yields)

variable {B : Behaviour Cluster}

/-- What the wait for the pods does. -/
inductive Deed where
  | list
  | delete
  | sleep
deriving DecidableEq

namespace Deed

abbrev Result : Deed → Type
  | list => Except CheckError (List Pod)
  | delete => Except CheckError Unit
  | sleep => Pause

/-- A call with all its repetitions, or a pause. -/
def process (config : Config) (stop : Signal) (deadline : Nat) (workloadName : String) :
    (d : Deed) → Process Cluster d.Result
  | list => Cluster.call stop config.apiBackoff (.listPods (Labels.runSelector workloadName))
  | delete => deletePods config stop workloadName
  | sleep => Process.pause stop deadline config.removalPollInterval

end Deed

/-- A deed with the instant at which it began and, once it is over, the one at which it ended and
what came of it. -/
structure Act where
  deed : Deed
  began : Nat
  ended : Option (Nat × deed.Result)

namespace Act

/-- When the pods began to be deleted again. -/
def redelete? (a : Act) : Option Nat :=
  if a.deed = .delete then some a.began else none

def redeleted? : Act → Option Nat
  | ⟨.delete, _, some (t, _)⟩ => some t
  | _ => none

end Act

/-- When the deletions began. -/
def redeletes (acts : List Act) : List Nat :=
  acts.filterMap Act.redelete?

/-- When the last deletion was over, or the wait began. -/
def latest (began : Nat) (acts : List Act) : Nat :=
  ((acts.filterMap Act.redeleted?).getLast?).getD began

/-- What may come next, when `latest` is when the last deletion was over. -/
inductive Follows (interval latest : Nat) : Option Act → Act → Prop
  | first {t : Nat} {e : Option (Nat × Deed.list.Result)} :
    Follows interval latest none ⟨.list, t, e⟩
  | again {t₁ t₂ t : Nat} {e : Option (Nat × Deed.list.Result)} :
    Follows interval latest (some ⟨.sleep, t₁, some (t₂, .over)⟩) ⟨.list, t, e⟩
  | due {t₁ t₂ t : Nat} {listing : Deed.list.Result} {e : Option (Nat × Deed.delete.Result)} :
    Inconclusive listing → latest + interval ≤ t →
    Follows interval latest (some ⟨.list, t₁, some (t₂, listing)⟩) ⟨.delete, t, e⟩
  | early {t₁ t₂ t : Nat} {listing : Deed.list.Result} {e : Option (Nat × Deed.sleep.Result)} :
    Inconclusive listing → t < latest + interval →
    Follows interval latest (some ⟨.list, t₁, some (t₂, listing)⟩) ⟨.sleep, t, e⟩
  | deleted {t₁ t : Nat} {outcome : Deed.delete.Result} {e : Option (Nat × Deed.sleep.Result)} :
    Follows interval latest (some ⟨.delete, t₁, some (t, outcome)⟩) ⟨.sleep, t, e⟩

/-- Each act may follow on those before it, in a wait that began at the given instant. -/
inductive InOrder (interval began : Nat) : List Act → Prop
  | nil : InOrder interval began []
  | concat {acts : List Act} {act : Act} : InOrder interval began acts →
    Follows interval (latest began acts) acts.getLast? act → InOrder interval began (acts ++ [act])

/-- The deletions keep their distance from each other and from the beginning of the wait, no sleep
begins when a deletion is due, the wait sleeps after a deletion whatever came of it, and nothing
comes after a listing that was empty. -/
structure Paced (interval began : Nat) (acts : List Act) : Prop where
  apart : (began :: redeletes acts).Pairwise fun t u => t + interval ≤ u
  awake : ∀ before t e after, acts = before ++ ⟨.sleep, t, e⟩ :: after →
    t < latest began before + interval
  tolerant : ∀ before t u outcome after,
    acts = before ++ ⟨.delete, t, some (u, outcome)⟩ :: after →
    ∃ e rest, after = ⟨.sleep, u, e⟩ :: rest
  final : ∀ before t u after, acts = before ++ ⟨.list, t, some (u, .ok [])⟩ :: after → after = []

section Definitions

variable (E : Surroundings B) (config : Config) (stop : Signal) (deadline : Nat)
  (workloadName : String)

/-- One act after the other since `w`, all of them over. -/
inductive Acted (w : World B) : List Act → World B → Prop
  | nothing : Acted w [] w
  | next {acts : List Act} {d : Deed} {r : d.Result} {w₁ w₂ : World B} : Acted w acts w₁ →
    Follows config.podRedeleteInterval.nanos (latest w.now acts) acts.getLast?
      ⟨d, w₁.now, some (w₂.now, r)⟩ →
    Finishes E (d.process config stop deadline workloadName) w₁ r w₂ →
    Acted w (acts ++ [⟨d, w₁.now, some (w₂.now, r)⟩]) w₂

end Definitions

variable {E : Surroundings B} {config : Config} {stop : Signal} {deadline : Nat}
  {workloadName : String} {w w' : World B} {interval began : Nat} {acts : List Act} {act : Act}

/-! ### Acts in order -/

theorem redeletes_concat :
    redeletes (acts ++ [act]) = redeletes acts ++ act.redelete?.toList := by
  cases h : act.redelete? <;> simp [redeletes, h]

theorem latest_concat :
    latest began (acts ++ [act]) = act.redeleted?.getD (latest began acts) := by
  cases h : act.redeleted? <;> simp [latest, h]

namespace InOrder

theorem follows (h : InOrder interval began acts) {before after : List Act}
    (hacts : acts = before ++ act :: after) :
    Follows interval (latest began before) before.getLast? act := by
  induction h generalizing after with
  | nil => simp at hacts
  | concat _ hfollows ih =>
    rcases List.eq_nil_or_concat after with rfl | ⟨after, b, rfl⟩
    · obtain ⟨rfl, hact⟩ := List.append_inj' hacts rfl
      cases hact
      exact hfollows
    · rw [List.concat_eq_append, ← List.cons_append, ← List.append_assoc] at hacts
      exact ih (List.append_inj' hacts rfl).1

theorem apart (h : InOrder interval began acts)
    (hforward : ∀ a ∈ acts, ∀ t ∈ a.ended.map Prod.fst, a.began ≤ t) :
    ((began :: redeletes acts).Pairwise fun t u => t + interval ≤ u) ∧
      ((∃ t, acts.getLast? = some ⟨.delete, t, none⟩) ∨
        ∀ t ∈ began :: redeletes acts, t ≤ latest began acts) := by
  induction h with
  | nil => simp [redeletes, latest]
  | @concat acts act horder hfollows ih =>
    obtain ⟨hapart, hlast⟩ := ih fun a ha => hforward a (List.mem_append_left _ ha)
    have hlatest : ∀ t ∈ began :: redeletes acts, t ≤ latest began acts := by
      refine hlast.resolve_left ?_
      rintro ⟨t, hlast⟩
      rw [hlast] at hfollows
      cases hfollows
    rw [redeletes_concat, latest_concat]
    obtain ⟨_ | _ | _, t, e⟩ := act
    case list | sleep =>
      exact ⟨by simpa [Act.redelete?] using hapart,
        .inr (by simpa [Act.redelete?, Act.redeleted?] using hlatest)⟩
    case delete =>
      have hdue : latest began acts + interval ≤ t := by
        generalize acts.getLast? = last at hfollows
        cases hfollows with
        | due _ hdue => exact hdue
      constructor
      · refine List.pairwise_append.mpr ⟨hapart, List.pairwise_singleton .., fun u hu v hv => ?_⟩
        cases List.mem_singleton.mp hv
        exact Nat.le_trans (Nat.add_le_add_right (hlatest u hu) interval) hdue
      · cases e with
        | none => exact .inl ⟨t, List.getLast?_concat ..⟩
        | some r =>
          have hmem : ⟨.delete, t, some r⟩ ∈ acts ++ [⟨.delete, t, some r⟩] :=
            List.mem_append_right _ (List.mem_singleton_self _)
          have hended : t ≤ r.1 := hforward _ hmem r.1 rfl
          refine .inr fun u hu => ?_
          rw [Act.redeleted?, Option.getD_some]
          have hu : u ∈ began :: redeletes acts ∨ u = t := by
            simpa [Act.redelete?, or_assoc] using hu
          rcases hu with hu | rfl
          · have hle := hlatest u hu
            omega
          · exact hended

theorem paced (h : InOrder interval began acts) (hinterval : 0 < interval)
    (hforward : ∀ a ∈ acts, ∀ t ∈ a.ended.map Prod.fst, a.began ≤ t)
    (hlast : ∀ t r, acts.getLast? ≠ some ⟨.delete, t, some r⟩) : Paced interval began acts where
  apart := (h.apart hforward).1
  awake := by
    intro before t e after hacts
    have hfollows := h.follows hacts
    generalize hbefore : before.getLast? = last at hfollows
    cases hfollows with
    | early _ hearly => exact hearly
    | deleted =>
      obtain ⟨earlier, rfl⟩ := List.getLast?_eq_some_iff.mp hbefore
      rw [latest_concat, Act.redeleted?, Option.getD_some]
      omega
  tolerant := by
    intro before t u outcome after hacts
    cases after with
    | nil => exact absurd (hacts ▸ List.getLast?_concat ..) (hlast t (u, outcome))
    | cons a rest =>
      have hfollows := h.follows (hacts.trans (List.append_cons ..))
      rw [List.getLast?_concat] at hfollows
      cases hfollows with
      | deleted => exact ⟨_, _, rfl⟩
  final := by
    intro before t u after hacts
    cases after with
    | nil => rfl
    | cons a rest =>
      have hfollows := h.follows (hacts.trans (List.append_cons ..))
      rw [List.getLast?_concat] at hfollows
      cases hfollows with
      | due hopen _ | early hopen _ => exact absurd rfl hopen

end InOrder

/-! ### The wait for the pods -/

namespace Acted

theorem inOrder (h : Acted E config stop deadline workloadName w acts w') :
    InOrder config.podRedeleteInterval.nanos w.now acts := by
  induction h with
  | nothing => exact .nil
  | next _ hfollows _ ih => exact ih.concat hfollows

theorem forward (hE : ∀ ⦃t w w'⦄, E t w w' → w.now ≤ w'.now)
    (h : Acted E config stop deadline workloadName w acts w') :
    ∀ a ∈ acts, ∀ t ∈ a.ended.map Prod.fst, a.began ≤ t := by
  induction h with
  | nothing => exact nofun
  | next _ _ hfinishes ih =>
    intro a ha
    rcases List.mem_append.mp ha with ha | ha
    · exact ih a ha
    · cases List.mem_singleton.mp ha
      rintro _ ⟨⟩
      exact hfinishes.now_le hE

theorem listed {listing : Except CheckError (List Pod)} {t : Nat} {w₁ w₂ : World B}
    (h : Acted E config stop deadline workloadName w acts w₁) (hlatest : latest w.now acts = t)
    (hready : ∀ u e, Follows config.podRedeleteInterval.nanos t acts.getLast? ⟨.list, u, e⟩)
    (hlist : ListsPods E config stop workloadName w₁ listing w₂) :
    Acted E config stop deadline workloadName w (acts ++ [⟨.list, w₁.now, some (w₂.now, listing)⟩])
        w₂ ∧
      latest w.now (acts ++ [⟨.list, w₁.now, some (w₂.now, listing)⟩]) = t := by
  subst hlatest
  exact ⟨h.next (d := .list) (hready _ _) hlist, latest_concat⟩

theorem round {listing : Except CheckError (List Pod)} {t t' : Nat} {w₁ w₂ w₃ : World B}
    (hinterval : 0 < config.podRedeleteInterval.nanos)
    (h : Acted E config stop deadline workloadName w acts w₁) (hlatest : latest w.now acts = t)
    (hready : ∀ u e, Follows config.podRedeleteInterval.nanos t acts.getLast? ⟨.list, u, e⟩)
    (hlist : ListsPods E config stop workloadName w₁ listing w₂) (hopen : Inconclusive listing)
    (hdelete : Redeletes E config stop workloadName t w₂ t' w₃) :
    ∃ acts', Acted E config stop deadline workloadName w acts' w₃ ∧ latest w.now acts' = t' ∧
      ∀ e, Follows config.podRedeleteInterval.nanos t' acts'.getLast? ⟨.sleep, w₃.now, e⟩ := by
  obtain ⟨hlisted, hsame⟩ := h.listed hlatest hready hlist
  cases hdelete with
  | early hearly =>
    refine ⟨_, hlisted, hsame, fun e => ?_⟩
    rw [List.getLast?_concat]
    exact .early hopen (by omega)
  | @due outcome _ hdue hfinishes =>
    have hdeleted := hlisted.next (d := .delete) (r := outcome)
      (by rw [hsame, List.getLast?_concat]; exact .due hopen (by omega)) hfinishes
    refine ⟨_, hdeleted, latest_concat, fun e => ?_⟩
    rw [List.getLast?_concat]
    exact .deleted

end Acted

theorem Polled.acted {listings : List (Except CheckError (List Pod))} {t : Nat}
    (hinterval : 0 < config.podRedeleteInterval.nanos)
    (h : Polled E config stop deadline workloadName w listings t w') :
    ∃ acts, Acted E config stop deadline workloadName w acts w' ∧ latest w.now acts = t ∧
      ∀ u e, Follows config.podRedeleteInterval.nanos t acts.getLast? ⟨.list, u, e⟩ := by
  induction h with
  | none => exact ⟨[], .nothing, rfl, fun _ _ => .first⟩
  | next _ hlist hopen hdelete hpause ih =>
    obtain ⟨acts, hacted, hlatest, hready⟩ := ih
    obtain ⟨acts', hacted', rfl, hsleepy⟩ :=
      hacted.round hinterval hlatest hready hlist hopen hdelete
    refine ⟨_, hacted'.next (d := .sleep) (hsleepy _) hpause, latest_concat, fun u e => ?_⟩
    rw [List.getLast?_concat]
    exact .again

theorem exists_acted_of_finishes {outcome : Except CheckError Unit}
    (hinterval : 0 < config.podRedeleteInterval.nanos)
    (h : Finishes E (awaitPods config stop deadline workloadName) w outcome w') :
    ∃ acts, Acted E config stop deadline workloadName w acts w' ∧
      ∀ t r, acts.getLast? ≠ some ⟨.delete, t, some r⟩ := by
  cases outcome with
  | ok _ =>
    obtain ⟨listings, t, w₁, hpolled, hlist⟩ := finishes_awaitPods_ok_iff.mp h
    obtain ⟨acts, hacted, hlatest, hready⟩ := hpolled.acted hinterval
    exact ⟨_, (hacted.listed hlatest hready hlist).1, by simp⟩
  | error e =>
    cases finishes_awaitPods_error_iff.mp h with
    | cancelled hpolled hlist _ =>
      obtain ⟨acts, hacted, hlatest, hready⟩ := hpolled.acted hinterval
      exact ⟨_, (hacted.listed hlatest hready hlist).1, by simp⟩
    | stopped hpolled hlist hopen hdelete hpause _ | overdue hpolled hlist hopen hdelete hpause _ =>
      obtain ⟨acts, hacted, hlatest, hready⟩ := hpolled.acted hinterval
      obtain ⟨acts', hacted', rfl, hsleepy⟩ :=
        hacted.round hinterval hlatest hready hlist hopen hdelete
      exact ⟨_, hacted'.next (d := .sleep) (hsleepy _) hpause, by simp⟩

theorem unfinished_deleteAgain {t : Nat} {pods : List Pod} {x : Option Fault}
    (h : Unfinished E (deleteAgain config stop workloadName ⟨t, pods⟩) w x w') :
    config.podRedeleteInterval.nanos ≤ w.now - t ∧
      Unfinished E (Deed.delete.process config stop deadline workloadName) w x w' := by
  have h := Unfinished.clock_bind_iff.mp h
  split at h
  · next hdue =>
    rcases Unfinished.bind_iff.mp h with h | ⟨_, _, -, h⟩
    · exact ⟨hdue, h⟩
    · exact absurd (Unfinished.clock_bind_iff.mp h) Unfinished.not_pure
  · exact absurd h Unfinished.not_pure

theorem unfinished_pause {outstanding : String} {x : Option Fault}
    (h : Unfinished E (pause config stop deadline outstanding) w x w') :
    Unfinished E (Deed.sleep.process config stop deadline workloadName) w x w' := by
  rcases Unfinished.bind_iff.mp h with h | ⟨how, _, -, h⟩
  · exact h
  · cases how <;> exact absurd h Unfinished.not_pure

theorem unfinished_podRound_cases {l : Lingering} {x : Option Fault}
    (h : Unfinished E (podRound config stop deadline workloadName l) w x w') :
    Unfinished E (Deed.list.process config stop deadline workloadName) w x w' ∨
      ∃ listing w₁, ListsPods E config stop workloadName w listing w₁ ∧ Inconclusive listing ∧
        ((config.podRedeleteInterval.nanos ≤ w₁.now - l.lastDelete ∧
            Unfinished E (Deed.delete.process config stop deadline workloadName) w₁ x w') ∨
          ∃ t w₂, Redeletes E config stop workloadName l.lastDelete w₁ t w₂ ∧
            Unfinished E (Deed.sleep.process config stop deadline workloadName) w₂ x w') := by
  rcases Unfinished.bind_iff.mp h with h | ⟨listing, w₁, hlist, h⟩
  · exact .inl h
  · refine .inr ⟨listing, w₁, hlist, ?_⟩
    cases hafter : afterListing l listing with
    | inr outcome =>
      simp only [hafter] at h
      exact absurd h Unfinished.not_pure
    | inl l₁ =>
      simp only [hafter] at h
      obtain ⟨hopen, rfl⟩ := afterListing_eq_inl_iff.mp hafter
      refine ⟨hopen, ?_⟩
      rcases Unfinished.bind_iff.mp h with h | ⟨_, w₂, hdelete, h⟩
      · exact .inl (unfinished_deleteAgain h)
      · obtain ⟨t, hredeletes, rfl⟩ := finishes_deleteAgain_iff.mp hdelete
        refine .inr ⟨t, w₂, hredeletes, ?_⟩
        rcases Unfinished.bind_iff.mp h with h | ⟨paused, _, -, h⟩
        · exact unfinished_pause h
        · cases paused <;> exact absurd h Unfinished.not_pure

theorem exists_acted_of_unfinished {x : Option Fault}
    (hinterval : 0 < config.podRedeleteInterval.nanos)
    (h : Unfinished E (awaitPods config stop deadline workloadName) w x w') :
    ∃ acts d w₁, Acted E config stop deadline workloadName w acts w₁ ∧
      Unfinished E (d.process config stop deadline workloadName) w₁ x w' ∧
      Follows config.podRedeleteInterval.nanos (latest w.now acts) acts.getLast?
        ⟨d, w₁.now, none⟩ := by
  have h := Unfinished.clock_bind_iff.mp h
  obtain ⟨l, w₁, hrounds, hround⟩ := Unfinished.iterate_iff.mp h
  obtain ⟨listings, hpolled, -⟩ := rounds_podRound_iff.mp hrounds
  obtain ⟨acts, hacted, hlatest, hready⟩ := hpolled.acted hinterval
  rcases unfinished_podRound_cases hround with
    h | ⟨listing, w₂, hlist, hopen, ⟨hdue, h⟩ | ⟨t, w₃, hdelete, h⟩⟩
  · exact ⟨acts, .list, w₁, hacted, h, hlatest ▸ hready _ _⟩
  · obtain ⟨hlisted, hsame⟩ := hacted.listed hlatest hready hlist
    refine ⟨_, .delete, w₂, hlisted, h, ?_⟩
    rw [hsame, List.getLast?_concat]
    exact .due hopen (by omega)
  · obtain ⟨acts', hacted', rfl, hsleepy⟩ :=
      hacted.round hinterval hlatest hready hlist hopen hdelete
    exact ⟨acts', .sleep, w₃, hacted', h, hsleepy none⟩

/-- Whatever the listings show, however long the calls take and however they end: in a wait for the
pods, deletions begin at least one interval apart and at least one interval after the wait, no sleep
begins unless less than the interval has passed since the last deletion was over, the wait sleeps
after each deletion, and nothing comes after a listing that was empty. This is so for a wait that is
over and, including the act that is not, for one that is not over or crashed. -/
theorem deletions_keep_cadence (E : Surroundings B) (config : Config) (stop : Signal)
    (deadline : Nat) (workloadName : String) (w : World B)
    (hE : ∀ ⦃t w w'⦄, E t w w' → w.now ≤ w'.now)
    (hinterval : 0 < config.podRedeleteInterval.nanos) :
    (∀ outcome w', Finishes E (awaitPods config stop deadline workloadName) w outcome w' →
      ∃ acts, Acted E config stop deadline workloadName w acts w' ∧
        Paced config.podRedeleteInterval.nanos w.now acts) ∧
    ∀ x w', Unfinished E (awaitPods config stop deadline workloadName) w x w' →
      ∃ acts d w₁, Acted E config stop deadline workloadName w acts w₁ ∧
        Unfinished E (d.process config stop deadline workloadName) w₁ x w' ∧
        Paced config.podRedeleteInterval.nanos w.now (acts ++ [⟨d, w₁.now, none⟩]) := by
  refine ⟨fun outcome w' h => ?_, fun x w' h => ?_⟩
  · obtain ⟨acts, hacted, hlast⟩ := exists_acted_of_finishes hinterval h
    exact ⟨acts, hacted, hacted.inOrder.paced hinterval (hacted.forward hE) hlast⟩
  · obtain ⟨acts, d, w₁, hacted, hunfinished, hfollows⟩ := exists_acted_of_unfinished hinterval h
    refine ⟨acts, d, w₁, hacted, hunfinished, ?_⟩
    refine (hacted.inOrder.concat hfollows).paced hinterval (fun a ha => ?_) fun t r hlast => ?_
    · rcases List.mem_append.mp ha with ha | ha
      · exact hacted.forward hE a ha
      · cases List.mem_singleton.mp ha
        exact nofun
    · rw [List.getLast?_concat] at hlast
      cases hlast

/-! ### Pods that linger -/

namespace Cadence

/-- So many listings show a pod. To delete it takes a while, and is refused. -/
def stubborn : Behaviour Cluster where
  State := Nat
  Ticket := Unit
  start _ r s :=
    match r with
    | .deletePods _ => (.ofMillis 400, (), s)
    | _ => (.zero, (), s)
  answer _ r _ s :=
    match r with
    | .listNodes => (.ok [], s)
    | .listPods _ => (.ok (if s = 0 then [] else [Confirmation.lingering]), s - 1)
    | .listWorkloads _ _ => (.ok ⟨[], none⟩, s)
    | .deletePods _ => (.error Confirmation.refused, s)
    | .createWorkload _ | .deleteWorkload _ | .deletePod _ => (.ok (), s)
    | .getPod _ => (.ok none, s)
    | .getWorkload _ => (.ok none, s)

/-- A pod lingers for six listings. -/
def lingering : World stubborn :=
  .initial (6 : Nat)

def eager : Config :=
  { Config.standard with podRedeleteInterval := .ofSeconds 1 }

def deletions (trace : Array (Event Cluster)) : List Nat :=
  trace.toList.filterMap fun
    | .called t _ (.deletePods _) => some t
    | _ => none

end Cadence

open Cadence in
/-- The theorem for a wait in which both deletions are refused. The first one begins after a second,
and the second one a whole second after the first one was over. -/
theorem deletions_keep_cadence_stubborn :
    (∀ ⦃t : Nat⦄ ⦃w w' : World stubborn⦄, Surroundings.alone t w w' → w.now ≤ w'.now) ∧
    0 < eager.podRedeleteInterval.nanos ∧
    ∃ w', Finishes .alone (awaitPods eager .run (Duration.ofSeconds 60).nanos "probe")
        lingering (.ok ()) w' ∧
      deletions w'.trace = [(Duration.ofMillis 1000).nanos, (Duration.ofMillis 2400).nanos] ∧
      ∃ acts, Acted .alone eager .run (Duration.ofSeconds 60).nanos "probe"
          lingering acts w' ∧
        Paced eager.podRedeleteInterval.nanos 0 acts := by
  have hE : ∀ ⦃t : Nat⦄ ⦃w w' : World stubborn⦄, Surroundings.alone t w w' → w.now ≤ w'.now := by
    rintro t w _ rfl
    exact Nat.le_max_left ..
  have hinterval : 0 < eager.podRedeleteInterval.nanos := by decide
  have hwait : Finishes .alone (awaitPods eager .run (Duration.ofSeconds 60).nanos "probe")
      lingering (.ok ()) _ :=
    Yields.of_endsWith 200 40 (by decide +kernel)
  exact ⟨hE, hinterval, _, hwait, by decide +kernel,
    (deletions_keep_cadence .alone eager .run _ "probe" _ hE hinterval).1 _ _ hwait⟩

end Teardown
end NodeCoverage
