import Mathlib.Logic.Function.Basic
import NodeCoverage.Check.Deployment
import NodeCoverage.Proofs.Check.Course
import NodeCoverage.Proofs.Cluster.Call
import NodeCoverage.Proofs.Process.Finishes
/-!
# Deployment as one effect

The answer to a creation may be lost when it has taken effect, and the next attempt then meets the
object of the one before. A deployment that ends well has nevertheless put one object there or found
it there, with the labels of the workload, and it leaves every other object alone. The store is any
cluster that a creation changes in no other way than by adding its object where the name is free.
-/

namespace NodeCoverage
namespace Deployment

open Process (Finishes Meets Reaches Uses Yields)

variable {B : Behaviour Cluster}

/-- The name under which the workload is to be held. -/
def nameOf (x : Workload) : String :=
  x.metadata.name.getD ""

/-- What is held is the same, or the name of the workload was free and holds an object with its
labels now. -/
def Created (x : Workload) (before after : String → Option Workload) : Prop :=
  after = before ∨ before (nameOf x) = none ∧ ∃ y, y.metadata.labels = x.metadata.labels ∧
    after = Function.update before (nameOf x) (some y)

/-- The cluster holds workloads by their names. A creation takes effect, or not, while it is on its
way or when it is answered, and whatever it is answered. -/
structure Store (B : Behaviour Cluster) (held : B.State → String → Option Workload) : Prop where
  create_start : ∀ t x s, Created x (held s) (held (B.start t (.createWorkload x) s).2.2)
  create_answer : ∀ t x k s, Created x (held s) (held (B.answer t (.createWorkload x) k s).2)
  /-- Only the creation of a name that was free succeeds, and then the name is held. -/
  created : ∀ t t' x s s', held s' = held (B.start t (.createWorkload x) s).2.2 →
    let answer := B.answer t' (.createWorkload x) (B.start t (.createWorkload x) s).2.1 s'
    answer.1 = .ok () → held s (nameOf x) = none ∧ (held answer.2 (nameOf x)).isSome
  look_start : ∀ t name s, held (B.start t (.getWorkload name) s).2.2 = held s
  look_answer : ∀ t name k s, held (B.answer t (.getWorkload name) k s).2 = held s
  looked : ∀ t t' name s s' found, held s' = held (B.start t (.getWorkload name) s).2.2 →
    (B.answer t' (.getWorkload name) (B.start t (.getWorkload name) s).2.1 s').1 = .ok found →
    found = held s' name

/-- What the cluster answers with is an error of its own, if it is one. -/
def Reports (B : Behaviour Cluster) : Prop :=
  ∀ t r k s e, (B.answer t r k s).1 = .error e → ∃ cause, e = .cluster cause

/-- Success, or a status of the API server that does not ask for patience. -/
def Definitive : Except CheckError Unit → Prop
  | .ok () => True
  | .error e => ∃ a, e = .cluster (.api a) ∧ a.code ≠ 429 ∧ a.code < 500

def Decides : Event Cluster → Prop
  | .answered _ _ (.createWorkload _) reply => Definitive reply
  | _ => False

def Attempts : Event Cluster → Prop
  | .called _ _ (.createWorkload _) => True
  | _ => False

section Outcomes

variable {E : Surroundings B} {stop : Signal} {policy : Backoff} {x : Workload} {w w' : World B}

/-- A deployment is its creation, and after a conflict the lookup. -/
theorem finishes_run_iff {outcome : Except CheckError Unit} :
    Finishes E (run stop policy x) w outcome w' ↔
      (Finishes E (Cluster.call stop policy (.createWorkload x)) w (.ok ()) w' ∧
        outcome = .ok ()) ∨
      ∃ e w₁, Finishes E (Cluster.call stop policy (.createWorkload x)) w (.error e) w₁ ∧
        ((e.isConflict = false ∧ outcome = .error (refusal e) ∧ w' = w₁) ∨
          e.isConflict = true ∧ ∃ found,
            Finishes E (Cluster.call stop policy (.getWorkload (nameOf x))) w₁ found w' ∧
            outcome = found.bind (adoption x e)) := by
  unfold run
  rw [Finishes.bind_iff]
  constructor
  · rintro ⟨created, w₁, hcreate, h⟩
    rcases created with e | ⟨⟨⟩⟩
    · dsimp only at h
      split at h
      · next hconflict =>
        obtain ⟨found, w₂, hlook, h⟩ := Finishes.bind_iff.mp h
        refine .inr ⟨e, w₁, hcreate, .inr ⟨hconflict, found, ?_⟩⟩
        cases found <;> · obtain ⟨rfl, rfl⟩ := Finishes.pure_iff.mp h; exact ⟨hlook, rfl⟩
      · next hconflict =>
        obtain ⟨rfl, rfl⟩ := Finishes.pure_iff.mp h
        exact .inr ⟨e, _, hcreate, .inl ⟨eq_false_of_ne_true hconflict, rfl, rfl⟩⟩
    · obtain ⟨rfl, rfl⟩ := Finishes.pure_iff.mp h
      exact .inl ⟨hcreate, rfl⟩
  · rintro (⟨hcreate, rfl⟩ | ⟨e, w₁, hcreate, ⟨hconflict, rfl, rfl⟩ |
      ⟨hconflict, found, hlook, rfl⟩⟩)
    · exact ⟨_, w', hcreate, Finishes.pure_iff.mpr ⟨rfl, rfl⟩⟩
    · refine ⟨_, w', hcreate, ?_⟩
      simp [hconflict]
    · refine ⟨_, w₁, hcreate, ?_⟩
      dsimp only
      rw [if_pos hconflict]
      refine Finishes.bind_iff.mpr ⟨found, w', hlook, ?_⟩
      cases found <;> exact Finishes.pure_iff.mpr ⟨rfl, rfl⟩

theorem error_cases {r : Cluster.Request} {e : CheckError} (hreports : Reports B)
    (hE : E.Transitive) (h : Finishes E (Cluster.call stop policy r) w (.error e) w') :
    e = .cancelled r.operation ∨ ∃ cause, e = .cluster cause := by
  have hmeets : Meets E (fun _ => True) (Cluster.call stop policy r) w fun o _ =>
      ∀ e, o = .error e → e = .cancelled r.operation ∨ ∃ cause, e = .cluster cause := by
    apply Cluster.meets_call hE trivial (fun _ _ => trivial)
    · intro w₀ w₁ _ _ _
      exact ⟨fun e he => .inr (hreports _ _ _ _ e he), fun _ _ => trivial⟩
    · intro _ _ _ e he
      cases he
      exact .inl rfl
  exact hmeets.of_reaches (fun _ _ _ _ _ => trivial) h e rfl

theorem isConflict_iff {cause : ClusterError} :
    (CheckError.cluster cause).isConflict = true ↔ ∃ a, cause = .api a ∧ a.code = 409 := by
  cases cause <;> simp [CheckError.isConflict, CheckError.apiCode?]

theorem refusal_eq_rejected_iff {cause : ClusterError} {operation message : String} :
    refusal (.cluster cause) = .rejected operation message ↔ ∃ a, cause = .api a ∧
      a.code ≠ 429 ∧ a.code < 500 ∧ operation = "create workload" ∧ message = a.message := by
  cases cause with
  | api a => grind [refusal, CheckError.isTransientCode]
  | _ => simp [refusal]

theorem refusal_ne_nameTaken {cause : ClusterError} {name : String} :
    refusal (.cluster cause) ≠ .nameTaken name := by
  cases cause <;> grind [refusal]

theorem adoption_eq_nameTaken_iff {conflict : ClusterError} {found : Option Workload}
    {name : String} : adoption x (.cluster conflict) found = .error (.nameTaken name) ↔
      ∃ y, found = some y ∧ y.metadata.labels ≠ x.metadata.labels ∧ name = nameOf x := by
  cases found with
  | none => simp [adoption]
  | some y => grind [adoption, nameOf]

theorem adoption_ne_rejected {conflict : ClusterError} {found : Option Workload}
    {operation message : String} :
    adoption x (.cluster conflict) found ≠ .error (.rejected operation message) := by
  cases found <;> grind [adoption]

theorem run_error_cases {e : CheckError} (hreports : Reports B) (hE : E.Transitive)
    (h : Finishes E (run stop policy x) w (.error e) w') : (∃ operation, e = .cancelled operation) ∨
    (∃ cause, Finishes E (Cluster.call stop policy (.createWorkload x)) w
        (.error (.cluster cause)) w' ∧
      (CheckError.cluster cause).isConflict = false ∧ e = refusal (.cluster cause)) ∨
    ∃ a w₁, Finishes E (Cluster.call stop policy (.createWorkload x)) w
        (.error (.cluster (.api a))) w₁ ∧ a.code = 409 ∧
      ((∃ cause, e = .cluster cause) ∨ ∃ found,
        Finishes E (Cluster.call stop policy (.getWorkload (nameOf x))) w₁ (.ok found) w' ∧
          adoption x (.cluster (.api a)) found = .error e) := by
  rcases finishes_run_iff.mp h with ⟨-, ho⟩ | ⟨e₁, w₁, hcreate, h⟩
  · cases ho
  rcases error_cases hreports hE hcreate with rfl | ⟨cause, rfl⟩
  · rcases h with ⟨-, ho, -⟩ | ⟨hconflict, -⟩
    · exact .inl ⟨_, Except.error.inj ho⟩
    · cases hconflict
  rcases h with ⟨hconflict, ho, rfl⟩ | ⟨hconflict, found, hlook, ho⟩
  · exact .inr (.inl ⟨cause, hcreate, hconflict, Except.error.inj ho⟩)
  · obtain ⟨a, rfl, hcode⟩ := isConflict_iff.mp hconflict
    cases found with
    | error =>
      cases ho
      rcases error_cases hreports hE hlook with rfl | hcluster
      · exact .inl ⟨_, rfl⟩
      · exact .inr (.inr ⟨a, w₁, hcreate, hcode, .inl hcluster⟩)
    | ok found => exact .inr (.inr ⟨a, w₁, hcreate, hcode, .inr ⟨found, hlook, ho.symm⟩⟩)

theorem finishes_nameTaken_iff {name : String} (hreports : Reports B) (hE : E.Transitive) :
    Finishes E (run stop policy x) w (.error (.nameTaken name)) w' ↔ ∃ a w₁ y,
      Finishes E (Cluster.call stop policy (.createWorkload x)) w (.error (.cluster (.api a))) w₁ ∧
      a.code = 409 ∧
      Finishes E (Cluster.call stop policy (.getWorkload (nameOf x))) w₁ (.ok (some y)) w' ∧
      y.metadata.labels ≠ x.metadata.labels ∧ name = nameOf x := by
  constructor
  · intro h
    rcases run_error_cases hreports hE h with ⟨_, he⟩ | ⟨cause, -, -, he⟩ |
      ⟨a, w₁, hcreate, hcode, ⟨_, he⟩ | ⟨found, hlook, he⟩⟩
    · cases he
    · exact absurd he.symm refusal_ne_nameTaken
    · cases he
    · obtain ⟨y, rfl, hlabels, hname⟩ := adoption_eq_nameTaken_iff.mp he
      exact ⟨a, w₁, y, hcreate, hcode, hlook, hlabels, hname⟩
  · rintro ⟨a, w₁, y, hcreate, hcode, hlook, hname⟩
    have htaken : adoption x (.cluster (.api a)) (some y) = .error (.nameTaken name) :=
      adoption_eq_nameTaken_iff.mpr ⟨y, rfl, hname⟩
    exact finishes_run_iff.mpr (.inr ⟨_, w₁, hcreate, .inr
      ⟨isConflict_iff.mpr ⟨a, rfl, hcode⟩, _, hlook, htaken.symm⟩⟩)

theorem finishes_rejected_iff {operation message : String} (hreports : Reports B)
    (hE : E.Transitive) :
    Finishes E (run stop policy x) w (.error (.rejected operation message)) w' ↔ ∃ a,
      Finishes E (Cluster.call stop policy (.createWorkload x)) w (.error (.cluster (.api a))) w' ∧
      a.code ≠ 409 ∧ a.code ≠ 429 ∧ a.code < 500 ∧
      operation = "create workload" ∧ message = a.message := by
  constructor
  · intro h
    rcases run_error_cases hreports hE h with ⟨_, he⟩ | ⟨cause, hcreate, hconflict, he⟩ |
      ⟨a, w₁, -, -, ⟨_, he⟩ | ⟨found, -, he⟩⟩
    · cases he
    · obtain ⟨a, rfl, hrefused⟩ := refusal_eq_rejected_iff.mp he.symm
      refine ⟨a, hcreate, fun h409 => ?_, hrefused⟩
      rw [isConflict_iff.mpr ⟨a, rfl, h409⟩] at hconflict
      cases hconflict
    · cases he
    · exact absurd he adoption_ne_rejected
  · rintro ⟨a, hcreate, h409, hrefused⟩
    refine finishes_run_iff.mpr (.inr ⟨_, w', hcreate, .inl ⟨?_, ?_, rfl⟩⟩)
    · rw [← Bool.not_eq_true]
      intro hconflict
      obtain ⟨_, ha, hcode⟩ := isConflict_iff.mp hconflict
      cases ha
      exact h409 hcode
    · rw [refusal_eq_rejected_iff.mpr ⟨a, rfl, hrefused⟩]

end Outcomes

/-! ### The store -/

section Stores

variable {held : B.State → String → Option Workload} {stop : Signal} {policy : Backoff}
  {x : Workload} {v w w' : World B}

theorem Created.trans {a b c : String → Option Workload} (h₁ : Created x a b)
    (h₂ : Created x b c) : Created x a c := by
  rcases h₁ with rfl | ⟨hfree, y, hy, rfl⟩
  · exact h₂
  rcases h₂ with rfl | ⟨hfree', -⟩
  · exact .inr ⟨hfree, y, hy, rfl⟩
  · simp at hfree'

theorem Created.kept {before after : String → Option Workload} (h : Created x before after)
    {name : String} {y : Workload} (hy : before name = some y) : after name = some y := by
  rcases h with rfl | ⟨hfree, z, -, rfl⟩
  · exact hy
  · have hname : name ≠ nameOf x := by
      rintro rfl
      rw [hfree] at hy
      cases hy
    rwa [Function.update_of_ne hname]

/-- The question whose object holds the name. -/
def LooksFor (x : Workload) (r : Cluster.Request) : Prop :=
  r = .getWorkload (nameOf x)

/-- What the deployment of a workload can ask. -/
def AsksFor (x : Workload) (r : Cluster.Request) : Prop :=
  r = .createWorkload x ∨ LooksFor x r

theorem adopt_looksFor {conflict : CheckError} :
    Uses (S := Cluster) (LooksFor x) (fun _ => False) policy.Faults
      (adopt stop policy x conflict) := by
  have hlooks : LooksFor x (.getWorkload (nameOf x)) := rfl
  apply Uses.bind (Cluster.uses_call hlooks)
  intro found
  cases found <;> exact .pure

theorem run_asksFor :
    Uses (S := Cluster) (AsksFor x) (fun _ => False) policy.Faults (run stop policy x) := by
  apply Uses.bind (Cluster.uses_call (.inl rfl))
  intro created
  cases created with
  | ok => exact .pure
  | error e =>
    dsimp only
    split
    · exact adopt_looksFor.mono (fun _ => .inr) fun _ => id
    · exact .pure

theorem Store.keeps (h : Store B held) (v : World B) :
    Keeps (AsksFor x) (fun _ => False) fun w : World B =>
      Created x (held v.state) (held w.state) where
  call hr hw := by
    rcases hr with rfl | rfl
    · exact hw.trans (h.create_start _ x _)
    · exact hw.trans (.inl (h.look_start _ _ _))
  answer hr hw := by
    rcases hr with rfl | rfl
    · exact hw.trans (h.create_answer _ x _ _)
    · exact hw.trans (.inl (h.look_answer _ _ _ _))
  note hn := hn.elim

/-- At every moment of a deployment at most one object was added, and nothing was changed. -/
theorem Store.created_of_reaches {st : Status B (Except CheckError Unit)} (h : Store B held)
    (hr : Reaches Lifecycle.passing (run stop policy x) v st w') :
    Created x (held v.state) (held w'.state) := by
  have hp : (run stop policy x).Complies (unheard (S := Cluster) (AsksFor x) fun _ => False)
      fun _ => True :=
    Uses.complies (c := unheard (S := Cluster) (AsksFor x) fun _ => False) run_asksFor
      fun _ _ => trivial
  exact (hr.complies (h.keeps v) unheard_heard
    (fun _ _ _ he => ⟨id, fun hw => by rwa [he.state_eq]⟩) hp (fun _ => .inl rfl) trivial).2.1

/-- A creation that succeeds has put the object there, in this attempt or in one before. -/
theorem Store.meets_create (h : Store B held) :
    Meets Lifecycle.passing (fun w => Created x (held v.state) (held w.state))
      (Cluster.call stop policy (.createWorkload x)) v fun o w => o = .ok () →
        ∃ y, held w.state (nameOf x) = some y ∧ y.metadata.labels = x.metadata.labels := by
  apply Cluster.meets_call Lifecycle.passing_transitive (.inl rfl)
  · exact fun w hw => (h.keeps v).call (.inl rfl) hw
  · intro w₀ w₁ hw₀ hpasses hw₁
    have hafter := (h.keeps v).answer (n := (w₀.call (.createWorkload x)).1.1)
      (k := (w₀.call (.createWorkload x)).1.2.1) (.inl rfl) hw₁
    refine ⟨fun hok => ?_, fun _ _ => hafter⟩
    have hstate : w₁.state = (w₀.call (.createWorkload x)).2.state := by
      rcases hpasses with rfl | hpasses
      · rfl
      · exact hpasses.state_eq
    obtain ⟨hfree, hheld⟩ := h.created w₀.now w₁.now x w₀.state w₁.state
      (congrArg held hstate) hok
    rcases hafter with hsame | ⟨-, y, hy, hnew⟩
    · -- nothing was held under the name before the attempt, so nothing was at the beginning
      rcases hw₀ with hw₀ | ⟨-, y, -, hw₀⟩
      · rw [hw₀, ← hsame] at hfree
        exact absurd hheld (by simp [World.answer] at hfree ⊢; exact hfree)
      · rw [hw₀] at hfree
        simp at hfree
    · exact ⟨y, by rw [hnew]; simp, hy⟩
  · intro _ _ _ hok
    cases hok

theorem Store.meets_look (h : Store B held) {name : String} :
    Meets Lifecycle.passing (fun _ => True) (Cluster.call stop policy (.getWorkload name)) v
      fun o w => ∀ found, o = .ok found → found = held w.state name := by
  apply Cluster.meets_call Lifecycle.passing_transitive trivial (fun _ _ => trivial)
  · intro w₀ w₁ _ hpasses _
    refine ⟨fun found hfound => ?_, fun _ _ => trivial⟩
    have hstate : w₁.state = (w₀.call (.getWorkload name)).2.state := by
      rcases hpasses with rfl | hpasses
      · rfl
      · exact hpasses.state_eq
    have hsame : held (w₁.answer (w₀.call (.getWorkload name)).1.1 (.getWorkload name)
        (w₀.call (.getWorkload name)).1.2.1).2.state = held w₁.state := h.look_answer _ _ _ _
    rw [hsame]
    exact h.looked _ _ name w₀.state w₁.state found (congrArg held hstate) hfound
  · intro _ _ _ _ hfound
    cases hfound

theorem Store.held_of_ok (h : Store B held)
    (hok : Finishes Lifecycle.passing (run stop policy x) v (.ok ()) w') :
    ∃ y, held w'.state (nameOf x) = some y ∧ y.metadata.labels = x.metadata.labels := by
  rcases finishes_run_iff.mp hok with ⟨hcreate, -⟩ | ⟨e, w₁, -, ⟨-, ho, -⟩ | ⟨-, found, hlook, ho⟩⟩
  · exact h.meets_create.of_reaches (fun _ _ _ hw he => by rwa [he.state_eq]) hcreate rfl
  · cases ho
  · have hfound := h.meets_look.of_reaches (fun _ _ _ _ _ => trivial) hlook
    rcases found with e | _ | y
    · cases ho
    · cases ho
    · refine ⟨y, (hfound _ rfl).symm, ?_⟩
      simp only [Except.bind, adoption] at ho
      split at ho
      · assumption
      · cases ho

end Stores

/-! ### The order of the attempts -/

section Order

variable {stop : Signal} {policy : Backoff} {x : Workload} {v w w' : World B}

/-- After what decides a creation there is no other attempt. -/
def InOrder (events : List (Event Cluster)) : Prop :=
  events.Pairwise fun e e' => Decides e → ¬ Attempts e'

theorem not_isTransient {e : CheckError} (h : Definitive (.error e)) : e.isTransient = false := by
  obtain ⟨a, rfl, h429, h500⟩ := h
  simpa [CheckError.isTransient, CheckError.isTransientCode, h429] using h500

theorem InOrder.of_undecided {events : List (Event Cluster)} (h : ∀ e ∈ events, ¬ Decides e) :
    InOrder events :=
  List.pairwise_of_forall_mem_list fun e he _ _ hdecides => absurd hdecides (h e he)

theorem InOrder.append {events more : List (Event Cluster)} (h : InOrder events)
    (hmore : ∀ e ∈ more, ¬ Attempts e) : InOrder (events ++ more) :=
  List.pairwise_append.mpr ⟨h, List.pairwise_of_forall_mem_list fun _ _ e' he' _ => hmore e' he',
    fun _ _ e' he' _ => hmore e' he'⟩

theorem since_of_passes {P : Event Cluster → Prop} (hP : ∀ t entry, P (.noted t entry))
    (h : w.Passes w') : World.Since P w w' := by
  obtain ⟨stops, hstops⟩ := h.trace_eq
  exact ⟨_, hstops, by simpa using fun t _ => hP t _⟩

theorem create_inOrder : Meets Lifecycle.passing (World.Since (fun e => ¬ Decides e) v)
    (Cluster.call stop policy (.createWorkload x)) v fun _ w =>
      ∃ events, v.Adds events w ∧ InOrder events := by
  apply Cluster.meets_attempts Lifecycle.passing_transitive (.refl v)
  · exact fun w hw _ => hw.trans (.single (World.adds_call ..) id)
  · intro w₀ w₁ _ _ hw₁ _
    obtain ⟨events, hadds, hundecided⟩ := hw₁
    have hanswer := World.adds_answer w₁ (w₀.call (.createWorkload x)).1.1 (.createWorkload x)
      (w₀.call (.createWorkload x)).1.2.1
    refine ⟨⟨_, hadds.trans hanswer, (InOrder.of_undecided hundecided).append ?_⟩,
      fun e he ht => ?_⟩
    · simp [Attempts]
    · refine ⟨_, hadds.trans hanswer, fun e' he' => ?_⟩
      rcases List.mem_append.mp he' with he' | he'
      · exact hundecided e' he'
      · obtain rfl := List.mem_singleton.mp he'
        rw [he]
        intro hdefinitive
        rw [not_isTransient hdefinitive] at ht
        cases ht
  · rintro w ⟨events, hadds, hundecided⟩ _
    exact ⟨events, hadds, .of_undecided hundecided⟩

theorem not_attempts_of_adopt {conflict : CheckError} {st : Status B (Except CheckError Unit)}
    (hr : Reaches Lifecycle.passing (adopt stop policy x conflict) w st w') :
    World.Since (fun e => ¬ Attempts e) w w' := by
  have hkeeps : Keeps (S := Cluster) (LooksFor x) (fun _ => False)
      (World.Since (B := B) (fun e => ¬ Attempts e) w) :=
    World.Since.keeps (by rintro _ _ _ rfl; exact id) (fun _ _ _ _ _ => id)
      (fun _ _ => False.elim) w
  have hp : (adopt stop policy x conflict).Complies
      (unheard (S := Cluster) (LooksFor x) fun _ => False) fun _ => True :=
    Uses.complies (c := unheard (S := Cluster) (LooksFor x) fun _ => False) adopt_looksFor
      fun _ _ => trivial
  exact (hr.complies hkeeps unheard_heard
    (fun _ _ _ he => ⟨id, fun hw => hw.trans (since_of_passes (fun _ _ => id) he)⟩) hp
    (fun _ => .refl w) trivial).2.1

/-- However far a deployment has come, no attempt has followed a definitive answer. -/
theorem inOrder_of_reaches {st : Status B (Except CheckError Unit)}
    (hr : Reaches Lifecycle.passing (run stop policy x) v st w') (hst : st ≠ .exhausted) :
    ∃ events, v.Adds events w' ∧ InOrder events := by
  have hstable (t : Nat) (w₁ w₂ : World B) (hw : World.Since (fun e => ¬ Decides e) v w₁)
      (he : Lifecycle.passing t w₁ w₂) : World.Since (fun e => ¬ Decides e) v w₂ :=
    hw.trans (since_of_passes (fun _ _ => id) he)
  rcases hr.bind_cases with ⟨st₁, hcreate, hend⟩ | ⟨created, w₁, hcreate, hnext⟩
  · have hstands := create_inOrder.of_reaches hstable hcreate
    cases hend with
    | suspended | crashed =>
      obtain ⟨events, hadds, hundecided⟩ := hstands
      exact ⟨events, hadds, .of_undecided hundecided⟩
    | exhausted => exact absurd rfl hst
  · obtain ⟨events, hadds, horder⟩ := create_inOrder.of_reaches hstable hcreate
    have hrest : World.Since (fun e => ¬ Attempts e) w₁ w' := by
      rcases created with e | ⟨⟨⟩⟩
      · dsimp only at hnext
        split at hnext
        · exact not_attempts_of_adopt hnext
        · obtain ⟨rfl, -⟩ := hnext.pure_cases
          exact .refl _
      · obtain ⟨rfl, -⟩ := hnext.pure_cases
        exact .refl _
    obtain ⟨more, hmore, hnone⟩ := hrest
    exact ⟨events ++ more, hadds.trans hmore, horder.append hnone⟩

end Order

/-- Deployment in a store that answers the creation of what it holds with a conflict: however often
an answer is lost, and whether or not the creation had taken effect then. -/
theorem deploys_once {held : B.State → String → Option Workload} (hstore : Store B held)
    (hreports : Reports B) (stop : Signal) (policy : Backoff) (x : Workload) (v w' : World B) :
    (Finishes Lifecycle.passing (run stop policy x) v (.ok ()) w' →
      ∃ y, held w'.state (nameOf x) = some y ∧ y.metadata.labels = x.metadata.labels) ∧
    (∀ st, Reaches Lifecycle.passing (run stop policy x) v st w' →
      Created x (held v.state) (held w'.state) ∧
        ∀ name y, held v.state name = some y → held w'.state name = some y) ∧
    (∀ name, Finishes Lifecycle.passing (run stop policy x) v (.error (.nameTaken name)) w' ↔
      ∃ a w₁ y, Finishes Lifecycle.passing (Cluster.call stop policy (.createWorkload x)) v
          (.error (.cluster (.api a))) w₁ ∧ a.code = 409 ∧
        Finishes Lifecycle.passing (Cluster.call stop policy (.getWorkload (nameOf x))) w₁
          (.ok (some y)) w' ∧ y.metadata.labels ≠ x.metadata.labels ∧ name = nameOf x) ∧
    (∀ operation message,
      Finishes Lifecycle.passing (run stop policy x) v (.error (.rejected operation message)) w' ↔
      ∃ a, Finishes Lifecycle.passing (Cluster.call stop policy (.createWorkload x)) v
          (.error (.cluster (.api a))) w' ∧ a.code ≠ 409 ∧ a.code ≠ 429 ∧ a.code < 500 ∧
        operation = "create workload" ∧ message = a.message) ∧
    (∀ st, Reaches Lifecycle.passing (run stop policy x) v st w' → st ≠ .exhausted →
      ∃ events, v.Adds events w' ∧ InOrder events) ∧
    ∀ a w₁, Finishes Lifecycle.passing (Cluster.call stop policy (.createWorkload x)) v
        (.error (.cluster (.api a))) w₁ → a.code = 409 →
      Finishes Lifecycle.passing (Cluster.call stop policy (.getWorkload (nameOf x))) w₁
        (.ok none) w' →
      Finishes Lifecycle.passing (run stop policy x) v (.error (.cluster (.api a))) w' := by
  refine ⟨hstore.held_of_ok, fun st hr => ?_,
    fun name => finishes_nameTaken_iff hreports Lifecycle.passing_transitive,
    fun _ _ => finishes_rejected_iff hreports Lifecycle.passing_transitive,
    fun st hr hst => inOrder_of_reaches hr hst, fun a w₁ hcreate hcode hlook => ?_⟩
  · have hcreated := hstore.created_of_reaches hr
    exact ⟨hcreated, fun name y hy => hcreated.kept hy⟩
  · exact finishes_run_iff.mpr (.inr ⟨_, w₁, hcreate, .inr
      ⟨isConflict_iff.mpr ⟨a, rfl, hcode⟩, _, hlook, rfl⟩⟩)

/-! ### A store that loses answers -/

namespace Idempotence

/-- What becomes of a creation where the name is free. -/
inductive Fate where
  | done
  /-- It takes effect, but its answer is lost. -/
  | lost
  /-- It never reaches the server. -/
  | missed

structure Shelf where
  workloads : List Workload
  /-- The fates of the next creations; those after them are done. -/
  fates : List Fate

def Shelf.held (s : Shelf) (name : String) : Option Workload :=
  s.workloads.find? fun y => nameOf y = name

def unreachable : CheckError :=
  .cluster (.service "connection reset")

def conflict : CheckError :=
  .cluster (.api ⟨"Failure", "already exists", "AlreadyExists", 409⟩)

def create (x : Workload) (s : Shelf) : Except CheckError Unit × Shelf :=
  if (s.held (nameOf x)).isSome then (.error conflict, s)
  else match s.fates.headD .done with
    | .done => (.ok (), ⟨x :: s.workloads, s.fates.tail⟩)
    | .lost => (.error unreachable, ⟨x :: s.workloads, s.fates.tail⟩)
    | .missed => (.error unreachable, ⟨s.workloads, s.fates.tail⟩)

def shelf : Behaviour Cluster where
  State := Shelf
  Ticket := Unit
  start _ _ s := (.zero, (), s)
  answer _ r _ s :=
    match r with
    | .listNodes => (.ok [], s)
    | .listPods _ => (.ok [], s)
    | .listWorkloads _ _ => (.ok ⟨s.workloads, none⟩, s)
    | .createWorkload x => create x s
    | .deleteWorkload _ | .deletePods _ | .deletePod _ => (.ok (), s)
    | .getPod _ => (.ok none, s)
    | .getWorkload name => (.ok (s.held name), s)

theorem held_cons (x : Workload) (s : Shelf) (fates : List Fate) :
    Shelf.held ⟨x :: s.workloads, fates⟩ = Function.update s.held (nameOf x) (some x) := by
  funext name
  by_cases hname : nameOf x = name
  · subst hname
    simp [Shelf.held]
  · rw [Function.update_of_ne (Ne.symm hname)]
    simp [Shelf.held, hname]

theorem create_created (x : Workload) (s : Shelf) : Created x s.held (create x s).2.held := by
  unfold create
  split
  · exact .inl rfl
  · next hfree =>
    have hadded : Created x s.held (Shelf.held ⟨x :: s.workloads, s.fates.tail⟩) :=
      .inr ⟨by simpa using hfree, x, rfl, held_cons x s _⟩
    split
    · exact hadded
    · exact hadded
    · exact .inl rfl

theorem of_create_ok {x : Workload} {s : Shelf} (h : (create x s).1 = .ok ()) :
    s.held (nameOf x) = none ∧ ((create x s).2.held (nameOf x)).isSome := by
  unfold create at h ⊢
  split at h
  · cases h
  · next hfree =>
    rw [if_neg hfree]
    split at h
    · exact ⟨by simpa using hfree, by simp [Shelf.held]⟩
    · cases h
    · cases h

theorem shelf_store : Store shelf Shelf.held where
  create_start _ _ _ := .inl rfl
  create_answer _ x _ s := create_created x s
  created _ _ x s s' hsame hok := by
    obtain ⟨hfree, hheld⟩ := of_create_ok hok
    have hsame : Shelf.held s' = Shelf.held s := hsame
    exact ⟨hsame ▸ hfree, hheld⟩
  look_start _ _ _ := rfl
  look_answer _ _ _ _ := rfl
  looked _ _ _ _ _ _ _ hfound := by cases hfound; rfl

theorem shelf_reports : Reports shelf := by
  intro t r k s e he
  cases r with
  | createWorkload x =>
    change (create x s).1 = .error e at he
    unfold create at he
    split at he
    · exact ⟨_, (Except.error.inj he).symm⟩
    · split at he
      · cases he
      · exact ⟨_, (Except.error.inj he).symm⟩
      · exact ⟨_, (Except.error.inj he).symm⟩
  | _ => cases he

def probe : Workload :=
  { (default : Workload) with metadata := { name := some "probe", labels := some ∅ } }

def foreign : Workload :=
  { (default : Workload) with metadata := { name := some "probe" } }

/-- Nothing is held, and the first two creations go wrong. -/
def fickle : World shelf :=
  .initial (⟨[], [.missed, .lost]⟩ : Shelf)

def taken : World shelf :=
  .initial (⟨[foreign], []⟩ : Shelf)

theorem finishes_of_yields {α : Type} {p : Process Cluster α} {w w' : World B} {a : α}
    (h : Yields p w a w') : Finishes Lifecycle.passing p w a w' :=
  Lifecycle.passing_of_yields h

end Idempotence

open Idempotence in
/-- The theorem where the first attempt is lost on its way and the answer to the second on its way
back, and where the name is held by another object. -/
theorem deploys_once_lossy : Store shelf Shelf.held ∧ Reports shelf ∧
    (∃ w', Finishes Lifecycle.passing (run .run Config.standard.apiBackoff probe) fickle (.ok ())
        w' ∧ ∃ y, Shelf.held w'.state "probe" = some y ∧
          y.metadata.labels = probe.metadata.labels) ∧
    ∃ w' a w₁, Finishes Lifecycle.passing (run .run Config.standard.apiBackoff probe) taken
        (.error (.nameTaken "probe")) w' ∧
      Finishes Lifecycle.passing
        (Cluster.call .run Config.standard.apiBackoff (.createWorkload probe)) taken
        (.error (.cluster (.api a))) w₁ ∧ a.code = 409 ∧
      Shelf.held w'.state "probe" = some foreign := by
  refine ⟨shelf_store, shelf_reports, ?_, ?_⟩
  · have hok : Finishes Lifecycle.passing (run .run Config.standard.apiBackoff probe) fickle
        (.ok ()) _ := finishes_of_yields (Yields.of_endsWith 200 20 (by decide +kernel))
    exact ⟨_, hok, (deploys_once shelf_store shelf_reports .run Config.standard.apiBackoff probe
      fickle _).1 hok⟩
  · have htaken : Finishes Lifecycle.passing (run .run Config.standard.apiBackoff probe) taken
        (.error (.nameTaken "probe")) _ :=
      finishes_of_yields (Yields.of_endsWith 200 20 (by decide +kernel))
    obtain ⟨-, hkept, hname, -⟩ := deploys_once shelf_store shelf_reports .run
      Config.standard.apiBackoff probe taken _
    obtain ⟨a, w₁, y, hcreate, hcode, -⟩ := (hname "probe").mp htaken
    exact ⟨_, a, w₁, htaken, hcreate, hcode, (hkept _ htaken).2 "probe" foreign rfl⟩

end Deployment
end NodeCoverage
