import NodeCoverage.Proofs.Check.Window
import NodeCoverage.Proofs.Process.Abandon
/-!
# What the timeout of verification says

When the deadline comes, verification names the nodes that were missing when some were missing last.
A clean look since then does not make it forget them. The timeout therefore names the nodes that the
last successful look has shown, or none if that look was clean, unless coverage has come after an
unclean look and had not lasted when the deadline came: it then names nodes that are covered.
-/

namespace NodeCoverage
namespace Verification

open Process (Finishes Reaches Rounds Yields)

variable {B : Behaviour Cluster}

/-! ### What the looks have shown -/

/-- The nodes that were missing in the last look that succeeded. -/
def lastMissing (looks : List Look) : List String :=
  ((looks.filterMap Except.toOption).getLast?).getD []

/-- The nodes that were missing in the last look that was unclean. -/
def remembered (looks : List Look) : List String :=
  (((looks.filterMap Except.toOption).filter (· ≠ [])).getLast?).getD []

/-- Nodes were missing, and the last look that succeeded has shown that they no longer are. -/
def Recovered (looks : List Look) : Prop :=
  lastMissing looks = [] ∧ ∃ seen ∈ looks, seen.isUnclean = true

/-- What is wanting, in words. -/
def wanting (missing : List String) : String :=
  if missing.isEmpty then "coverage never stayed complete for the full stability window"
  else "nodes still missing a running probe pod: " ++ String.intercalate ", " missing

/-- A look is not the last one: it is no abandoned one, and it is not the one with which there are
enough clean looks. -/
def LeavesOpen (required : Nat) (looks : List Look) (seen : Look) : Prop :=
  (seen.isClean = true → cleanSince (looks ++ [seen]) < required) ∧ seen.isCancelled = false

instance {looks : List Look} : Decidable (Recovered looks) :=
  inferInstanceAs (Decidable (_ ∧ _))

instance {required : Nat} {looks : List Look} {seen : Look} :
    Decidable (LeavesOpen required looks seen) :=
  inferInstanceAs (Decidable (_ ∧ _))

/-- What verification has in mind after some looks. -/
def tally (looks : List Look) : Looks :=
  ⟨cleanSince looks, remembered looks⟩

section Definitions

variable (E : Surroundings B) (config : Config) (stop : Signal) (deadline : Nat)
  (set : ToleranceSet) (workloadName : String)

/-- Looks since `w`, each after a pause that was not cut short, with no interrupt until then, and
none of them the last. -/
inductive Watched (w : World B) : List Look → World B → Prop
  | none : Watched w [] w
  | next {looks : List Look} {seen : Look} {w₁ w₂ w₃ : World B} :
    Watched w looks w₁ →
    Finishes E (Process.pause stop deadline config.pollInterval) w₁ .over w₂ →
    w₂.fired .shutdown = false → Finishes E (look config stop set workloadName) w₂ seen w₃ →
    LeavesOpen config.stabilityTicks looks seen → Watched w (looks ++ [seen]) w₃

end Definitions

section

variable {looks : List Look} {seen : Look} {required : Nat}

theorem lastMissing_concat :
    lastMissing (looks ++ [seen]) = seen.toOption.getD (lastMissing looks) := by
  cases seen <;> simp [lastMissing, Except.toOption]

@[simp] theorem remembered_clean : remembered (looks ++ [.ok []]) = remembered looks := by
  simp [remembered, Except.toOption]

@[simp] theorem remembered_unclean {node : String} {nodes : List String} :
    remembered (looks ++ [.ok (node :: nodes)]) = node :: nodes := by
  simp [remembered, Except.toOption]

@[simp] theorem remembered_error {e : CheckError} :
    remembered (looks ++ [.error e]) = remembered looks := by
  rw [remembered, List.filterMap_append, List.filterMap_cons_none rfl, List.filterMap_nil,
    List.append_nil, remembered]

theorem remembered_eq_nil_iff :
    remembered looks = [] ↔ ∀ seen ∈ looks, seen.isUnclean = false := by
  induction looks using List.reverseRecOn with
  | nil => simp [remembered]
  | append_singleton looks seen ih =>
    match seen with
    | .ok [] | .ok (_ :: _) | .error _ => simp [ih, or_imp, forall_and, Look.isUnclean]

theorem remembered_eq_cons_iff {node : String} {nodes : List String} :
    remembered looks = node :: nodes ↔ ∃ early late, looks = early ++ .ok (node :: nodes) :: late ∧
      ∀ seen ∈ late, seen.isUnclean = false := by
  constructor
  · induction looks using List.reverseRecOn with
    | nil =>
      intro h
      cases h
    | append_singleton looks seen ih =>
      intro h
      rcases seen with e | _ | ⟨first, others⟩
      · rw [remembered_error] at h
        obtain ⟨early, late, rfl, hlate⟩ := ih h
        exact ⟨early, late ++ [.error e], by simp,
          by simpa [or_imp, forall_and, Look.isUnclean] using hlate⟩
      · rw [remembered_clean] at h
        obtain ⟨early, late, rfl, hlate⟩ := ih h
        exact ⟨early, late ++ [.ok []], by simp,
          by simpa [or_imp, forall_and, Look.isUnclean] using hlate⟩
      · rw [remembered_unclean] at h
        exact ⟨looks, [], by rw [h], List.forall_mem_nil _⟩
  · rintro ⟨early, late, rfl, hlate⟩
    induction late using List.reverseRecOn with
    | nil => exact remembered_unclean
    | append_singleton late seen ih =>
      rw [← List.cons_append, ← List.append_assoc]
      have hbefore := ih fun seen hseen => hlate seen (List.mem_append_left _ hseen)
      rcases seen with e | _ | ⟨first, others⟩
      · exact remembered_error.trans hbefore
      · exact remembered_clean.trans hbefore
      · cases hlate (.ok (first :: others)) (by simp)

theorem remembered_eq_lastMissing (h : lastMissing looks ≠ []) :
    remembered looks = lastMissing looks := by
  induction looks using List.reverseRecOn with
  | nil => exact absurd rfl h
  | append_singleton looks seen ih =>
    rw [lastMissing_concat] at h ⊢
    match seen with
    | .ok [] => exact absurd rfl h
    | .ok (_ :: _) => exact remembered_unclean
    | .error _ => rw [remembered_error, ih h]; rfl

/-- The timeout is truthful unless the nodes have recovered. -/
theorem remembered_eq_lastMissing_iff :
    remembered looks = lastMissing looks ↔ ¬ Recovered looks := by
  have hunclean : remembered looks ≠ [] ↔ ∃ seen ∈ looks, seen.isUnclean = true := by
    simp [remembered_eq_nil_iff]
  by_cases h : lastMissing looks = []
  · rw [h, Recovered, ← hunclean]
    tauto
  · exact ⟨fun _ hrecovered => h hrecovered.1, fun _ => remembered_eq_lastMissing h⟩

/-- Nodes that have recovered were missing in an unclean look that clean ones have followed. -/
theorem Recovered.exists_split (h : Recovered looks) : ∃ early node nodes late,
    looks = early ++ .ok (node :: nodes) :: late ∧ (∀ seen ∈ late, seen.isUnclean = false) ∧
      .ok [] ∈ late ∧ remembered looks = node :: nodes := by
  obtain ⟨hlast, seen, hseen, hunclean⟩ := h
  cases hremembered : remembered looks with
  | nil => rw [remembered_eq_nil_iff.mp hremembered seen hseen] at hunclean; cases hunclean
  | cons node nodes =>
    obtain ⟨early, late, rfl, hlate⟩ := remembered_eq_cons_iff.mp hremembered
    refine ⟨early, node, nodes, late, rfl, hlate, ?_, rfl⟩
    by_contra hnone
    have hfailed : late.filterMap Except.toOption = [] := by
      refine List.filterMap_eq_nil_iff.mpr fun seen hseen => ?_
      match seen, hlate seen hseen with
      | .ok [], _ => exact absurd hseen hnone
      | .error _, _ => rfl
    simp [lastMissing, Except.toOption, hfailed] at hlast

theorem after_tally_eq_inl_iff {l : Looks} : (tally looks).after required seen = .inl l ↔
    LeavesOpen required looks seen ∧ l = tally (looks ++ [seen]) := by
  unfold LeavesOpen
  rw [Looks.after_eq_inl_iff]
  constructor
  · rintro (⟨rfl, hfew, rfl⟩ | ⟨_, _, rfl, rfl⟩ | ⟨_, rfl, he, rfl⟩)
    · exact ⟨⟨fun _ => by rwa [cleanSince_clean], rfl⟩, by simp [tally]⟩
    · exact ⟨⟨nofun, rfl⟩, by simp [tally]⟩
    · exact ⟨⟨nofun, he⟩, by simp [tally]⟩
  · rintro ⟨⟨hopen, hcancelled⟩, rfl⟩
    match seen with
    | .ok [] => exact .inl ⟨rfl, by simpa [tally] using hopen rfl, by simp [tally]⟩
    | .ok (node :: nodes) => exact .inr (.inl ⟨node, nodes, rfl, by simp [tally]⟩)
    | .error e => exact .inr (.inr ⟨e, rfl, hcancelled, by simp [tally]⟩)

end

/-! ### Rounds -/

variable {E : Surroundings B} {config : Config} {stop : Signal} {deadline : Nat}
  {set : ToleranceSet} {workloadName : String} {w w' : World B} {l : Looks}

theorem rounds_round_iff : Rounds E (round config stop deadline set workloadName) .none w l w' ↔
    ∃ looks, Watched E config stop deadline set workloadName w looks w' ∧ l = tally looks := by
  constructor
  · intro h
    induction h with
    | none => exact ⟨[], .none, rfl⟩
    | next _ hround ih =>
      obtain ⟨looks, hwatched, rfl⟩ := ih
      rcases finishes_round_iff.mp hround with ⟨-, hx⟩ | ⟨-, hx⟩ | ⟨-, -, hx⟩ |
        ⟨_, seen, hpause, hfired, hlook, hx⟩
      · cases hx
      · cases hx
      · cases hx
      · obtain ⟨hopen, rfl⟩ := after_tally_eq_inl_iff.mp hx.symm
        exact ⟨looks ++ [seen], hwatched.next hpause hfired hlook hopen, rfl⟩
  · rintro ⟨looks, hwatched, rfl⟩
    induction hwatched with
    | none => exact .none
    | next _ hpause hfired hlook hopen ih =>
      exact .next ih (finishes_round_iff.mpr (.inr (.inr (.inr ⟨_, _, hpause, hfired, hlook,
        (after_tally_eq_inl_iff.mpr ⟨hopen, rfl⟩).symm⟩))))

/-- Verification times out in the pause that the deadline cuts short, and names what it remembers of
the looks before. -/
theorem finishes_timeout_iff {phase detail : String} :
    Finishes E (run config stop deadline set workloadName) w (.error (.timeout phase detail)) w' ↔
      phase = "verify" ∧ ∃ looks w₁, Watched E config stop deadline set workloadName w looks w₁ ∧
        Finishes E (Process.pause stop deadline config.pollInterval) w₁ .overdue w' ∧
        detail = wanting (remembered looks) := by
  unfold run
  rw [Finishes.iterate_iff]
  constructor
  · rintro ⟨l, w₁, hrounds, hround⟩
    obtain ⟨looks, hwatched, rfl⟩ := rounds_round_iff.mp hrounds
    rcases finishes_round_iff.mp hround with ⟨-, hx⟩ | ⟨hpause, hx⟩ | ⟨-, -, hx⟩ |
      ⟨_, _, -, -, -, hx⟩
    · cases hx
    · cases hx
      exact ⟨rfl, looks, w₁, hwatched, hpause, rfl⟩
    · cases hx
    · obtain ⟨-, -, ho⟩ | ⟨e, -, he, ho⟩ := Looks.after_eq_inr_iff.mp hx.symm
      · cases ho
      · cases ho
        cases he
  · rintro ⟨rfl, looks, w₁, hwatched, hpause, rfl⟩
    exact ⟨tally looks, w₁, rounds_round_iff.mpr ⟨looks, hwatched, rfl⟩,
      finishes_round_iff.mpr (.inr (.inl ⟨hpause, rfl⟩))⟩

/-- When verification times out, it names the nodes that were missing in the last successful look,
and none if there were none or no look succeeded, exactly if that look was not a clean one after
which nodes that were missing had recovered. If they had, it names the nodes of the last unclean
look. -/
theorem timeout_iff_names_remembered {phase detail : String} :
    Finishes E (run config stop deadline set workloadName) w (.error (.timeout phase detail)) w' ↔
      phase = "verify" ∧ ∃ looks w₁, Watched E config stop deadline set workloadName w looks w₁ ∧
        Finishes E (Process.pause stop deadline config.pollInterval) w₁ .overdue w' ∧
        deadline ≤ w'.now ∧
        (¬ Recovered looks ∧ detail = wanting (lastMissing looks) ∨
          Recovered looks ∧ ∃ early node nodes late,
            looks = early ++ .ok (node :: nodes) :: late ∧
            (∀ seen ∈ late, seen.isUnclean = false) ∧ .ok [] ∈ late ∧
            detail = "nodes still missing a running probe pod: " ++
              String.intercalate ", " (node :: nodes)) := by
  rw [finishes_timeout_iff]
  refine and_congr_right fun _ => exists_congr fun looks => exists_congr fun w₁ =>
    and_congr_right fun _ => and_congr_right fun hpause => ?_
  have hlate : deadline ≤ w'.now := by
    rcases hpause.pause_cases with ⟨hhow, -⟩ | ⟨-, hlate⟩ | ⟨hhow, -⟩
    · cases hhow
    · exact hlate
    · cases hhow
  by_cases hrecovered : Recovered looks
  · obtain ⟨early, node, nodes, late, hsplit, hunclean, hclean, hremembered⟩ :=
      hrecovered.exists_split
    constructor
    · rintro rfl
      exact ⟨hlate, .inr ⟨hrecovered, early, node, nodes, late, hsplit, hunclean, hclean,
        by rw [hremembered]; rfl⟩⟩
    · rintro ⟨-, ⟨hnot, -⟩ | ⟨-, early, node, nodes, late, hsplit, hunclean, -, rfl⟩⟩
      · exact absurd hrecovered hnot
      · rw [remembered_eq_cons_iff.mpr ⟨early, late, hsplit, hunclean⟩]
        rfl
  · rw [remembered_eq_lastMissing_iff.mpr hrecovered]
    simp [hrecovered, hlate]

/-! ### Nodes that recover -/

namespace Window

def late : Node :=
  ⟨{ name := some "late" }, none, none⟩

/-- A node is missing, and no longer is at the next look. -/
def recovering : World showing :=
  .initial [.ok [late], .ok []]

/-- A node is missing, and the next look fails. -/
def obscured : World showing :=
  .initial [.ok [late], .error refused]

def halfPast : Nat :=
  (Duration.ofSeconds 5).nanos / 2

def paused (w : World showing) : World showing :=
  w.advance (Clock.timer (min halfPast (Clock.after w.now pair.pollInterval)))

def looked (w : World showing) : Status showing Look × World showing :=
  (Suspended.ready (look pair .run .empty "probe")).runUntil 200 none 20 (paused w)

theorem fired_looked {w : World showing} {seen : Look} (hf : ∀ s, w.fired s = false)
    (hlook : (looked w).1.endsWith seen = true) (s : Signal) : (looked w).2.fired s = false :=
  ((Yields.of_endsWith 200 20 hlook).fired_eq s).trans (hf s)

theorem watched_next {w v : World showing} {looks : List Look} {seen : Look}
    (hwatched : Watched .alone pair .run halfPast .empty "probe" w looks v)
    (hf : ∀ s, v.fired s = false) (hpause : (paused v).now < halfPast)
    (hlook : (looked v).1.endsWith seen = true) (hopen : LeavesOpen 2 looks seen) :
    Watched .alone pair .run halfPast .empty "probe" w (looks ++ [seen]) (looked v).2 :=
  hwatched.next ((Yields.pause_iff (hf .run)).mpr ⟨(if_neg (Nat.not_le.mpr hpause)).symm, rfl⟩)
    (hf .shutdown) (Yields.of_endsWith 200 20 hlook) hopen

theorem exists_watched (w : World showing) (seen : Look) (hf : ∀ s, w.fired s = false)
    (hfirst : (looked w).1.endsWith (.ok ["late"]) = true)
    (hsecond : (looked (looked w).2).1.endsWith seen = true)
    (hopen : LeavesOpen 2 [.ok ["late"]] seen) (hpause : (paused (looked w).2).now < halfPast)
    (hlate : halfPast ≤ (paused (looked (looked w).2).2).now) : ∃ w₁ w',
      Watched .alone pair .run halfPast .empty "probe" w [.ok ["late"], seen] w₁ ∧
      Yields (Process.pause .run halfPast pair.pollInterval) w₁ .overdue w' ∧
      halfPast ≤ w'.now := by
  have hf₁ := fired_looked hf hfirst
  have hpaused : (paused w).now < halfPast :=
    calc (paused w).now ≤ (looked w).2.now :=
          (Reaches.meanwhile (Yields.of_endsWith 200 20 hfirst)).2
      _ ≤ (paused (looked w).2).now := Nat.le_max_left ..
      _ < halfPast := hpause
  have hwatched := watched_next (watched_next .none hf hpaused hfirst (by decide)) hf₁ hpause
    hsecond hopen
  exact ⟨_, _, hwatched, (Yields.pause_iff (fired_looked hf₁ hsecond .run)).mpr
    ⟨(if_pos hlate).symm, rfl⟩, hlate⟩

end Window

/-- The theorem for a node that has recovered, and for one that the last good look has missed. -/
theorem timeout_iff_names_remembered_late :
    (Recovered [.ok ["late"], .ok []] ∧ ∃ w',
      Yields (run Window.pair .run Window.halfPast .empty "probe") Window.recovering
        (.error (.timeout "verify" "nodes still missing a running probe pod: late")) w') ∧
    ¬ Recovered [.ok ["late"], .error Window.refused] ∧ ∃ w',
      Yields (run Window.pair .run Window.halfPast .empty "probe") Window.obscured
        (.error (.timeout "verify" (wanting ["late"]))) w' := by
  refine ⟨⟨by decide, ?_⟩, by decide, ?_⟩
  · obtain ⟨w₁, w', hwatched, hpause, hlate⟩ := Window.exists_watched Window.recovering
      (.ok []) (fun _ => rfl) (by decide +kernel) (by decide +kernel) (by decide)
      (by decide +kernel) (by decide +kernel)
    exact ⟨w', timeout_iff_names_remembered.mpr ⟨rfl, _, w₁, hwatched, hpause, hlate,
      .inr ⟨by decide, [], "late", [], [.ok []], rfl, by decide, by simp, rfl⟩⟩⟩
  · obtain ⟨w₁, w', hwatched, hpause, hlate⟩ := Window.exists_watched Window.obscured
      (.error Window.refused) (fun _ => rfl) (by decide +kernel) (by decide +kernel)
      (by decide) (by decide +kernel) (by decide +kernel)
    exact ⟨w', timeout_iff_names_remembered.mpr ⟨rfl, _, w₁, hwatched, hpause, hlate,
      .inl ⟨by decide, rfl⟩⟩⟩

/-- A timeout may name nodes of which the last successful look has shown none. -/
theorem not_always_naming_last_missing : ¬ ∀ (B : Behaviour Cluster) (config : Config)
    (stop : Signal) (deadline : Nat) (set : ToleranceSet) (workloadName : String)
    (w w₁ w' : World B) (looks : List Look) (detail : String),
    Watched .alone config stop deadline set workloadName w looks w₁ →
    Yields (Process.pause stop deadline config.pollInterval) w₁ .overdue w' →
    Yields (run config stop deadline set workloadName) w (.error (.timeout "verify" detail)) w' →
    detail = wanting (lastMissing looks) := by
  intro h
  obtain ⟨w₁, w', hwatched, hpause, -⟩ := Window.exists_watched Window.recovering
    (.ok []) (fun _ => rfl) (by decide +kernel) (by decide +kernel) (by decide)
    (by decide +kernel) (by decide +kernel)
  have hrun := finishes_timeout_iff.mpr ⟨rfl, _, w₁, hwatched, hpause, rfl⟩
  have hnames := h _ _ _ _ _ _ _ w₁ w' _ _ hwatched hpause hrun
  revert hnames
  decide +kernel

end Verification
end NodeCoverage
