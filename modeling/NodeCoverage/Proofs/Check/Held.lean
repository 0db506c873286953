import NodeCoverage.Proofs.Check.Course
import NodeCoverage.Proofs.Check.Footprint
import NodeCoverage.Proofs.Process.Recorded
/-!
# An object that was there before

An object may be held under the name of a run's workload before the run first tries to create it.
The calls that are recorded tell whether it was there then, and whether it was still there when the
workload was to be deleted, which strikes it; the log tells whether the run has been told of it. A
run goes from state to state in these respects, and only three kinds of calls matter to that: to
create a workload, and to look up or delete the one of the name.
-/

namespace NodeCoverage

variable {B : Behaviour Cluster}

/-- The calls since the first attempt to create a workload. -/
def World.sinceCreate (w : World B.recorded) : List (Sighting B) :=
  w.record.dropWhile fun c => !c.request.isCreate

/-- The cluster keeps an object under this name, however time passes and whatever it is asked,
until it is asked to delete the workload of that name. Whose object it is it does not say. -/
structure Persists (B : Behaviour Cluster) (name : String) (Held : Nat → B.State → Prop) :
    Prop where
  passes : ∀ {t t' s}, Held t s → t ≤ t' → Held t' s
  start : ∀ {t r s}, r ≠ .deleteWorkload name → Held t s → Held t (B.start t r s).2.2
  answer : ∀ {t r k s}, r ≠ .deleteWorkload name → Held t s → Held t (B.answer t r k s).2
  silent : ∀ {t r k s e}, (B.answer t r k s).1 = .error e → e.isNameTaken = false

/-- A lookup of the name was answered with an object that has other labels. -/
def World.Found (w : World B) (name : String) (labels : Labels) : Prop :=
  ∃ t n x, Event.answered (S := Cluster) t n (.getWorkload name) (.ok (some x)) ∈ w.trace ∧
    x.metadata.labels ≠ some labels

namespace Foreign

variable (Held : Nat → B.State → Prop) (name : String)

/-- The object was there when the first attempt to create a workload was made. -/
def Preceded (w : World B.recorded) : Prop :=
  ∃ c, w.sinceCreate.head? = some c ∧ Held c.time c.state

/-- Since then the object was still there when the workload of that name was to be deleted. -/
def Struck (w : World B.recorded) : Prop :=
  ∃ c ∈ w.sinceCreate, c.request = .deleteWorkload name ∧ Held c.time c.state

/-- Since then no workload of that name was to be deleted, so the object is there if it was. -/
def Spared (w : World B.recorded) : Prop :=
  (∀ c ∈ w.sinceCreate, c.request ≠ .deleteWorkload name) ∧
    (Preceded Held w → Held w.now w.state.1)

/-- If the object was there, it was struck. -/
def Hit (w : World B.recorded) : Prop :=
  Preceded Held w → Struck Held name w

variable {Held name} {w w' : World B.recorded} {labels : Labels}

/-! ### The record -/

theorem sinceCreate_call (r : Cluster.Request) :
    (w.call r).2.sinceCreate = if w.sinceCreate = [] then
        if r.isCreate then [⟨w.now, r, w.state.1⟩] else []
      else w.sinceCreate ++ [⟨w.now, r, w.state.1⟩] := by
  have hrecord : (w.call r).2.record = w.record ++ [⟨w.now, r, w.state.1⟩] := rfl
  rw [World.sinceCreate, hrecord, List.dropWhile_append]
  cases hw : w.sinceCreate with
  | nil => cases hr : r.isCreate <;> simp_all [World.sinceCreate]
  | cons c cs => simp_all [World.sinceCreate]

theorem sinceCreate_eq_of_record_eq (h : w'.record = w.record) :
    w'.sinceCreate = w.sinceCreate := by
  rw [World.sinceCreate, h]
  rfl

theorem preceded_call {r : Cluster.Request} (hr : ¬ (r.isCreate = true ∧ w.sinceCreate = [])) :
    Preceded Held (w.call r).2 ↔ Preceded Held w := by
  rw [Preceded, Preceded, sinceCreate_call]
  by_cases hnil : w.sinceCreate = []
  · have hr : r.isCreate = false := by simpa [hnil] using hr
    simp [hnil, hr]
  · rw [if_neg hnil, List.head?_append, Option.or_of_isSome (by simpa using hnil)]

theorem Struck.call {r : Cluster.Request} (h : Struck Held name w) :
    Struck Held name (w.call r).2 := by
  obtain ⟨c, hc, hr, hheld⟩ := h
  refine ⟨c, ?_, hr, hheld⟩
  rw [sinceCreate_call, if_neg (List.ne_nil_of_mem hc)]
  exact List.mem_append_left _ hc

variable (hP : Persists B name Held)
include hP

theorem Spared.call {r : Cluster.Request} (hr : r ≠ .deleteWorkload name)
    (h : Spared Held name w) : Spared Held name (w.call r).2 := by
  obtain ⟨hcalls, hheld⟩ := h
  have hstart (hs : Held w.now w.state.1) : Held (w.call r).2.now (w.call r).2.state.1 :=
    hP.start hr hs
  refine ⟨fun c hc => ?_, fun hpre => hstart ?_⟩
  · rw [sinceCreate_call] at hc
    split at hc
    · split at hc
      · obtain rfl := List.mem_singleton.mp hc
        exact hr
      · cases hc
    · rcases List.mem_append.mp hc with hc | hc
      · exact hcalls c hc
      · obtain rfl := List.mem_singleton.mp hc
        exact hr
  · by_cases hfirst : r.isCreate = true ∧ w.sinceCreate = []
    · obtain ⟨c, hc, hs⟩ := hpre
      rw [sinceCreate_call, if_pos hfirst.2, if_pos hfirst.1] at hc
      cases hc
      exact hs
    · exact hheld ((preceded_call hfirst).mp hpre)

omit hP

/-! ### What a run goes through -/

variable (Held name) (labels)

/-- Nothing was to be created, and the run was told nothing. -/
def Uncreated (w : World B.recorded) : Prop :=
  w.fired .hardStop = false ∧ w.sinceCreate = [] ∧ ¬ w.Found name labels

/-- The object was not struck, and the run was told nothing. -/
def Unfound (w : World B.recorded) : Prop :=
  w.fired .hardStop = false ∧ Spared Held name w ∧ ¬ w.Found name labels

/-- The object was not struck, and the run was told of it. -/
def Known (w : World B.recorded) : Prop :=
  w.fired .hardStop = false ∧ Spared Held name w ∧ w.Found name labels

/-- The object was struck if it was there, and the run was told nothing. -/
def Over (w : World B.recorded) : Prop :=
  w.fired .hardStop = false ∧ Hit Held name w ∧ ¬ w.Found name labels

variable {Held name} {labels}

theorem found_mono (h : w.Found name labels)
    (htrace : ∀ e, e ∈ w.trace → e ∈ w'.trace) : w'.Found name labels := by
  obtain ⟨t, m, x, hx, hlabels⟩ := h
  exact ⟨t, m, x, htrace _ hx, hlabels⟩

theorem found_of_answer {n : Nat} {r : Cluster.Request} {k : B.Ticket}
    (h : (w.answer n r k).2.Found name labels) : w.Found name labels ∨ r = .getWorkload name := by
  obtain ⟨t, m, x, hx, hlabels⟩ := h
  rcases Array.mem_push.mp hx with hx | hx
  · exact .inl ⟨t, m, x, hx, hlabels⟩
  · exact .inr (Event.answered.inj hx).2.2.1.symm

theorem found_lookup {n : Nat} {k : B.Ticket} (h : ¬ w.Found name labels) :
    (w.answer n (.getWorkload name) k).2.Found name labels ↔
      ∃ x : Workload, (w.answer n (.getWorkload name) k).1 = .ok (some x) ∧
        x.metadata.labels ≠ some labels := by
  constructor
  · rintro ⟨t, m, x, hx, hlabels⟩
    rcases Array.mem_push.mp hx with hx | hx
    · exact absurd ⟨t, m, x, hx, hlabels⟩ h
    · exact ⟨x, (eq_of_heq (Event.answered.inj hx).2.2.2).symm, hlabels⟩
  · rintro ⟨x, hx, hlabels⟩
    exact ⟨w.now, n, x, Array.mem_push.mpr (.inr (by rw [← hx]; rfl)), hlabels⟩

theorem found_of_passes (hw : w.Passes w') (h : w'.Found name labels) : w.Found name labels := by
  obtain ⟨t, m, x, hx, hlabels⟩ := h
  obtain ⟨stops, htrace⟩ := hw.trace_eq
  rw [htrace] at hx
  rcases Array.mem_append.mp hx with hx | hx
  · exact ⟨t, m, x, hx, hlabels⟩
  · simp at hx

theorem found_of_call {r : Cluster.Request} (h : (w.call r).2.Found name labels) :
    w.Found name labels := by
  obtain ⟨t, m, x, hx, hlabels⟩ := h
  rcases Array.mem_push.mp hx with hx | hx
  · exact ⟨t, m, x, hx, hlabels⟩
  · cases hx

theorem found_of_note {e : Cluster.Entry} (h : (w.note e).Found name labels) :
    w.Found name labels := by
  obtain ⟨t, m, x, hx, hlabels⟩ := h
  rcases Array.mem_push.mp hx with hx | hx
  · exact ⟨t, m, x, hx, hlabels⟩
  · cases hx

/-! ### What is kept -/

variable (B name labels) in
theorem keeps_uncreated :
    Keeps (S := Cluster) (fun r => r.isCreate = false ∧ r ≠ .getWorkload name) (fun _ => True)
      (Uncreated (B := B) name labels) where
  call hr h := by
    refine ⟨h.1, (sinceCreate_call _).trans ?_, fun hf => h.2.2 (found_of_call hf)⟩
    rw [if_pos h.2.1]
    exact if_neg (by simp [hr.1])
  answer hr h := ⟨h.1, h.2.1, fun hf => (found_of_answer hf).elim h.2.2 hr.2⟩
  note _ h := ⟨h.1, h.2.1, fun hf => h.2.2 (found_of_note hf)⟩

variable (labels) in
theorem keeps_unfound (hP : Persists B name Held) :
    Keeps (S := Cluster) (fun r => r ≠ .deleteWorkload name ∧ r ≠ .getWorkload name)
      (fun _ => True) (Unfound Held name labels) where
  call hr h := ⟨h.1, h.2.1.call hP hr.1, fun hf => h.2.2 (found_of_call hf)⟩
  answer hr h :=
    ⟨h.1, ⟨h.2.1.1, fun hpre => hP.answer hr.1 (h.2.1.2 hpre)⟩,
      fun hf => (found_of_answer hf).elim h.2.2 hr.2⟩
  note _ h := ⟨h.1, h.2.1, fun hf => h.2.2 (found_of_note hf)⟩

variable (Held name labels) in
theorem keeps_over :
    Keeps (S := Cluster) (fun r => r.isCreate = false ∧ r ≠ .getWorkload name) (fun _ => True)
      (Over Held name labels) where
  call hr h := by
    refine ⟨h.1, fun hpre => ?_, fun hf => h.2.2 (found_of_call hf)⟩
    exact (h.2.1 ((preceded_call (by simp [hr.1])).mp hpre)).call
  answer hr h := ⟨h.1, h.2.1, fun hf => (found_of_answer hf).elim h.2.2 hr.2⟩
  note _ h := ⟨h.1, h.2.1, fun hf => h.2.2 (found_of_note hf)⟩

theorem Uncreated.passes (h : Uncreated name labels w) (hw : w.Passes w') :
    Uncreated name labels w' := by
  refine ⟨hw.hardStop_eq.trans h.1, ?_, fun hf => h.2.2 (found_of_passes hw hf)⟩
  rw [sinceCreate_eq_of_record_eq (congrArg Prod.snd hw.state_eq)]
  exact h.2.1

theorem Spared.passes (hP : Persists B name Held) (h : Spared Held name w) (hw : w.Passes w') :
    Spared Held name w' := by
  have hsince := sinceCreate_eq_of_record_eq (congrArg Prod.snd hw.state_eq)
  refine ⟨fun c hc => h.1 c (hsince ▸ hc), fun hpre => ?_⟩
  rw [Preceded, hsince] at hpre
  rw [hw.state_eq]
  exact hP.passes (h.2 hpre) hw.now_le

theorem Unfound.passes (hP : Persists B name Held) (h : Unfound Held name labels w)
    (hw : w.Passes w') : Unfound Held name labels w' :=
  ⟨hw.hardStop_eq.trans h.1, h.2.1.passes hP hw, fun hf => h.2.2 (found_of_passes hw hf)⟩

theorem Over.passes (h : Over Held name labels w) (hw : w.Passes w') :
    Over Held name labels w' := by
  have hsince := sinceCreate_eq_of_record_eq (congrArg Prod.snd hw.state_eq)
  refine ⟨hw.hardStop_eq.trans h.1, ?_, fun hf => h.2.2 (found_of_passes hw hf)⟩
  rw [Hit, Preceded, Struck, hsince]
  exact h.2.1

theorem Known.passes (hP : Persists B name Held) (h : Known Held name labels w)
    (hw : w.Passes w') : Known Held name labels w' := by
  obtain ⟨stops, htrace⟩ := hw.trace_eq
  refine ⟨hw.hardStop_eq.trans h.1, h.2.1.passes hP hw, found_mono h.2.2 fun e he => ?_⟩
  rw [htrace]
  exact Array.mem_append.mpr (.inl he)

theorem Unfound.call_delete (h : Unfound Held name labels w) :
    Over Held name labels (w.call (.deleteWorkload name)).2 := by
  refine ⟨h.1, fun hpre => ?_, fun hf => h.2.2 (found_of_call hf)⟩
  have hpre := (preceded_call (by simp [Cluster.Request.isCreate])).mp hpre
  have hheld := h.2.1.2 hpre
  obtain ⟨c, hc, -⟩ := hpre
  have hne : w.sinceCreate ≠ [] := by
    intro hnil
    simp [hnil] at hc
  refine ⟨⟨w.now, .deleteWorkload name, w.state.1⟩, ?_, rfl, hheld⟩
  rw [sinceCreate_call, if_neg hne]
  simp

/-! ### What a run comes to -/

variable (Held name) (labels) in
/-- The run was told of the object and has not struck it, or it was told nothing and has struck it
if it was there. -/
def Settled (w : World B.recorded) : Prop :=
  Known Held name labels w ∨ Over Held name labels w

variable (Held name) (labels) in
/-- A run that was told of the object has not struck it. -/
def Told (w : World B.recorded) : Prop :=
  w.Found name labels → ¬ Struck Held name w

theorem Settled.told (h : Settled Held name labels w) : Told Held name labels w := by
  rintro hf ⟨c, hc, hr, -⟩
  rcases h with h | h
  · exact h.2.1.1 c hc hr
  · exact h.2.2 hf

theorem Uncreated.unfound (h : Uncreated name labels w) : Unfound Held name labels w := by
  refine ⟨h.1, ⟨fun c hc => ?_, fun ⟨c, hc, _⟩ => ?_⟩, h.2.2⟩
  · rw [h.2.1] at hc
    cases hc
  · rw [h.2.1] at hc
    cases hc

theorem Unfound.told (h : Unfound Held name labels w) : Told Held name labels w :=
  fun hf => absurd hf h.2.2

variable (Held name) (labels) in
/-- Either nothing was created and the run was told nothing, or it is settled. -/
def Ended (w : World B.recorded) : Prop :=
  Uncreated name labels w ∨ Settled Held name labels w

theorem Ended.passes (hP : Persists B name Held) (h : Ended Held name labels w)
    (hw : w.Passes w') : Ended Held name labels w' := by
  rcases h with h | h | h
  · exact .inl (h.passes hw)
  · exact .inr (.inl (h.passes hP hw))
  · exact .inr (.inr (h.passes hw))

theorem Told.passes (h : Told Held name labels w) (hw : w.Passes w') :
    Told Held name labels w' := by
  intro hf
  rw [Struck, sinceCreate_eq_of_record_eq (congrArg Prod.snd hw.state_eq)]
  exact h (found_of_passes hw hf)

theorem Ended.struck_iff (h : Ended Held name labels w) (hpre : Preceded Held w) :
    Struck Held name w ↔ ¬ w.Found name labels := by
  rcases h with h | h | h
  · obtain ⟨c, hc, -⟩ := hpre
    rw [h.2.1] at hc
    cases hc
  · exact ⟨fun hs hf => Settled.told (.inl h) hf hs, fun hf => absurd h.2.2 hf⟩
  · exact ⟨fun _ => h.2.2, fun _ => h.2.1 hpre⟩

end Foreign
end NodeCoverage
