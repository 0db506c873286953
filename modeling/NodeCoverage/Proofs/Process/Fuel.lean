import NodeCoverage.Process.Execution
/-!
# Fuel, the clock and the signals

A process that was not out of fuel does the same with more of it. While it runs, the clock stands
still and no signal fires: both change only while it waits.

Most processes run a part and then go on according to how far that part has come. `Status.proceed`
is what these have in common, and facts about all runs are proved by it and by induction.
-/

namespace NodeCoverage

variable {S : Service} {B : Behaviour S} {α β : Type}

namespace Status

/-- Goes on after a part that is done or has to wait; otherwise the whole has ended as the part
has. -/
def proceed (x : Status B α × World B) (done : α → World B → Status B β × World B)
    (wait : Suspended B α → World B → Status B β × World B) : Status B β × World B :=
  match x with
  | (.finished a, w) => done a w
  | (.suspended s, w) => wait s w
  | (.crashed f, w) => (.crashed f, w)
  | (.exhausted, w) => (.exhausted, w)

variable {x x' : Status B α × World B} {done done' : α → World B → Status B β × World B}
  {wait wait' : Suspended B α → World B → Status B β × World B}

theorem proceed_eq (hx : x.1 ≠ .exhausted → x' = x)
    (hd : ∀ a w, (done a w).1 ≠ .exhausted → done' a w = done a w)
    (hw : ∀ s w, (wait s w).1 ≠ .exhausted → wait' s w = wait s w)
    (h : (proceed x done wait).1 ≠ .exhausted) : proceed x' done' wait' = proceed x done wait := by
  rcases x with ⟨a | s | f | _, w⟩
  · rw [hx (by simp)]
    exact hd a w h
  · rw [hx (by simp)]
    exact hw s w h
  · rw [hx (by simp)]
    rfl
  · exact absurd rfl h

theorem proceed_keeps {I : World B → Prop} (hx : I x.2) (hd : ∀ a w, I w → I (done a w).2)
    (hw : ∀ s w, I w → I (wait s w).2) : I (proceed x done wait).2 := by
  rcases x with ⟨a | s | f | _, w⟩
  · exact hd a w hx
  · exact hw s w hx
  · exact hx
  · exact hx

end Status

open Status (proceed proceed_eq proceed_keeps)

namespace Process

variable (n : Nat) (w : World B)

theorem start_bind (p : Process S α) (next : α → Process S β) :
    (bind p next).start (n + 1) w = proceed (p.start n w) (fun a w => (next a).start n w)
      fun s w => (.suspended (.bind s next), w) := by
  simp only [start]
  rcases p.start n w with ⟨_ | _ | _ | _, _⟩ <;> rfl

theorem start_abandonOn (s : Signal) (p : Process S α) :
    (abandonOn s p).start (n + 1) w = if w.fired s then (.finished none, w) else
      proceed (p.start n w) (fun a w => (.finished (some a), w))
        fun t w => (.suspended (.abandonOn s t), w) := by
  simp only [start]
  split
  · rfl
  · rcases p.start n w with ⟨_ | _ | _ | _, _⟩ <;> rfl

theorem start_both (p : Process S α) (q : Process S β) :
    (both p q).start (n + 1) w = proceed (p.start n w)
      (fun a w => proceed (q.start n w) (fun b w => (.finished (a, b), w))
        fun t w => (.suspended (.second a t), w))
      fun s w => proceed (q.start n w) (fun b w => (.suspended (.first s b), w))
        fun t w => (.suspended (.both s t), w) := by
  simp only [start]
  rcases p.start n w with ⟨_ | _ | _ | _, w₁⟩
  · rcases h : q.start n w₁ with ⟨_ | _ | _ | _, _⟩ <;> simp [proceed, h]
  · rcases h : q.start n w₁ with ⟨_ | _ | _ | _, _⟩ <;> simp [proceed, h]
  · rfl
  · rfl

end Process

namespace Suspended

variable (n : Nat) (w : World B)

theorem resume_bind (p : Suspended B α) (next : α → Process S β) :
    (bind p next).resume n w = proceed (p.resume n w) (fun a w => (next a).start n w)
      fun s w => (.suspended (.bind s next), w) := by
  simp only [resume]
  rcases p.resume n w with ⟨_ | _ | _ | _, _⟩ <;> rfl

theorem resume_abandonOn (s : Signal) (p : Suspended B α) :
    (abandonOn s p).resume n w = if w.fired s then (.finished none, w) else
      proceed (p.resume n w) (fun a w => (.finished (some a), w))
        fun t w => (.suspended (.abandonOn s t), w) := by
  simp only [resume]
  split
  · rfl
  · rcases p.resume n w with ⟨_ | _ | _ | _, _⟩ <;> rfl

theorem resume_both (p : Suspended B α) (q : Suspended B β) :
    (both p q).resume n w = proceed (p.resume n w)
      (fun a w => proceed (q.resume n w) (fun b w => (.finished (a, b), w))
        fun t w => (.suspended (.second a t), w))
      fun s w => proceed (q.resume n w) (fun b w => (.suspended (.first s b), w))
        fun t w => (.suspended (.both s t), w) := by
  simp only [resume]
  rcases p.resume n w with ⟨_ | _ | _ | _, w₁⟩
  · rcases h : q.resume n w₁ with ⟨_ | _ | _ | _, _⟩ <;> simp [proceed, h]
  · rcases h : q.resume n w₁ with ⟨_ | _ | _ | _, _⟩ <;> simp [proceed, h]
  · rfl
  · rfl

theorem resume_first (p : Suspended B α) (b : β) :
    (first p b).resume n w = proceed (p.resume n w) (fun a w => (.finished (a, b), w))
      fun s w => (.suspended (.first s b), w) := by
  simp only [resume]
  rcases p.resume n w with ⟨_ | _ | _ | _, _⟩ <;> rfl

theorem resume_second (a : α) (q : Suspended B β) :
    (second a q).resume n w = proceed (q.resume n w) (fun b w => (.finished (a, b), w))
      fun t w => (.suspended (.second a t), w) := by
  simp only [resume]
  rcases q.resume n w with ⟨_ | _ | _ | _, _⟩ <;> rfl

end Suspended

/-! ### More fuel -/

namespace Process

theorem start_of_le {n m : Nat} {p : Process S α} {w : World B}
    (h : (p.start n w).1 ≠ .exhausted) (hnm : n ≤ m) : p.start m w = p.start n w := by
  induction n generalizing m α w with
  | zero => exact absurd rfl h
  | succ n ih =>
    obtain ⟨m, rfl⟩ : ∃ k, m = k + 1 := ⟨m - 1, by omega⟩
    have ih {α : Type} {p : Process S α} {w : World B} (h : (p.start n w).1 ≠ .exhausted) :=
      ih h (m := m) (by omega)
    cases p with
    | pure | clock | draw | fired | note | call | sleepUntil | crash => rfl
    | iterate body s => exact ih h
    | bind p next =>
      rw [start_bind] at h ⊢
      rw [start_bind]
      exact proceed_eq ih (fun _ _ => ih) (fun _ _ _ => rfl) h
    | abandonOn s p =>
      rw [start_abandonOn] at h ⊢
      rw [start_abandonOn]
      split
      · rfl
      · rw [if_neg ‹_›] at h
        exact proceed_eq ih (fun _ _ _ => rfl) (fun _ _ _ => rfl) h
    | both p q =>
      rw [start_both] at h ⊢
      rw [start_both]
      refine proceed_eq ih (fun _ _ => ?_) (fun _ _ => ?_) h
      all_goals exact proceed_eq ih (fun _ _ _ => rfl) (fun _ _ _ => rfl)

end Process

theorem Suspended.resume_of_le {n m : Nat} {s : Suspended B α} {w : World B}
    (h : (s.resume n w).1 ≠ .exhausted) (hnm : n ≤ m) : s.resume m w = s.resume n w := by
  induction s generalizing w with
  | ready p => exact Process.start_of_le h hnm
  | asleep | waiting => rfl
  | bind p next ih =>
    rw [resume_bind] at h ⊢
    rw [resume_bind]
    exact proceed_eq ih (fun _ _ h => Process.start_of_le h hnm) (fun _ _ _ => rfl) h
  | abandonOn s p ih =>
    rw [resume_abandonOn] at h ⊢
    rw [resume_abandonOn]
    split
    · rfl
    · rw [if_neg ‹_›] at h
      exact proceed_eq ih (fun _ _ _ => rfl) (fun _ _ _ => rfl) h
  | both p q ihp ihq =>
    rw [resume_both] at h ⊢
    rw [resume_both]
    refine proceed_eq ihp (fun _ _ => ?_) (fun _ _ => ?_) h
    all_goals exact proceed_eq ihq (fun _ _ _ => rfl) (fun _ _ _ => rfl)
  | first p b ih =>
    rw [resume_first] at h ⊢
    rw [resume_first]
    exact proceed_eq ih (fun _ _ _ => rfl) (fun _ _ _ => rfl) h
  | second a q ih =>
    rw [resume_second] at h ⊢
    rw [resume_second]
    exact proceed_eq ih (fun _ _ _ => rfl) (fun _ _ _ => rfl) h

/-! ### Clock and signals -/

/-- In neither world is it later, nor has another signal fired. -/
def World.Meanwhile (w w' : World B) : Prop :=
  w'.now = w.now ∧ w'.fired = w.fired

theorem World.Meanwhile.trans {w₁ w₂ w₃ : World B} (h₁ : w₁.Meanwhile w₂) (h₂ : w₂.Meanwhile w₃) :
    w₁.Meanwhile w₃ :=
  ⟨h₂.1.trans h₁.1, h₂.2.trans h₁.2⟩

theorem Process.start_meanwhile (n : Nat) (p : Process S α) (w : World B) :
    w.Meanwhile (p.start n w).2 := by
  induction n generalizing α w with
  | zero => exact ⟨rfl, rfl⟩
  | succ n ih =>
    -- what is reached from the world after a part is still reached from `w`
    have ih {α : Type} {w₁ : World B} (h : w.Meanwhile w₁) (p : Process S α) :
        w.Meanwhile (p.start n w₁).2 := h.trans (ih p w₁)
    have start : w.Meanwhile w := ⟨rfl, rfl⟩
    cases p with
    | pure | clock | draw | fired | note | crash => exact start
    | call | sleepUntil =>
      simp only [Process.start]
      split <;> exact start
    | iterate body s => exact ih start _
    | bind p next =>
      rw [start_bind]
      exact proceed_keeps (ih start p) (fun _ _ h => ih h _) fun _ _ h => h
    | abandonOn s p =>
      rw [start_abandonOn]
      split
      · exact start
      · exact proceed_keeps (ih start p) (fun _ _ h => h) fun _ _ h => h
    | both p q =>
      rw [start_both]
      refine proceed_keeps (ih start p) (fun _ _ h => ?_) fun _ _ h => ?_
      all_goals exact proceed_keeps (ih h q) (fun _ _ h => h) fun _ _ h => h

theorem Suspended.resume_meanwhile (n : Nat) (s : Suspended B α) (w : World B) :
    w.Meanwhile (s.resume n w).2 := by
  have start : w.Meanwhile w := ⟨rfl, rfl⟩
  induction s generalizing w with
  | ready p => exact p.start_meanwhile n w
  | asleep | waiting =>
    simp only [resume]
    split <;> exact start
  | bind p next ih =>
    rw [resume_bind]
    exact proceed_keeps (ih w start) (fun a w h => h.trans ((next a).start_meanwhile n w))
      fun _ _ h => h
  | abandonOn s p ih =>
    rw [resume_abandonOn]
    split
    · exact start
    · exact proceed_keeps (ih w start) (fun _ _ h => h) fun _ _ h => h
  | both p q ihp ihq =>
    rw [resume_both]
    refine proceed_keeps (ihp w start) (fun _ w₁ h => ?_) fun _ w₁ h => ?_
    all_goals
      exact proceed_keeps (h.trans (ihq w₁ ⟨rfl, rfl⟩)) (fun _ _ h => h) fun _ _ h => h
  | first p b ih =>
    rw [resume_first]
    exact proceed_keeps (ih w start) (fun _ _ h => h) fun _ _ h => h
  | second a q ih =>
    rw [resume_second]
    exact proceed_keeps (ih w start) (fun _ _ h => h) fun _ _ h => h

end NodeCoverage
