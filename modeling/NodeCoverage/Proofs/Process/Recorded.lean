import NodeCoverage.Proofs.Process.Fuel
/-!
# Keeping a record

The other side of the calls can keep a record of what it was asked, when, and in which state it was.
Nothing else changes by that.
-/

namespace NodeCoverage

variable {S : Service} {B : Behaviour S} {α : Type}

/-- A call that was made, and the state in which it was met. -/
structure Sighting (B : Behaviour S) where
  time : Nat
  request : S.Request
  state : B.State

/-- The same behaviour, which also keeps a record of all calls. -/
def Behaviour.recorded (B : Behaviour S) : Behaviour S where
  State := B.State × List (Sighting B)
  Ticket := B.Ticket
  start t r s :=
    let (d, ticket, state) := B.start t r s.1
    (d, ticket, state, s.2 ++ [⟨t, r, s.1⟩])
  answer t r ticket s :=
    let (reply, state) := B.answer t r ticket s.1
    (reply, state, s.2)
  draw t s := B.draw t s.1

namespace World

def record (w : World B.recorded) : List (Sighting B) :=
  w.state.2

def plain (w : World B.recorded) : World B :=
  ⟨w.now, w.state.1, w.fired, w.calls, w.trace⟩

end World

def Suspended.plain : {α : Type} → Suspended B.recorded α → Suspended B α
  | _, .ready p => .ready p
  | _, .asleep t => .asleep t
  | _, .waiting number r ticket t => .waiting number r ticket t
  | _, .bind p next => .bind p.plain next
  | _, .abandonOn s p => .abandonOn s p.plain
  | _, .both p q => .both p.plain q.plain
  | _, .first p b => .first p.plain b
  | _, .second a q => .second a q.plain

def Status.plain (x : Status B.recorded α × World B.recorded) : Status B α × World B :=
  match x with
  | (.finished a, w) => (.finished a, w.plain)
  | (.suspended s, w) => (.suspended s.plain, w.plain)
  | (.crashed f, w) => (.crashed f, w.plain)
  | (.exhausted, w) => (.exhausted, w.plain)

open Status (proceed)

private theorem Status.plain_proceed {β : Type} {x : Status B.recorded α × World B.recorded}
    {done : α → World B.recorded → Status B.recorded β × World B.recorded}
    {wait : Suspended B.recorded α → World B.recorded → Status B.recorded β × World B.recorded}
    {done' : α → World B → Status B β × World B}
    {wait' : Suspended B α → World B → Status B β × World B}
    (hd : ∀ a w, Status.plain (done a w) = done' a w.plain)
    (hw : ∀ s w, Status.plain (wait s w) = wait' s.plain w.plain) :
    Status.plain (proceed x done wait) = proceed (Status.plain x) done' wait' := by
  rcases x with ⟨a | s | f | _, w⟩
  · exact hd a w
  · exact hw s w
  · rfl
  · rfl

/-- A process does the same whether or not a record is kept. -/
theorem Process.start_plain (n : Nat) (p : Process S α) (w : World B.recorded) :
    Status.plain (p.start n w) = p.start n w.plain := by
  induction n generalizing α w with
  | zero => rfl
  | succ n ih =>
    cases p with
    | pure | clock | draw | fired | note | crash => rfl
    | call | sleepUntil => exact (apply_ite Status.plain _ _ _).trans rfl
    | iterate body s => exact ih _ w
    | bind p next =>
      rw [start_bind, start_bind, ← ih p w]
      exact Status.plain_proceed (fun a w => ih (next a) w) fun _ _ => rfl
    | abandonOn s p =>
      rw [start_abandonOn, start_abandonOn, ← ih p w, apply_ite Status.plain]
      refine congrArg (ite (w.fired s = true) (Status.finished none, w.plain)) ?_
      exact Status.plain_proceed (fun _ _ => rfl) fun _ _ => rfl
    | both p q =>
      rw [start_both, start_both, ← ih p w]
      refine Status.plain_proceed (fun a w => ?_) fun s w => ?_
      all_goals
        rw [← ih q w]
        exact Status.plain_proceed (fun _ _ => rfl) fun _ _ => rfl

namespace Suspended

theorem resume_plain (n : Nat) (s : Suspended B.recorded α) (w : World B.recorded) :
    Status.plain (s.resume n w) = s.plain.resume n w.plain := by
  induction s generalizing w with
  | ready p => exact p.start_plain n w
  | asleep | waiting => exact (apply_ite Status.plain _ _ _).trans rfl
  | bind p next ih =>
    rw [plain, resume_bind, resume_bind, ← ih w]
    exact Status.plain_proceed (fun a w => (next a).start_plain n w) fun _ _ => rfl
  | abandonOn s p ih =>
    rw [plain, resume_abandonOn, resume_abandonOn, ← ih w, apply_ite Status.plain]
    refine congrArg (ite (w.fired s = true) (Status.finished none, w.plain)) ?_
    exact Status.plain_proceed (fun _ _ => rfl) fun _ _ => rfl
  | both p q ihp ihq =>
    rw [plain, resume_both, resume_both, ← ihp w]
    refine Status.plain_proceed (fun a w => ?_) fun s w => ?_
    all_goals
      rw [← ihq w]
      exact Status.plain_proceed (fun _ _ => rfl) fun _ _ => rfl
  | first p b ih =>
    rw [plain, resume_first, resume_first, ← ih w]
    exact Status.plain_proceed (fun _ _ => rfl) fun _ _ => rfl
  | second a q ih =>
    rw [plain, resume_second, resume_second, ← ih w]
    exact Status.plain_proceed (fun _ _ => rfl) fun _ _ => rfl

theorem wake_plain (s : Suspended B.recorded α) : s.plain.wake = s.wake := by
  induction s with
  | ready | asleep | waiting => rfl
  | bind p _ ih | abandonOn _ p ih | first p _ ih | second _ p ih => exact ih
  | both p q ihp ihq => rw [plain, wake, wake, ihp, ihq]

theorem runUntil_plain (fuel : Nat) (bound : Option Nat) (rounds : Nat)
    (s : Suspended B.recorded α) (w : World B.recorded) :
    Status.plain (s.runUntil fuel bound rounds w) =
      s.plain.runUntil fuel bound rounds w.plain := by
  induction rounds generalizing s w with
  | zero => rfl
  | succ rounds ih =>
    have hres := s.resume_plain fuel w
    simp only [runUntil]
    rcases hr : s.resume fuel w with ⟨a | t | f | _, w₁⟩
    all_goals
      rw [hr] at hres
      rw [← hres]
      simp only [apply_ite Status.plain, ih]
      simp only [Status.plain, wake_plain]
      rfl

end Suspended
end NodeCoverage
