import Mathlib.Logic.Function.Basic
import Mathlib.Logic.Relation
import NodeCoverage.Proofs.Process.Complies
/-!
# Processes that share a world

Several processes call on the same other side, each with signals and a log of its own. Any of them
may go on at any moment, as far as it can; in between time passes, signals fire, and the other side
may change by itself. Whatever the others do, a process that complies with a contract calls for
nothing but what the contract allows, as long as it is answered as the contract says.
-/

namespace NodeCoverage

variable {S : Service} {B : Behaviour S} {ι α : Type}

/-- One of several processes: how far it has come, and what is its own in the world. -/
structure Member (B : Behaviour S) (α : Type) where
  status : Status B α
  fired : Signal → Bool
  calls : Nat
  trace : Array (Event S)

def Member.ready (p : Process S α) : Member B α :=
  ⟨.suspended (.ready p), fun _ => false, 0, #[]⟩

/-- Processes that share the clock and the other side of their calls. -/
structure Fleet (B : Behaviour S) (ι α : Type) where
  now : Nat
  state : B.State
  member : ι → Member B α

namespace Fleet

def world (f : Fleet B ι α) (i : ι) : World B :=
  ⟨f.now, f.state, (f.member i).fired, (f.member i).calls, (f.member i).trace⟩

variable [DecidableEq ι]

def put (f : Fleet B ι α) (i : ι) (status : Status B α) (w : World B) : Fleet B ι α :=
  ⟨w.now, w.state, Function.update f.member i ⟨status, w.fired, w.calls, w.trace⟩⟩

def resume (f : Fleet B ι α) (fuel : Nat) (i : ι) : Fleet B ι α :=
  match (f.member i).status with
  | .suspended s => f.put i (s.resume fuel (f.world i)).1 (s.resume fuel (f.world i)).2
  | _ => f

def fire (f : Fleet B ι α) (i : ι) (s : Signal) : Fleet B ι α :=
  f.put i (f.member i).status ((f.world i).fire s)

inductive Step (f : Fleet B ι α) : Fleet B ι α → Prop
  | resumes (fuel : Nat) (i : ι) : Step f (f.resume fuel i)
  | fires (i : ι) (s : Signal) : Step f (f.fire i s)
  | passes (t : Nat) : Step f { f with now := max f.now t }
  | changes (state : B.State) : Step f { f with state := state }

/-- What can happen in any number of steps. -/
abbrev Course (f f' : Fleet B ι α) : Prop :=
  Relation.ReflTransGen Step f f'

end Fleet

/-! ### Contracts -/

namespace Contract

variable (c : Contract S)

/-- All answers in the log are as the contract says. -/
def Told (trace : Array (Event S)) : Prop :=
  ∀ t n r x, .answered t n r x ∈ trace → c.told r x

/-- All calls in the log are allowed. -/
def Called (trace : Array (Event S)) : Prop :=
  ∀ t n r, .called t n r ∈ trace → c.calls r

variable {c}

theorem told_heard : c.Heard fun w : World B => c.Told w.trace where
  call h t n r x hx := h t n r x (Array.mem_push_of_mem _ hx)
  answer h := ⟨fun t n r x hx => h t n r x (Array.mem_push_of_mem _ hx),
    h _ _ _ _ Array.mem_push_self⟩
  note h t n r x hx := h t n r x (Array.mem_push_of_mem _ hx)

theorem called_keeps : Keeps c.calls c.notes fun w : World B => c.Called w.trace where
  call hr h t n r hx := by
    rcases Array.mem_push.mp hx with hx | hx
    · exact h t n r hx
    · cases hx
      exact hr
  answer _ h t n r hx := by
    rcases Array.mem_push.mp hx with hx | hx
    · exact h t n r hx
    · cases hx
  note _ h t n r hx := by
    rcases Array.mem_push.mp hx with hx | hx
    · exact h t n r hx
    · cases hx

end Contract

namespace Fleet

variable {c : Contract S} {Q : α → Prop} {f f' : Fleet B ι α} {i : ι}

/-- The member has kept to the contract if it was answered as the contract says. -/
def Loyal (c : Contract S) (Q : α → Prop) (i : ι) (f : Fleet B ι α) : Prop :=
  c.Told (f.member i).trace →
    c.Called (f.member i).trace ∧ (f.member i).status.Complies c Q

theorem Loyal.of_member_eq (h : f.Loyal c Q i) (hm : f'.member i = f.member i) :
    f'.Loyal c Q i := by
  simpa only [Loyal, hm] using h

variable [DecidableEq ι]

theorem Loyal.put {j : ι} {st : Status B α} {w : World B} (h : f.Loyal c Q i)
    (hj : i = j → c.Told w.trace → c.Called w.trace ∧ st.Complies c Q) :
    (f.put j st w).Loyal c Q i := by
  by_cases hij : i = j
  · subst hij
    simpa [Loyal, Fleet.put] using hj rfl
  · exact h.of_member_eq (by simp [Fleet.put, hij])

theorem Loyal.step (h : f.Loyal c Q i) (hs : f.Step f') : f'.Loyal c Q i := by
  cases hs with
  | resumes fuel j =>
    unfold Fleet.resume
    split
    · next s hs =>
      refine h.put fun hij ht => ?_
      subst hij
      have hw : c.Told (f.world i).trace →
          c.Told (f.world i).trace ∧ c.Called (f.world i).trace ∧ s.Complies c Q := by
        intro ht
        obtain ⟨hcalled, hst⟩ := h ht
        rw [hs] at hst
        exact ⟨ht, hcalled, hst⟩
      exact (s.resume_complies (v := f.world i) Contract.called_keeps Contract.told_heard fuel
        hw ht).2
    · exact h
  | fires j s =>
    refine h.put fun hij ht => ?_
    subst hij
    exact h ht
  | passes | changes => exact h

/-- Whatever the others do, a member that complies with a contract keeps to it as long as it is
answered as the contract says. -/
theorem called_of_told {p : Process S α} (hp : p.Complies c Q) (hready : f.member i = .ready p)
    (hcourse : f.Course f') (htold : c.Told (f'.member i).trace) :
    c.Called (f'.member i).trace := by
  have hloyal : f'.Loyal c Q i := by
    clear htold
    induction hcourse with
    | refl =>
      intro _
      rw [hready]
      exact ⟨fun t n r h => absurd h (by simp [Member.ready]), hp⟩
    | tail _ hs ih => exact ih.step hs
  exact (hloyal htold).1

end Fleet
end NodeCoverage
