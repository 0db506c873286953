import NodeCoverage.Process.Retry
import NodeCoverage.Proofs.Process.Fuel
/-!
# What a process does as long as it is answered well

A contract says which calls, notes and faults are allowed, and what the answers to calls are like.
Whether a process complies with it can be seen from its shape, and so can what its result is like.
Nothing that a contract says is about the world, so it does not matter what else happens in it: a
process that complies does so among any others, and so do parts that run side by side.
-/

namespace NodeCoverage

open Status (proceed)

variable {S : Service} {B : Behaviour S} {α β σ : Type}

/-- What a process may do, and what it can rely on in return. -/
structure Contract (S : Service) where
  calls : S.Request → Prop
  notes : S.Entry → Prop
  /-- What it may crash with. -/
  faults : Fault → Prop
  /-- What an answer to a call is like. -/
  told : (r : S.Request) → S.Reply r → Prop

/-- As long as all answers are as the contract says the process does nothing else than it allows,
and its result is as `Q` says. -/
def Process.Complies (c : Contract S) : {α : Type} → Process S α → (α → Prop) → Prop
  | _, .pure a, Q => Q a
  | _, .bind p next, Q => ∃ P, p.Complies c P ∧ ∀ a, P a → (next a).Complies c Q
  | _, .clock, Q => ∀ t, Q t
  | _, .draw, Q => ∀ x, Q x
  | _, .fired _, Q => ∀ b, Q b
  | _, .note entry, Q => c.notes entry ∧ Q ()
  | _, .call r, Q => c.calls r ∧ ∀ x, c.told r x → Q x
  | _, .sleepUntil _, Q => Q ()
  | _, .iterate body s, Q => ∃ J, J s ∧ ∀ s, J s → (body s).Complies c fun x => x.elim J Q
  | _, .abandonOn _ p, Q => Q none ∧ p.Complies c fun a => Q (some a)
  | _, .both p q, Q => ∃ P R, p.Complies c P ∧ q.Complies c R ∧ ∀ a b, P a → R b → Q (a, b)
  | _, .crash f, _ => c.faults f

/-- The same of a process that waits. -/
def Suspended.Complies (c : Contract S) : {α : Type} → Suspended B α → (α → Prop) → Prop
  | _, .ready p, Q => p.Complies c Q
  | _, .asleep _, Q => Q ()
  | _, .waiting _ r _ _, Q => c.calls r ∧ ∀ x, c.told r x → Q x
  | _, .bind p next, Q => ∃ P, p.Complies c P ∧ ∀ a, P a → (next a).Complies c Q
  | _, .abandonOn _ p, Q => Q none ∧ p.Complies c fun a => Q (some a)
  | _, .both p q, Q => ∃ P R, p.Complies c P ∧ q.Complies c R ∧ ∀ a b, P a → R b → Q (a, b)
  | _, .first p b, Q => p.Complies c fun a => Q (a, b)
  | _, .second a q, Q => q.Complies c fun b => Q (a, b)

def Status.Complies (c : Contract S) (Q : α → Prop) : Status B α → Prop
  | .finished a => Q a
  | .suspended s => s.Complies c Q
  | .crashed f => c.faults f
  | .exhausted => True

variable {c : Contract S}

namespace Process

theorem Complies.mono {p : Process S α} {P Q : α → Prop} (h : p.Complies c P)
    (hPQ : ∀ a, P a → Q a) : p.Complies c Q := by
  induction p with
  | pure a => exact hPQ a h
  | bind p next _ ih =>
    obtain ⟨R, hp, hnext⟩ := h
    exact ⟨R, hp, fun a ha => ih a (hnext a ha) hPQ⟩
  | clock | draw | fired => exact fun x => hPQ x (h x)
  | note => exact ⟨h.1, hPQ () h.2⟩
  | call => exact ⟨h.1, fun x hx => hPQ x (h.2 x hx)⟩
  | sleepUntil => exact hPQ () h
  | iterate body s ih =>
    obtain ⟨J, hs, hbody⟩ := h
    refine ⟨J, hs, fun s hs => ih s (hbody s hs) fun x hx => ?_⟩
    cases x with
    | inl s => exact hx
    | inr a => exact hPQ a hx
  | abandonOn s p ih => exact ⟨hPQ none h.1, ih h.2 fun a => hPQ (some a)⟩
  | both p q =>
    obtain ⟨P, R, hp, hq, hPR⟩ := h
    exact ⟨P, R, hp, hq, fun a b ha hb => hPQ (a, b) (hPR a b ha hb)⟩
  | crash => exact h

end Process

theorem Suspended.Complies.mono {s : Suspended B α} {P Q : α → Prop} (h : s.Complies c P)
    (hPQ : ∀ a, P a → Q a) : s.Complies c Q := by
  induction s with
  | ready p => exact Process.Complies.mono h hPQ
  | asleep => exact hPQ () h
  | waiting => exact ⟨h.1, fun x hx => hPQ x (h.2 x hx)⟩
  | bind p next _ =>
    obtain ⟨R, hp, hnext⟩ := h
    exact ⟨R, hp, fun a ha => (hnext a ha).mono hPQ⟩
  | abandonOn s p ih => exact ⟨hPQ none h.1, ih h.2 fun a => hPQ (some a)⟩
  | both p q =>
    obtain ⟨P, R, hp, hq, hPR⟩ := h
    exact ⟨P, R, hp, hq, fun a b ha hb => hPQ (a, b) (hPR a b ha hb)⟩
  | first p b ih => exact ih h fun a => hPQ (a, b)
  | second a q ih => exact ih h fun b => hPQ (a, b)

/-- What an attempt that is repeated under the policy can crash with: an interval would be
negative. -/
def Backoff.Faults (policy : Backoff) (f : Fault) : Prop :=
  f = .negativeInterval ∧ ∃ current, policy.nextInterval? current = none

namespace Process

theorem Complies.bind {p : Process S α} {next : α → Process S β} {Q : β → Prop}
    (h : p.Complies c fun a => (next a).Complies c Q) : (p >>= next).Complies c Q :=
  ⟨_, h, fun _ ha => ha⟩

/-- An iteration, where `J` holds whenever a round begins. -/
theorem Complies.iterate {body : σ → Process S (σ ⊕ α)} {s : σ} {Q : α → Prop} (J : σ → Prop)
    (hs : J s) (hbody : ∀ s, J s → (body s).Complies c fun x => x.elim J Q) :
    (Process.iterate body s).Complies c Q :=
  ⟨J, hs, hbody⟩

theorem Complies.seq {p : Process S α} {next : α → Process S β} {P : α → Prop} {Q : β → Prop}
    (h : p.Complies c P) (hnext : ∀ a, P a → (next a).Complies c Q) :
    (p >>= next).Complies c Q :=
  ⟨P, h, hnext⟩

/-- Repetition does nothing that the attempt does not do. -/
theorem Complies.retry {ε : Type} {policy : Backoff} {isPermanent : ε → Bool}
    {attempt : Process S (Except ε α)} {Q : Except ε α → Prop} (h : attempt.Complies c Q)
    (hf : ∀ f, policy.Faults f → c.faults f) :
    (Process.retry policy isPermanent attempt).Complies c Q := by
  apply Complies.bind
  intro started
  apply Complies.iterate (fun _ => True) trivial
  intro interval _
  apply h.seq
  intro outcome hout
  cases outcome with
  | ok a => exact hout
  | error e =>
    dsimp only
    split
    · exact hout
    · apply Complies.bind
      intro drawn
      apply Complies.bind
      intro now
      split
      · exact hout
      · apply Complies.bind
        apply Complies.bind
        intro now
        split
        · exact trivial
        · next hnone => exact hf _ ⟨rfl, _, hnone⟩

end Process

/-! ### Runs -/

/-- The invariant is kept by these calls, by their answers, and by these entries. -/
structure Keeps (calls : S.Request → Prop) (notes : S.Entry → Prop) (I : World B → Prop) :
    Prop where
  call : ∀ {w r}, calls r → I w → I (w.call r).2
  answer : ∀ {w n r k}, calls r → I w → I (w.answer n r k).2
  note : ∀ {w entry}, notes entry → I w → I (w.note entry)

/-- `T` says of a world at least that all answers so far are as the contract says. -/
structure Contract.Heard (c : Contract S) (T : World B → Prop) : Prop where
  call : ∀ {w r}, T (w.call r).2 → T w
  answer : ∀ {w n r k}, T (w.answer n r k).2 → T w ∧ c.told r (w.answer n r k).1
  note : ∀ {w entry}, T (w.note entry) → T w

/-- If all answers are as the contract says, then they were so in `v`, the invariant holds, and
the process complies. -/
private def Safe (c : Contract S) (I T : World B → Prop) (v : World B) (Q : α → Prop)
    (x : Status B α × World B) : Prop :=
  T x.2 → T v ∧ I x.2 ∧ x.1.Complies c Q

variable {I T : World B → Prop} {v w₁ : World B}

private theorem safe_proceed {P : α → Prop} {Q : β → Prop} {x : Status B α × World B}
    {done : α → World B → Status B β × World B}
    {wait : Suspended B α → World B → Status B β × World B} (hx : Safe c I T w₁ P x)
    (h₁ : T w₁ → T v) (hd : ∀ a w, (T w → T w₁ ∧ I w ∧ P a) → Safe c I T v Q (done a w))
    (hw : ∀ s w, (T w → T w₁ ∧ I w ∧ s.Complies c P) → Safe c I T v Q (wait s w)) :
    Safe c I T v Q (proceed x done wait) := by
  rcases x with ⟨a | s | f | _, w⟩
  · exact hd a w hx
  · exact hw s w hx
  · exact fun ht => ⟨h₁ (hx ht).1, (hx ht).2⟩
  · exact fun ht => ⟨h₁ (hx ht).1, (hx ht).2⟩

private theorem safe_call (hI : Keeps c.calls c.notes I) (hT : c.Heard T) {r : S.Request}
    {Q : S.Reply r → Prop} {w : World B}
    (h : T w → T v ∧ I w ∧ c.calls r ∧ ∀ x, c.told r x → Q x) :
    T (w.call r).2 → T v ∧ I (w.call r).2 ∧ c.calls r ∧ ∀ x, c.told r x → Q x := by
  intro ht
  obtain ⟨h₀, hw, hr, hQ⟩ := h (hT.call ht)
  exact ⟨h₀, hI.call hr hw, hr, hQ⟩

private theorem safe_answer (hI : Keeps c.calls c.notes I) (hT : c.Heard T) {r : S.Request}
    {Q : S.Reply r → Prop} {w : World B} {n : Nat} {k : B.Ticket}
    (h : T w → T v ∧ I w ∧ c.calls r ∧ ∀ x, c.told r x → Q x) :
    Safe c I T v Q (.finished (w.answer n r k).1, (w.answer n r k).2) := by
  intro ht
  obtain ⟨ht, htold⟩ := hT.answer ht
  obtain ⟨h₀, hw, hr, hQ⟩ := h ht
  exact ⟨h₀, hI.answer hr hw, hQ _ htold⟩

private theorem safe_bind {next : α → Process S β} {Q : β → Prop} {x : Status B α × World B}
    {done : α → World B → Status B β × World B}
    (hx : T x.2 → T v ∧ I x.2 ∧ x.1.Complies c fun a => (next a).Complies c Q)
    (hd : ∀ a w, (T w → T v ∧ I w ∧ (next a).Complies c Q) → Safe c I T v Q (done a w)) :
    Safe c I T v Q (proceed x done fun s w => (.suspended (.bind s next), w)) :=
  safe_proceed hx id hd fun _ _ hw ht =>
    ⟨(hw ht).1, (hw ht).2.1, _, (hw ht).2.2, fun _ ha => ha⟩

private theorem safe_abandonOn {s : Signal} {Q : Option α → Prop} {x : Status B α × World B}
    (h : T w₁ → T v ∧ Q none) (hx : Safe c I T w₁ (fun a => Q (some a)) x) :
    Safe c I T v Q (proceed x (fun a w => (.finished (some a), w))
      fun p w => (.suspended (.abandonOn s p), w)) :=
  safe_proceed hx (fun ht => (h ht).1) (fun _ _ hw ht => ⟨(h (hw ht).1).1, (hw ht).2⟩)
    fun _ _ hw ht => ⟨(h (hw ht).1).1, (hw ht).2.1, (h (hw ht).1).2, (hw ht).2.2⟩

private theorem safe_both {P : α → Prop} {R : β → Prop} {Q : α × β → Prop}
    {x : Status B α × World B} {y : World B → Status B β × World B}
    (h : T w₁ → T v ∧ ∀ a b, P a → R b → Q (a, b)) (hx : Safe c I T w₁ P x)
    (hy : ∀ w, (T w → T w₁ ∧ I w) → Safe c I T w R (y w)) :
    Safe c I T v Q (proceed x
      (fun a w => proceed (y w) (fun b w => (.finished (a, b), w))
        fun q w => (.suspended (.second a q), w))
      fun p w => proceed (y w) (fun b w => (.suspended (.first p b), w))
        fun q w => (.suspended (.both p q), w)) := by
  refine safe_proceed hx (fun ht => (h ht).1) (fun a w hw => ?_) fun p w hw => ?_
  all_goals
    refine safe_proceed (hy w fun ht => ⟨(hw ht).1, (hw ht).2.1⟩) (fun ht => (h (hw ht).1).1)
      (fun b w' hw' ht => ?_) fun q w' hw' ht => ?_
    all_goals
      obtain ⟨ht, hI, hq⟩ := hw' ht
      obtain ⟨ht, -, hp⟩ := hw ht
      obtain ⟨h₀, hPR⟩ := h ht
      refine ⟨h₀, hI, ?_⟩
  · exact hPR a b hp hq
  · exact hq.mono (hPR a · hp)
  · exact hp.mono (hPR · b · hq)
  · exact ⟨P, R, hp, hq, hPR⟩

/-- What two parts are like can be chosen before it is known how the answers are. -/
private theorem exists_parts {X : (α → Prop) → Prop} {Y : (β → Prop) → Prop} {Q : α × β → Prop}
    {w : World B} (h : T w → T v ∧ I w ∧ ∃ P R, X P ∧ Y R ∧ ∀ a b, P a → R b → Q (a, b)) :
    ∃ P R, T w → T v ∧ I w ∧ X P ∧ Y R ∧ ∀ a b, P a → R b → Q (a, b) := by
  by_cases ht : T w
  · obtain ⟨h₀, hw, P, R, hPR⟩ := h ht
    exact ⟨P, R, fun _ => ⟨h₀, hw, hPR⟩⟩
  · exact ⟨fun _ => True, fun _ => True, fun h => absurd h ht⟩

theorem Process.start_complies (hI : Keeps c.calls c.notes I) (hT : c.Heard T) (n : Nat)
    {p : Process S α} {Q : α → Prop} {w : World B} (h : T w → T v ∧ I w ∧ p.Complies c Q) :
    T (p.start n w).2 → T v ∧ I (p.start n w).2 ∧ (p.start n w).1.Complies c Q := by
  change Safe c I T v Q (p.start n w)
  induction n generalizing α w v with
  | zero => exact fun ht => ⟨(h ht).1, (h ht).2.1, trivial⟩
  | succ n ih =>
    cases p with
    | pure => exact h
    | clock | draw | fired => exact fun ht => ⟨(h ht).1, (h ht).2.1, (h ht).2.2 _⟩
    | crash => exact h
    | note entry =>
      intro ht
      obtain ⟨h₀, hw, hn, hQ⟩ := h (hT.note ht)
      exact ⟨h₀, hI.note hn hw, hQ⟩
    | call r =>
      have hcall := safe_call hI hT h
      simp only [Process.start]
      split
      · exact safe_answer hI hT hcall
      · exact hcall
    | sleepUntil t =>
      simp only [Process.start]
      split <;> exact h
    | iterate body s =>
      refine ih (p := .bind (body s) (Process.afterRound body)) fun ht => ?_
      obtain ⟨h₀, hw, J, hs, hbody⟩ := h ht
      refine ⟨h₀, hw, _, hbody s hs, fun x hx => ?_⟩
      cases x with
      | inl s => exact ⟨J, hx, hbody⟩
      | inr a => exact hx
    | bind p next =>
      rw [Process.start_bind]
      refine safe_bind (ih fun ht => ?_) fun a w hw => ih hw
      obtain ⟨h₀, hw, P, hp, hnext⟩ := h ht
      exact ⟨h₀, hw, hp.mono hnext⟩
    | abandonOn s p =>
      rw [Process.start_abandonOn]
      split
      · exact fun ht => ⟨(h ht).1, (h ht).2.1, (h ht).2.2.1⟩
      · exact safe_abandonOn (fun ht => ⟨(h ht).1, (h ht).2.2.1⟩)
          (ih fun ht => ⟨ht, (h ht).2.1, (h ht).2.2.2⟩)
    | both p q =>
      obtain ⟨P, R, h⟩ := exists_parts h
      rw [Process.start_both]
      refine safe_both (P := P) (R := R) (fun ht => ⟨(h ht).1, (h ht).2.2.2.2⟩)
        (ih fun ht => ⟨ht, (h ht).2.1, (h ht).2.2.1⟩) fun w₁ h₁ => ih fun ht => ?_
      exact ⟨ht, (h₁ ht).2, (h (h₁ ht).1).2.2.2.1⟩

theorem Suspended.resume_complies (hI : Keeps c.calls c.notes I) (hT : c.Heard T) (n : Nat)
    {s : Suspended B α} {Q : α → Prop} {w : World B} (h : T w → T v ∧ I w ∧ s.Complies c Q) :
    T (s.resume n w).2 → T v ∧ I (s.resume n w).2 ∧ (s.resume n w).1.Complies c Q := by
  change Safe c I T v Q (s.resume n w)
  induction s generalizing w v with
  | ready p => exact p.start_complies hI hT n h
  | asleep t =>
    simp only [Suspended.resume]
    split <;> exact h
  | waiting number r ticket t =>
    simp only [Suspended.resume]
    split
    · exact safe_answer hI hT h
    · exact h
  | bind p next ih =>
    rw [Suspended.resume_bind]
    refine safe_bind (ih fun ht => ?_) fun a w hw => Process.start_complies hI hT n hw
    obtain ⟨h₀, hw, P, hp, hnext⟩ := h ht
    exact ⟨h₀, hw, hp.mono hnext⟩
  | abandonOn s p ih =>
    rw [Suspended.resume_abandonOn]
    split
    · exact fun ht => ⟨(h ht).1, (h ht).2.1, (h ht).2.2.1⟩
    · exact safe_abandonOn (fun ht => ⟨(h ht).1, (h ht).2.2.1⟩)
        (ih fun ht => ⟨ht, (h ht).2.1, (h ht).2.2.2⟩)
  | both p q ihp ihq =>
    obtain ⟨P, R, h⟩ := exists_parts h
    rw [Suspended.resume_both]
    refine safe_both (P := P) (R := R) (fun ht => ⟨(h ht).1, (h ht).2.2.2.2⟩)
      (ihp fun ht => ⟨ht, (h ht).2.1, (h ht).2.2.1⟩) fun w₁ h₁ => ihq fun ht => ?_
    exact ⟨ht, (h₁ ht).2, (h (h₁ ht).1).2.2.2.1⟩
  | first p b ih =>
    rw [Suspended.resume_first]
    exact safe_proceed (ih h) id (fun a w hw => hw) fun t w hw => hw
  | second a q ih =>
    rw [Suspended.resume_second]
    exact safe_proceed (ih h) id (fun b w hw => hw) fun t w hw => hw

theorem Suspended.runUntil_complies {fuel rounds : Nat} {bound : Option Nat} {s : Suspended B α}
    {Q : α → Prop} {w : World B} (hI : Keeps c.calls c.notes I) (hT : c.Heard T)
    (hadvance : ∀ w t, (I w → I (w.advance t)) ∧ (T (w.advance t) → T w))
    (h : T w → T v ∧ I w ∧ s.Complies c Q) :
    T (s.runUntil fuel bound rounds w).2 → T v ∧ I (s.runUntil fuel bound rounds w).2 ∧
      (s.runUntil fuel bound rounds w).1.Complies c Q := by
  induction rounds generalizing s w with
  | zero => exact fun ht => ⟨(h ht).1, (h ht).2.1, trivial⟩
  | succ rounds ih =>
    simp only [runUntil]
    split
    · have hr := s.resume_complies hI hT fuel h
      rcases hs : s.resume fuel w with ⟨a | t | f | _, w₁⟩
      all_goals simp only [hs] at hr ⊢
      · exact hr
      · split
        · refine ih fun ht => ?_
          obtain ⟨h₀, hw, ht⟩ := hr ((hadvance _ _).2 ht)
          exact ⟨h₀, (hadvance _ _).1 hw, ht⟩
        · exact hr
      · exact hr
      · exact hr
    · exact h

end NodeCoverage
