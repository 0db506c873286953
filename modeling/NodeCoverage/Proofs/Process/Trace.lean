import NodeCoverage.Proofs.Process.Uses
/-!
# What has happened since

The trace only grows. What was added to it between two worlds is what has happened in between, and
a process adds nothing but the calls that it makes, their answers, and its entries.
-/

namespace NodeCoverage

variable {S : Service} {B : Behaviour S}

namespace World

/-- Since `w` these events have happened, in this order. -/
def Adds (w : World B) (events : List (Event S)) (w' : World B) : Prop :=
  w'.trace = w.trace ++ events.toArray

/-- Since `w` only such events have happened. -/
def Since (P : Event S → Prop) (w w' : World B) : Prop :=
  ∃ events, w.Adds events w' ∧ ∀ e ∈ events, P e

/-- Since `w` nothing was taken back. -/
abbrev Grows (w w' : World B) : Prop :=
  w.Since (fun _ => True) w'

variable {P Q : Event S → Prop} {w w₁ w₂ w₃ : World B} {events more : List (Event S)}

theorem Adds.refl (w : World B) : w.Adds [] w := by
  simp [Adds]

theorem Adds.trans (h₁ : w₁.Adds events w₂) (h₂ : w₂.Adds more w₃) :
    w₁.Adds (events ++ more) w₃ := by
  have h₁ : w₂.trace = w₁.trace ++ events.toArray := h₁
  have h₂ : w₃.trace = w₂.trace ++ more.toArray := h₂
  simp [Adds, h₁, h₂]

theorem adds_call (w : World B) (r : S.Request) :
    w.Adds [.called w.now w.calls r] (w.call r).2 := by
  simp [Adds, World.call]

theorem adds_answer (w : World B) (n : Nat) (r : S.Request) (k : B.Ticket) :
    w.Adds [.answered w.now n r (w.answer n r k).1] (w.answer n r k).2 := by
  simp [Adds, World.answer]

theorem adds_note (w : World B) (entry : S.Entry) : w.Adds [.noted w.now entry] (w.note entry) := by
  simp [Adds, World.note, World.noteAt]

theorem Adds.unique (h : w₁.Adds events w₂) (h' : w₁.Adds more w₂) : events = more := by
  have h : w₁.trace ++ events.toArray = w₁.trace ++ more.toArray := h.symm.trans h'
  simpa using congrArg Array.toList h

/-- Since `w` such an event has happened. -/
def Has (P : Event S → Prop) (w w' : World B) : Prop :=
  ∃ events, w.Adds events w' ∧ ∃ e ∈ events, P e

/-- Since `v` this call was answered so. -/
def Answered (v w : World B) (r : S.Request) (x : S.Reply r) : Prop :=
  ∃ events t n, v.Adds events w ∧ Event.answered t n r x ∈ events

theorem Answered.mono {v : World B} {r : S.Request} {x : S.Reply r} (h : v.Answered w₁ r x)
    (hadds : w₁.Adds more w₂) : v.Answered w₂ r x := by
  obtain ⟨events, t, n, hevents, hmem⟩ := h
  exact ⟨_, t, n, hevents.trans hadds, List.mem_append_left _ hmem⟩

theorem answered_answer {v : World B} (h : v.Adds events w) (n : Nat) (r : S.Request)
    (k : B.Ticket) : v.Answered (w.answer n r k).2 r (w.answer n r k).1 :=
  ⟨_, _, _, h.trans (adds_answer w n r k), List.mem_append_right _ (List.mem_singleton.mpr rfl)⟩

namespace Since

theorem refl (w : World B) : Since P w w :=
  ⟨[], .refl w, nofun⟩

theorem trans (h₁ : Since P w₁ w₂) (h₂ : Since P w₂ w₃) : Since P w₁ w₃ := by
  obtain ⟨events, hadds, hall⟩ := h₁
  obtain ⟨more, hadds', hall'⟩ := h₂
  refine ⟨events ++ more, hadds.trans hadds', fun e he => ?_⟩
  rcases List.mem_append.mp he with he | he
  · exact hall e he
  · exact hall' e he

theorem advance (w : World B) (t : Nat) : Since P w (w.advance t) :=
  ⟨[], by simp [Adds, World.advance], nofun⟩

theorem mono (h : Since P w₁ w₂) (hPQ : ∀ e, P e → Q e) : Since Q w₁ w₂ := by
  obtain ⟨events, hadds, hall⟩ := h
  exact ⟨events, hadds, fun e he => hPQ e (hall e he)⟩

theorem single {e : Event S} (h : w₁.Adds [e] w₂) (he : P e) : Since P w₁ w₂ :=
  ⟨[e], h, by simpa using he⟩

theorem of_single {e : Event S} (h : w₁.Adds [e] w₂) (hall : Since P w₁ w₂) : P e := by
  obtain ⟨events, hadds, hall⟩ := hall
  exact hall e (h.unique hadds ▸ List.mem_singleton.mpr rfl)

theorem split (h₁ : Since (fun _ => True) w₁ w₂) (h₂ : Since (fun _ => True) w₂ w₃)
    (h : Since P w₁ w₃) : Since P w₁ w₂ ∧ Since P w₂ w₃ := by
  obtain ⟨events, hadds, -⟩ := h₁
  obtain ⟨more, hadds', -⟩ := h₂
  obtain ⟨all, hall, hP⟩ := h
  obtain rfl := (hadds.trans hadds').unique hall
  exact ⟨⟨events, hadds, fun e he => hP e (List.mem_append_left _ he)⟩,
    ⟨more, hadds', fun e he => hP e (List.mem_append_right _ he)⟩⟩

theorem and (h : Since P w₁ w₂) (h' : Since Q w₁ w₂) : Since (fun e => P e ∧ Q e) w₁ w₂ := by
  obtain ⟨events, hadds, hP⟩ := h
  obtain ⟨more, hadds', hQ⟩ := h'
  obtain rfl := hadds.unique hadds'
  exact ⟨events, hadds, fun e he => ⟨hP e he, hQ e he⟩⟩

/-- What a process adds is of a kind if its calls, their answers and its entries are. -/
theorem keeps {calls : S.Request → Prop} {notes : S.Entry → Prop}
    (hcall : ∀ t k r, calls r → P (.called t k r))
    (hanswer : ∀ t k r x, calls r → P (.answered t k r x))
    (hnote : ∀ t entry, notes entry → P (.noted t entry)) (w : World B) :
    Keeps calls notes (Since P w) where
  call hr h := h.trans (.single (adds_call ..) (hcall _ _ _ hr))
  answer hr h := h.trans (.single (adds_answer ..) (hanswer _ _ _ _ hr))
  note hn h := h.trans (.single (adds_note ..) (hnote _ _ hn))

end Since

theorem Grows.keeps {calls : S.Request → Prop} {notes : S.Entry → Prop} (w : World B) :
    Keeps calls notes w.Grows :=
  Since.keeps (fun _ _ _ _ => trivial) (fun _ _ _ _ _ => trivial) (fun _ _ _ => trivial) w

theorem Has.mono {v : World B} (h : w₁.Has P w₂) (h₁ : v.Grows w₁) (h₂ : w₂.Grows w₃) :
    v.Has P w₃ := by
  obtain ⟨before, hbefore, -⟩ := h₁
  obtain ⟨events, hevents, e, hmem, he⟩ := h
  obtain ⟨after, hafter, -⟩ := h₂
  exact ⟨_, (hbefore.trans hevents).trans hafter, e,
    List.mem_append_left _ (List.mem_append_right _ hmem), he⟩

theorem Has.imp (h : w₁.Has P w₂) (hPQ : ∀ e, P e → Q e) : w₁.Has Q w₂ := by
  obtain ⟨events, hevents, e, hmem, he⟩ := h
  exact ⟨events, hevents, e, hmem, hPQ e he⟩

theorem Has.single {e : Event S} (h : w₁.Adds [e] w₂) (he : P e) : w₁.Has P w₂ :=
  ⟨[e], h, e, List.mem_singleton.mpr rfl, he⟩

end World
end NodeCoverage
