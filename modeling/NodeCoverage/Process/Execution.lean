import NodeCoverage.Process.Basic
import NodeCoverage.Time.Duration
/-!
# Running processes

The other side of the calls is a `Behaviour`: it decides when a call is answered and, at that
moment, what the answer is. It also decides what is drawn at random; its state changes with every
answer, so no two draws need to be equal. Nothing is assumed about it. A call that is abandoned is
never answered, so it has no later effect.

A process runs until it has to wait, and is then suspended. The clock stands still while it runs
and jumps to the next timer when it waits. Everything that happens is kept in the trace, with the
instant at which it happened.

Running takes fuel, so that it always ends; a process that needs more is `exhausted`.
-/

namespace NodeCoverage

open Process (afterRound)

/-- The other side of the calls. When a call is made, `start` decides how long it takes and may
keep a ticket for it; when that time is over, `answer` gives the reply. -/
structure Behaviour (S : Service) where
  State : Type
  Ticket : Type
  start : Nat → S.Request → State → Duration × Ticket × State
  answer : Nat → (r : S.Request) → Ticket → State → S.Reply r × State
  draw : Nat → State → Rat := fun _ _ => 1

/-- Something that happened. Calls are numbered in the order in which they were made. -/
inductive Event (S : Service) where
  | called (time number : Nat) (r : S.Request)
  | answered (time number : Nat) (r : S.Request) (reply : S.Reply r)
  | noted (time : Nat) (entry : S.Entry)

structure World {S : Service} (B : Behaviour S) where
  now : Nat
  state : B.State
  fired : Signal → Bool
  calls : Nat
  trace : Array (Event S)

namespace World

variable {S : Service} {B : Behaviour S}

def initial (state : B.State) : World B :=
  ⟨0, state, fun _ => false, 0, #[]⟩

def fire (w : World B) (s : Signal) : World B :=
  { w with fired := fun t => t = s || w.fired t }

def reset (w : World B) : World B :=
  { w with fired := fun _ => false }

def draw (w : World B) : Rat :=
  B.draw w.now w.state

def noteAt (w : World B) (t : Nat) (entry : S.Entry) : World B :=
  { w with trace := w.trace.push (.noted t entry) }

def note (w : World B) (entry : S.Entry) : World B :=
  w.noteAt w.now entry

/-- Moves the clock forward to `t`, never back. -/
def advance (w : World B) (t : Nat) : World B :=
  { w with now := max w.now t }

/-- Makes a call; the result is its number, its ticket and when it will be answered. -/
def call (w : World B) (r : S.Request) : (Nat × B.Ticket × Nat) × World B :=
  let (delay, ticket, state) := B.start w.now r w.state
  ((w.calls, ticket, Clock.timer (Clock.after w.now delay)),
    { w with
      state := state
      calls := w.calls + 1
      trace := w.trace.push (.called w.now w.calls r) })

def answer (w : World B) (number : Nat) (r : S.Request) (ticket : B.Ticket) :
    S.Reply r × World B :=
  let (reply, state) := B.answer w.now r ticket w.state
  (reply, { w with state := state, trace := w.trace.push (.answered w.now number r reply) })

end World

/-- A process that waits. -/
inductive Suspended {S : Service} (B : Behaviour S) : Type → Type 1 where
  /-- It has not begun. -/
  | ready {α : Type} (p : Process S α) : Suspended B α
  | asleep (t : Nat) : Suspended B Unit
  | waiting (number : Nat) (r : S.Request) (ticket : B.Ticket) (t : Nat) : Suspended B (S.Reply r)
  | bind {α β : Type} (p : Suspended B α) (next : α → Process S β) : Suspended B β
  | abandonOn {α : Type} (s : Signal) (p : Suspended B α) : Suspended B (Option α)
  | both {α β : Type} (p : Suspended B α) (q : Suspended B β) : Suspended B (α × β)
  /-- Two side by side, the second of which is done. -/
  | first {α β : Type} (p : Suspended B α) (b : β) : Suspended B (α × β)
  /-- Two side by side, the first of which is done. -/
  | second {α β : Type} (a : α) (q : Suspended B β) : Suspended B (α × β)

inductive Status {S : Service} (B : Behaviour S) (α : Type) : Type 1 where
  | finished (a : α)
  | suspended (p : Suspended B α)
  | crashed (f : Fault)
  | exhausted

namespace Suspended

variable {S : Service} {B : Behaviour S}

/-- The earliest instant at which one of its timers ends. -/
def wake {α : Type} : Suspended B α → Nat
  | ready _ => 0
  | asleep t => t
  | waiting _ _ _ t => t
  | bind p _ => p.wake
  | abandonOn _ p => p.wake
  | both p q => min p.wake q.wake
  | first p _ => p.wake
  | second _ q => q.wake

end Suspended

namespace Process

variable {S : Service} {B : Behaviour S}

/-- Runs a process until it is done or has to wait. -/
def start : (fuel : Nat) → {α : Type} → Process S α → World B → Status B α × World B
  | 0, _, _, w => (.exhausted, w)
  | _ + 1, _, .pure a, w => (.finished a, w)
  | n + 1, _, .bind p next, w =>
    match start n p w with
    | (.finished a, w) => start n (next a) w
    | (.suspended p, w) => (.suspended (.bind p next), w)
    | (.crashed f, w) => (.crashed f, w)
    | (.exhausted, w) => (.exhausted, w)
  | _ + 1, _, .clock, w => (.finished w.now, w)
  | _ + 1, _, .draw, w => (.finished w.draw, w)
  | _ + 1, _, .fired s, w => (.finished (w.fired s), w)
  | _ + 1, _, .note entry, w => (.finished (), w.note entry)
  | _ + 1, _, .call r, w =>
    let ((number, ticket, t), w) := w.call r
    if t ≤ w.now then
      let (reply, w) := w.answer number r ticket
      (.finished reply, w)
    else (.suspended (.waiting number r ticket t), w)
  | _ + 1, _, .sleepUntil t, w =>
    if Clock.timer t ≤ w.now then (.finished (), w)
    else (.suspended (.asleep (Clock.timer t)), w)
  | n + 1, _, .iterate body s, w => start n (.bind (body s) (afterRound body)) w
  | n + 1, _, .abandonOn s p, w =>
    if w.fired s then (.finished none, w)
    else match start n p w with
    | (.finished a, w) => (.finished (some a), w)
    | (.suspended p, w) => (.suspended (.abandonOn s p), w)
    | (.crashed f, w) => (.crashed f, w)
    | (.exhausted, w) => (.exhausted, w)
  | n + 1, _, .both p q, w =>
    match start n p w with
    | (.finished a, w) =>
      match start n q w with
      | (.finished b, w) => (.finished (a, b), w)
      | (.suspended q, w) => (.suspended (.second a q), w)
      | (.crashed f, w) => (.crashed f, w)
      | (.exhausted, w) => (.exhausted, w)
    | (.suspended p, w) =>
      match start n q w with
      | (.finished b, w) => (.suspended (.first p b), w)
      | (.suspended q, w) => (.suspended (.both p q), w)
      | (.crashed f, w) => (.crashed f, w)
      | (.exhausted, w) => (.exhausted, w)
    | (.crashed f, w) => (.crashed f, w)
    | (.exhausted, w) => (.exhausted, w)
  | _ + 1, _, .crash f, w => (.crashed f, w)

end Process

namespace Suspended

variable {S : Service} {B : Behaviour S}

/-- Wakes a process: the parts whose timers have ended go on, the others keep waiting. -/
def resume (fuel : Nat) : {α : Type} → Suspended B α → World B → Status B α × World B
  | _, .ready p, w => Process.start fuel p w
  | _, .asleep t, w => if t ≤ w.now then (.finished (), w) else (.suspended (.asleep t), w)
  | _, .waiting number r ticket t, w =>
    if t ≤ w.now then
      let (reply, w) := w.answer number r ticket
      (.finished reply, w)
    else (.suspended (.waiting number r ticket t), w)
  | _, .bind p next, w =>
    match resume fuel p w with
    | (.finished a, w) => Process.start fuel (next a) w
    | (.suspended p, w) => (.suspended (.bind p next), w)
    | (.crashed f, w) => (.crashed f, w)
    | (.exhausted, w) => (.exhausted, w)
  | _, .abandonOn s p, w =>
    if w.fired s then (.finished none, w)
    else match resume fuel p w with
    | (.finished a, w) => (.finished (some a), w)
    | (.suspended p, w) => (.suspended (.abandonOn s p), w)
    | (.crashed f, w) => (.crashed f, w)
    | (.exhausted, w) => (.exhausted, w)
  | _, .both p q, w =>
    match resume fuel p w with
    | (.finished a, w) =>
      match resume fuel q w with
      | (.finished b, w) => (.finished (a, b), w)
      | (.suspended q, w) => (.suspended (.second a q), w)
      | (.crashed f, w) => (.crashed f, w)
      | (.exhausted, w) => (.exhausted, w)
    | (.suspended p, w) =>
      match resume fuel q w with
      | (.finished b, w) => (.suspended (.first p b), w)
      | (.suspended q, w) => (.suspended (.both p q), w)
      | (.crashed f, w) => (.crashed f, w)
      | (.exhausted, w) => (.exhausted, w)
    | (.crashed f, w) => (.crashed f, w)
    | (.exhausted, w) => (.exhausted, w)
  | _, .first p b, w =>
    match resume fuel p w with
    | (.finished a, w) => (.finished (a, b), w)
    | (.suspended p, w) => (.suspended (.first p b), w)
    | (.crashed f, w) => (.crashed f, w)
    | (.exhausted, w) => (.exhausted, w)
  | _, .second a q, w =>
    match resume fuel q w with
    | (.finished b, w) => (.finished (a, b), w)
    | (.suspended q, w) => (.suspended (.second a q), w)
    | (.crashed f, w) => (.crashed f, w)
    | (.exhausted, w) => (.exhausted, w)

/-- The instant lies before the bound; there is always time without a bound. -/
def within (bound : Option Nat) (t : Nat) : Bool :=
  match bound with
  | none => true
  | some b => t < b

/-- Runs a process as long as the clock stays before the bound. It is woken now and whenever a
timer ends. -/
def runUntil (fuel : Nat) (bound : Option Nat) :
    (rounds : Nat) → {α : Type} → Suspended B α → World B → Status B α × World B
  | 0, _, _, w => (.exhausted, w)
  | rounds + 1, _, p, w =>
    if within bound w.now then
      match p.resume fuel w with
      | (.suspended p, w) =>
        if within bound p.wake then runUntil fuel bound rounds p (w.advance p.wake)
        else (.suspended p, w)
      | (.finished a, w) => (.finished a, w)
      | (.crashed f, w) => (.crashed f, w)
      | (.exhausted, w) => (.exhausted, w)
    else (.suspended p, w)

/-- Runs a process to its end while signals fire at the given instants, in order. At the instant of
a signal the process is woken before the signal fires and again afterwards. -/
def runWith (fuel rounds : Nat) :
    {α : Type} → List (Nat × Signal) → Suspended B α → World B → Status B α × World B
  | _, [], p, w => runUntil fuel none rounds p w
  | _, (t, s) :: later, p, w =>
    match runUntil fuel (some (t + 1)) rounds p w with
    | (.suspended p, w) => runWith fuel rounds later p ((w.advance t).fire s)
    | (.finished a, w) => (.finished a, w)
    | (.crashed f, w) => (.crashed f, w)
    | (.exhausted, w) => (.exhausted, w)

end Suspended

namespace Status

variable {S : Service} {B : Behaviour S} {α : Type}

/-- Goes on with a process, if it waits, as long as the clock stays before the bound. -/
def goOn (fuel : Nat) (bound : Option Nat) : Status B α → World B → Status B α × World B
  | .suspended p, w => p.runUntil fuel bound fuel w
  | st, w => (st, w)

def hasEnded : Status B α → Bool
  | .finished _ | .crashed _ => true
  | .suspended _ | .exhausted => false

end Status
end NodeCoverage
