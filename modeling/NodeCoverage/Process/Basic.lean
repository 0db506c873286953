import NodeCoverage.Fault
/-!
# Processes

A process is a program as data. It reads the clock, draws numbers, sleeps, looks at signals, makes
calls on a service and leaves notes in the log. Parts are put in sequence, repeated, run side by
side, or abandoned as soon as a signal has fired. What a process does is defined by running it, in
`Process.Execution`; here is only its shape.

A process never sees the world except through these steps. Hence a fact about all processes of a
certain shape, such as that only calls of one kind are made, needs no assumption on the world.
-/

namespace NodeCoverage

/-- What can be asked of the other side of a call, what comes back, and what is noted in the log. -/
structure Service where
  Request : Type
  Reply : Request → Type
  Entry : Type

/-- The signals a process can look at. Once fired, a signal stays so. -/
inductive Signal where
  /-- Stops everything but teardown. -/
  | run
  /-- An interrupt was received. -/
  | shutdown
  /-- The grace period is over. -/
  | hardStop
deriving DecidableEq

inductive Process (S : Service) : Type → Type 1 where
  | pure {α : Type} (a : α) : Process S α
  /-- Goes on with what `next` makes of the result of `p`. -/
  | bind {α β : Type} (p : Process S α) (next : α → Process S β) : Process S β
  | clock : Process S Nat
  /-- Draws a number at random. -/
  | draw : Process S Rat
  | fired (s : Signal) : Process S Bool
  | note (entry : S.Entry) : Process S Unit
  /-- Makes a call and waits for its answer. -/
  | call (r : S.Request) : Process S (S.Reply r)
  /-- Waits for a timer set for the instant `t`. -/
  | sleepUntil (t : Nat) : Process S Unit
  /-- Repeats `body` from `s` on until it gives a result. -/
  | iterate {σ α : Type} (body : σ → Process S (σ ⊕ α)) (s : σ) : Process S α
  /-- Runs `p`, but abandons it once the signal has fired. The signal is looked at first, each time
  the process is woken. -/
  | abandonOn {α : Type} (s : Signal) (p : Process S α) : Process S (Option α)
  /-- Runs `p` and `q` side by side until both are done; `p` comes first at each moment. -/
  | both {α β : Type} (p : Process S α) (q : Process S β) : Process S (α × β)
  | crash {α : Type} (f : Fault) : Process S α

namespace Process

variable {S : Service}

instance : Monad (Process S) where
  pure := .pure
  bind := .bind

/-- What `iterate` does after one round. -/
def afterRound {σ α : Type} (body : σ → Process S (σ ⊕ α)) : σ ⊕ α → Process S α
  | .inl s => .iterate body s
  | .inr a => .pure a

end Process
end NodeCoverage
