import NodeCoverage.Number.Binary64
import NodeCoverage.Time.Duration
/-!
# Exponential backoff

A policy says how long to wait between attempts: a first interval, a factor by which it grows, a
cap on the grown intervals, and a bound on the time since the first attempt. Intervals grow in the
arithmetic of 53 significant bits and are rounded to whole nanoseconds, so that the delays are
exact numbers. A policy with a spread multiplies each interval by a factor that is drawn at random;
here that number is given.

Factors and spreads are numbers; the infinities of the binary format and its values that are no
number are left out. So is the failure of a delay that does not fit into 64 bits of seconds.
-/

namespace NodeCoverage

structure Backoff where
  initialInterval : Duration
  /-- Growth factor applied after every retry, a number of 53 significant bits. -/
  multiplier : Rat
  /-- How far a delay may be spread at random, as a part of the delay. -/
  randomization : Rat
  maxInterval : Duration
  /-- No retry is begun that would end later than this after the first attempt. -/
  maxElapsed : Option Duration

namespace Backoff

/-- Half a second at first, half as much again each time up to a minute, for at most a minute. -/
def standard : Backoff where
  initialInterval := .ofMillis 500
  multiplier := 3 / 2
  randomization := 1 / 2
  maxInterval := .ofSeconds 60
  maxElapsed := some (.ofSeconds 60)

def withMaxElapsed (d : Duration) : Backoff :=
  { standard with maxElapsed := some d }

/-- The duration in seconds, as a number of 53 significant bits. -/
def inSeconds (d : Duration) : Rat :=
  Number.Binary64.add (Number.Binary64.round d.seconds)
    (Number.Binary64.round (mkRat d.subsecond 1000000000))

def ofSeconds (x : Rat) : Duration :=
  ⟨Number.nearest (x.num.natAbs * 1000000000) x.den⟩

/-- The drawn number as a factor, one from `1 - spread` to `1 + spread`. No spread is greater
than one. -/
def factor (policy : Backoff) (drawn : Rat) : Rat :=
  let spread := if 1 < policy.randomization then 1 else policy.randomization
  let low := Number.Binary64.round (1 - spread)
  let high := Number.Binary64.round (1 + spread)
  let factor := Number.Binary64.round drawn
  if factor < low then low else if high < factor then high else factor

/-- The delay that an interval comes to, spread by what was drawn if it is spread at all. -/
def delay (policy : Backoff) (drawn : Rat) (interval : Duration) : Duration :=
  if 0 < policy.randomization then
    ofSeconds (Number.Binary64.mul (inSeconds interval) (policy.factor drawn))
  else interval

/-- The interval after `current`; there is none if it would be negative. -/
def nextInterval? (policy : Backoff) (current : Duration) : Option Duration :=
  let grown := Number.Binary64.mul (inSeconds current) policy.multiplier
  let cap := inSeconds policy.maxInterval
  let next := if cap < grown then cap else grown
  if next < 0 then none else some (ofSeconds next)

def exhausted (policy : Backoff) (elapsed delay : Duration) : Bool :=
  match policy.maxElapsed with
  | none => false
  | some bound => bound.nanos < elapsed.nanos + delay.nanos

end Backoff
end NodeCoverage
