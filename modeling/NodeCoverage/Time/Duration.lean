/-!
# Durations and instants

A duration is a whole number of nanoseconds. An instant is a natural number: the nanoseconds since
the clock began. Timers end at whole milliseconds, so a timer set for an instant between two of them
ends at the later one. A sleep is a timer that is set for a time after now, and never lasts longer
than thirty years.

Neither has an upper end here: that a sum may be too long for a duration of 64 bits of seconds, or
too late for the clock to hold, is left out.
-/

namespace NodeCoverage

structure Duration where
  nanos : Nat
deriving DecidableEq, Inhabited

namespace Duration

def zero : Duration := ⟨0⟩

def ofSeconds (n : Nat) : Duration := ⟨n * 1000000000⟩

def ofMillis (n : Nat) : Duration := ⟨n * 1000000⟩

def seconds (d : Duration) : Nat := d.nanos / 1000000000

/-- Nanoseconds beyond the whole seconds. -/
def subsecond (d : Duration) : Nat := d.nanos % 1000000000

def min (d e : Duration) : Duration := if d.nanos ≤ e.nanos then d else e

@[simp] theorem nanos_min (d e : Duration) : (d.min e).nanos = Nat.min d.nanos e.nanos := by
  unfold min
  split <;> simp only [Nat.min_def] <;> split <;> omega

end Duration

namespace Clock

/-- When a timer set for the instant `t` ends. -/
def timer (t : Nat) : Nat := (t + 999999) / 1000000 * 1000000

/-- The longest sleep: thirty years of 365 days. -/
def longestSleep : Duration := .ofSeconds (30 * 365 * 86400)

/-- The instant for which a sleep of length `d` that begins at `now` sets its timer. -/
def after (now : Nat) (d : Duration) : Nat := now + (d.min longestSleep).nanos

/-- The instant so many milliseconds after the clock began. -/
def ofMillis (n : Nat) : Nat := n * 1000000

/-- Whole milliseconds since the clock began. -/
def millis (t : Nat) : Nat := t / 1000000

theorem le_timer (t : Nat) : t ≤ timer t := by
  unfold timer
  omega

/-- A timer is less than one millisecond late. -/
theorem timer_lt (t : Nat) : timer t < t + 1000000 := by
  unfold timer
  omega

theorem timer_mono {s t : Nat} (h : s ≤ t) : timer s ≤ timer t := by
  unfold timer
  omega

theorem timer_ofMillis (n : Nat) : timer (ofMillis n) = ofMillis n := by
  unfold timer ofMillis
  omega

end Clock
end NodeCoverage
