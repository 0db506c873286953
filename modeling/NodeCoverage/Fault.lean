/-!
# Faults

Some things a program cannot go on after. They are no errors that a caller could handle: the program
ends where they arise.
-/

namespace NodeCoverage

inductive Fault where
  | negativeInterval
  /-- The seconds of a duration came to more than 64 bits when the nanoseconds were carried over. -/
  | longDuration
deriving DecidableEq

namespace Fault

def message : Fault → String
  | negativeInterval => "cannot convert float seconds to Duration: value is negative"
  | longDuration => "overflow in Duration::new"

end Fault
end NodeCoverage
