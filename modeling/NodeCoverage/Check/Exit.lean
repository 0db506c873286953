/-!
# How a run ends

The exit of a run says what became of its verdict, and has a code for the process that ran it.
-/

namespace NodeCoverage

inductive RunExit where
  | completed
  /-- The verdict could not be delivered. -/
  | reportFailed
  /-- Teardown did not finish in time, or a second interrupt came. -/
  | forced
  /-- The run was interrupted, torn down and reported. -/
  | interrupted
deriving DecidableEq

namespace RunExit

def code : RunExit → Nat
  | completed => 0
  | reportFailed => 1
  | forced => 2
  | interrupted => 3

def name : RunExit → String
  | completed => "Completed"
  | reportFailed => "ReportFailed"
  | forced => "Forced"
  | interrupted => "Interrupted"

def all : List RunExit :=
  [completed, reportFailed, forced, interrupted]

theorem code_injective {a b : RunExit} (h : a.code = b.code) : a = b := by
  cases a <;> cases b <;> simp_all [code]

end RunExit
end NodeCoverage
