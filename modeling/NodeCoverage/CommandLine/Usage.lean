import NodeCoverage.Fault
import NodeCoverage.Text.Integer
import NodeCoverage.Text.Terminal
import NodeCoverage.Time.DurationText
/-!
# Faults of a command line

A command line is refused at its first fault. A request for help or for the version is not a
fault of the user, but it ends the reading of the command line in the same way. What the user wrote
is repeated as a terminal shows it.
-/

namespace NodeCoverage
namespace CommandLine

inductive ValueFault where
  /-- It is not one of the words that can be chosen. -/
  | choice
  | integer (fault : Text.IntegerFault)
  | outOfRange (n : Int) (largest : Nat)
  | duration (fault : DurationText.Fault)
deriving DecidableEq

inductive UsageFault where
  | help
  | version
  | unknownArgument (arg : String)
  /-- A flag without a value was given one. -/
  | unwantedValue (flag value : String)
  | missingValue (setting : String)
  /-- A setting was given twice. -/
  | repeated (setting : String)
  | badValue (setting value : String) (fault : ValueFault)
deriving DecidableEq

/-- How a setting is written: its name and, in capitals, what stands for its value. -/
def form (setting : String) : String :=
  let value := setting.toList.map fun c => if c = '-' then '_' else c.toUpper
  "--" ++ setting ++ " <" ++ String.ofList value ++ ">"

namespace UsageFault

def missing (setting : String) : String :=
  "a value is required for '" ++ form setting ++ "' but none was supplied"

def invalid (setting value : String) : String :=
  "invalid value '" ++ Text.shown value ++ "' for '" ++ form setting ++ "'"

/-- A bad value in words. An empty word is no word. -/
def badValueMessage (setting value : String) : ValueFault → String
  | .choice => if value.isEmpty then missing setting else invalid setting value
  | .integer fault => invalid setting value ++ ": " ++ fault.message
  | .outOfRange n largest => invalid setting value ++ s!": {n} is not in 0..={largest}"
  | .duration fault => invalid setting value ++ ": " ++ fault.message

/-- What the reading cannot go on after, if that is the fault. -/
def fatal? : UsageFault → Option Fault
  | badValue _ _ (.duration .carry) => some .longDuration
  | _ => none

def message? : UsageFault → Option String
  | help => none
  | version => none
  | unknownArgument arg => some ("unexpected argument '" ++ Text.shown arg ++ "' found")
  | unwantedValue flag value =>
    some ("unexpected value '" ++ Text.shown value ++ "' for '" ++ flag ++
      "' found; no more were expected")
  | missingValue setting => some (missing setting)
  | repeated setting =>
    some ("the argument '" ++ form setting ++ "' cannot be used multiple times")
  | badValue setting value fault => some (badValueMessage setting value fault)

end UsageFault
end CommandLine
end NodeCoverage
