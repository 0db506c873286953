import NodeCoverage.CommandLine.Usage
import NodeCoverage.Report.Environment
import NodeCoverage.Text.Split
/-!
# Settings on a command line

A setting is given as `--name value` or `--name=value`, or else by a variable of the environment.
Two flags, `--help` and `--version`, have no value. Nothing else is accepted: there are no
arguments without a name, and a value that begins with a hyphen must be written behind a sign.

The value of `--name value` is read with the next argument. A bad value is reported before what is
wrong with a known argument behind it, and after an argument that is not known, unless the reading
cannot go on after the value. Variables are looked at last, in the
order of the settings, and only for settings that were not given.
-/

namespace NodeCoverage
namespace CommandLine

structure Setting (α : Type) where
  name : String
  fromVariable : String
  set : String → α → Except ValueFault α

structure Reading (α : Type) where
  value : α
  given : List String := []
  /-- The last setting, which has not been read yet, and its value if that was met. -/
  pending : Option (Setting α × Option String) := none
  /-- Behind `--`, where arguments have no names. -/
  named : Bool := true

namespace Reading

variable {α : Type}

/-- Reads the value of a setting, which may be given once only. -/
def give (r : Reading α) (s : Setting α) (text : String) : Except UsageFault (Reading α) :=
  if r.given.contains s.name then .error (.repeated s.name)
  else
    match s.set text r.value with
    | .ok value => .ok { r with value := value, given := s.name :: r.given }
    | .error fault => .error (.badValue s.name text fault)

/-- Reads the last setting if that has not been done. -/
def resolve (r : Reading α) : Except UsageFault (Reading α) :=
  match r.pending with
  | none => .ok r
  | some (s, none) => .error (.missingValue s.name)
  | some (s, some text) => { r with pending := none }.give s text

/-- A flag without a value ends the reading. -/
def flag (r : Reading α) (outcome : UsageFault) : Except UsageFault (Reading α) :=
  match r.resolve with
  | .ok _ => .error outcome
  | .error fault => .error fault

/-- Refuses an argument. The last setting is still read, but what is wrong with it only counts if
the reading cannot go on after it. -/
def refuse (r : Reading α) (refusal : UsageFault) : Except UsageFault (Reading α) :=
  match r.resolve with
  | .ok _ => .error refusal
  | .error fault => .error (if fault.fatal?.isSome then fault else refusal)

def flagOutcome? (name : String) : Option UsageFault :=
  if name = "help" then some .help
  else if name = "version" then some .version
  else none

def letterOutcome? (c : Char) : Option UsageFault :=
  if c = 'h' then some .help
  else if c = 'V' then some .version
  else none

/-- An argument with a long name, and with the value behind its sign if it has one. -/
def long (settings : List (Setting α)) (r : Reading α) (name : String) (value : Option String) :
    Except UsageFault (Reading α) :=
  match settings.find? fun s => s.name = name with
  | some s => do
    let r ← r.resolve
    match value with
    | some text => r.give s text
    | none => .ok { r with pending := some (s, none) }
  | none =>
    match flagOutcome? name, value with
    | some outcome, none => r.flag outcome
    | some _, some text => r.refuse (.unwantedValue ("--" ++ name) text)
    | none, _ => r.refuse (.unknownArgument ("--" ++ name))

def letter (r : Reading α) (c : Char) : Except UsageFault (Reading α) :=
  match letterOutcome? c with
  | some outcome => r.flag outcome
  | none => r.refuse (.unknownArgument (String.ofList ['-', c]))

/-- An argument without a name is the value of the setting in front of it. -/
def bare (r : Reading α) (arg : String) : Except UsageFault (Reading α) :=
  match r.pending with
  | some (s, none) => .ok { r with pending := some (s, some arg) }
  | _ => r.refuse (.unknownArgument arg)

def next (settings : List (Setting α)) (r : Reading α) (arg : String) :
    Except UsageFault (Reading α) :=
  if !r.named then r.refuse (.unknownArgument arg)
  else
    match arg.toList with
    | ['-', '-'] => .ok { r with named := false }
    | '-' :: '-' :: rest =>
      match Text.cutAtFirst '=' rest with
      | some (name, value) => r.long settings (String.ofList name) (some (String.ofList value))
      | none => r.long settings (String.ofList rest) none
    | '-' :: c :: _ => r.letter c
    | _ => r.bare arg

/-- Reads a setting from its variable if it was not given. -/
def complete (env : Environment) (r : Reading α) (s : Setting α) :
    Except UsageFault (Reading α) :=
  if r.given.contains s.name then .ok r
  else
    match env s.fromVariable with
    | some text => r.give s text
    | none => .ok r

end Reading

/-- The settings that a command line gives, on top of `standard`. -/
def read {α : Type} (settings : List (Setting α)) (standard : α) (args : List String)
    (env : Environment) : Except UsageFault α := do
  let r ← args.foldlM (Reading.next settings) { value := standard }
  let r ← r.resolve
  let r ← settings.foldlM (Reading.complete env) r
  pure r.value

def summary {α : Type} (program : String) (settings : List (Setting α)) : String :=
  let line (s : Setting α) := "  " ++ form s.name ++ " [env: " ++ s.fromVariable ++ "]\n"
  "Usage: " ++ program ++ " [OPTIONS]\n\nOptions:\n" ++ String.join (settings.map line) ++
    "  -h, --help\n  -V, --version\n"

end CommandLine
end NodeCoverage
