import NodeCoverage.Backoff
import NodeCoverage.Check.Run
import NodeCoverage.Check.Tolerance
import NodeCoverage.Report.Environment
import NodeCoverage.Time.DurationText
/-!
# Configuration

The arguments of a run are checked once, before anything else is done, against the moment at which
they are given. A deadline, less the time kept for teardown, sets the run's budget; without one the
time limit does. The time for cleaning up beforehand is cut down to the budget.
-/

namespace NodeCoverage

inductive LogFormat where
  | text
  | json
deriving DecidableEq

/-- The arguments of a run, each of its own form but not yet checked against each other. -/
structure Arguments where
  nameSpace : String
  image : String
  baseName : String
  shutdownGracePeriod : Duration
  runDeadline : Option String
  checkTimeLimit : Duration
  preCleanupTimeout : Duration
  tolerations : Option String
  allowedTaints : Option String
  nodeSelector : Option String
  priorityClass : Option String
  runAsUser : Int
  readyStabilityTicks : Nat
  pollInterval : Duration
  podRedeleteInterval : Duration
  removalPollInterval : Duration
  apiRetryMaxElapsed : Duration
  hostname : Option String
  logFormat : LogFormat

structure Config where
  nameSpace : String
  image : String
  baseName : String
  hostIdentity : String
  shutdownGracePeriod : Duration
  /-- Time from the start until the run must have come to its result. -/
  runBudget : Duration
  preCleanupTimeout : Duration
  /-- Tolerances that were given; otherwise they are those of the nodes. -/
  tolerationsOverride : Option ToleranceSet
  allowedTaints : List AllowedTaint
  nodeSelector : Labels
  priorityClass : Option String
  runAsUser : Int
  /-- Clean looks in a row that are required. -/
  stabilityTicks : Nat
  pollInterval : Duration
  podRedeleteInterval : Duration
  removalPollInterval : Duration
  apiBackoff : Backoff
  logFormat : LogFormat

inductive ConfigFault where
  | shortGracePeriod (d : Duration)
  | noStabilityTicks
  | zero (setting : String)
  | blankBaseName
  | deadline (fault : ReportError)
  | noTimeLeft (moment : WorldTime) (grace : Duration)
  | tolerations (entry : String)
  | allowedTaints (entry : String)
  | nodeSelector (entry : String)

namespace ConfigFault

def message : ConfigFault → String
  | shortGracePeriod d =>
    "SHUTDOWN_GRACE_PERIOD must be at least 1s, got " ++ DurationText.render d
  | noStabilityTicks => "READY_STABILITY_TICKS must be at least 1"
  | zero setting => setting ++ " must be greater than zero"
  | blankBaseName => "CHECK_DAEMONSET_NAME is blank"
  | deadline fault => fault.message
  | noTimeLeft moment grace =>
    "run deadline " ++ moment.render ++ " leaves no time after the " ++
      DurationText.render grace ++ " shutdown grace period"
  | tolerations entry => "TOLERATIONS entry '" ++ entry ++ "' is not key,value,effect"
  | allowedTaints entry => "ALLOWED_TAINTS entry '" ++ entry ++ "' is not key:effect"
  | nodeSelector entry => "NODE_SELECTOR entry '" ++ entry ++ "' is not key=value"

end ConfigFault

namespace NodeSelector

/-- Reads `key=value`. The value begins behind the first sign, and only it may be blank. -/
def ofEntry? (entry : List Char) : Option (String × String) := do
  let (key, value) ← Text.cutAtFirst '=' entry
  let key := Text.trimChars key
  if key.isEmpty then none
  else some (String.ofList key, String.ofList (Text.trimChars value))

/-- Reads a list of labels, of which the last with a key counts; the error is the first entry that
is not `key=value`. -/
def parse (text : String) : Except String Labels :=
  (Std.ExtTreeMap.ofList ·) <$> Text.readEntries ',' ofEntry? text

end NodeSelector

namespace Config

def defaultImage : String := "gcr.io/google-containers/pause:3.1"

def standard : Config where
  nameSpace := "kuberhealthy"
  image := defaultImage
  baseName := "daemonset"
  hostIdentity := "kuberhealthy"
  shutdownGracePeriod := .ofSeconds 60
  runBudget := .ofSeconds 900
  preCleanupTimeout := .ofSeconds 120
  tolerationsOverride := none
  allowedTaints := []
  nodeSelector := ∅
  priorityClass := none
  runAsUser := 1000
  stabilityTicks := 5
  pollInterval := .ofSeconds 1
  podRedeleteInterval := .ofSeconds 30
  removalPollInterval := .ofMillis 500
  apiBackoff := .standard
  logFormat := .text

/-- The time from `now` to the deadline, less the time kept for teardown. There must be some. -/
def budgetUntil (text : String) (now : WorldTime) (grace : Duration) :
    Except ConfigFault Duration :=
  match Environment.parseDeadline text with
  | .error fault => .error (.deadline fault)
  | .ok deadline =>
    let left := deadline.since now - Int.ofNat grace.nanos
    if 0 < left then .ok ⟨left.toNat⟩ else .error (.noTimeLeft deadline grace)

/-- The budget of a run: until the deadline, if there is one, else the time limit. -/
def budget (args : Arguments) (now : WorldTime) : Except ConfigFault Duration :=
  match args.runDeadline with
  | none => .ok args.checkTimeLimit
  | some text =>
    if Text.blank text then .ok args.checkTimeLimit
    else budgetUntil (Text.trim text) now args.shutdownGracePeriod

def readList {α : Type} (absent : α) (fault : String → ConfigFault)
    (parse : String → Except String α) : Option String → Except ConfigFault α
  | none => .ok absent
  | some text => (parse text).mapError fault

def intervals (args : Arguments) : List (String × Duration) :=
  [("POLL_INTERVAL", args.pollInterval), ("POD_REDELETE_INTERVAL", args.podRedeleteInterval),
    ("REMOVAL_POLL_INTERVAL", args.removalPollInterval), ("CHECK_TIME_LIMIT", args.checkTimeLimit)]

def basicFault? (args : Arguments) : Option ConfigFault :=
  if args.shutdownGracePeriod.nanos < 1000000000 then
    some (.shortGracePeriod args.shutdownGracePeriod)
  else if args.readyStabilityTicks = 0 then some .noStabilityTicks
  else match (intervals args).find? fun i => i.2.nanos = 0 with
  | some (setting, _) => some (.zero setting)
  | none => if Text.blank args.baseName then some .blankBaseName else none

def ofArguments (args : Arguments) (now : WorldTime) : Except ConfigFault Config := do
  if let some fault := basicFault? args then throw fault
  let runBudget ← budget args now
  let tolerationsOverride ← readList none .tolerations (fun s => some <$> ToleranceSet.parse s)
    (args.tolerations.filter fun s => !Text.blank s)
  let allowedTaints ← readList [] .allowedTaints AllowedTaint.parseList args.allowedTaints
  let nodeSelector ← readList ∅ .nodeSelector NodeSelector.parse args.nodeSelector
  pure
    { nameSpace := args.nameSpace
      image := args.image
      baseName := args.baseName
      hostIdentity := Run.hostIdentity args.hostname
      shutdownGracePeriod := args.shutdownGracePeriod
      runBudget := runBudget
      preCleanupTimeout := args.preCleanupTimeout.min runBudget
      tolerationsOverride := tolerationsOverride
      allowedTaints := allowedTaints
      nodeSelector := nodeSelector
      priorityClass := args.priorityClass.filter fun s => !Text.blank s
      runAsUser := args.runAsUser
      stabilityTicks := args.readyStabilityTicks
      pollInterval := args.pollInterval
      podRedeleteInterval := args.podRedeleteInterval
      removalPollInterval := args.removalPollInterval
      apiBackoff := .withMaxElapsed args.apiRetryMaxElapsed
      logFormat := args.logFormat }

end Config
end NodeCoverage
