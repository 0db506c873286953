import NodeCoverage.Check.Config
import NodeCoverage.Check.Exit
import NodeCoverage.Cluster.Error
import NodeCoverage.CommandLine.Setting
/-!
# The command line of the check

Each setting of the check has an option and a variable. Before a run can begin the command line must
be readable, the configuration must be sound, and the environment must say where to report.
-/

namespace NodeCoverage
namespace Arguments

open CommandLine

def text (name fromVariable : String) (set : String → Arguments → Arguments) :
    Setting Arguments where
  name := name
  fromVariable := fromVariable
  set s a := .ok (set s a)

def duration (name fromVariable : String) (set : Duration → Arguments → Arguments) :
    Setting Arguments where
  name := name
  fromVariable := fromVariable
  set s a := match DurationText.parse s with
    | .ok d => .ok (set d a)
    | .error fault => .error (.duration fault)

def integer (name fromVariable : String) (set : Int → Arguments → Arguments) :
    Setting Arguments where
  name := name
  fromVariable := fromVariable
  set s a := match Text.readInt64 s with
    | .ok n => .ok (set n a)
    | .error fault => .error (.integer fault)

/-- A setting whose value is a number from zero to `largest`. -/
def count (name fromVariable : String) (largest : Nat) (set : Nat → Arguments → Arguments) :
    Setting Arguments where
  name := name
  fromVariable := fromVariable
  set s a := match Text.readInt64 s with
    | .ok n =>
      if 0 ≤ n ∧ n ≤ largest then .ok (set n.toNat a) else .error (.outOfRange n largest)
    | .error fault => .error (.integer fault)

def logFormat? (s : String) : Option LogFormat :=
  if s = "text" then some .text
  else if s = "json" then some .json
  else none

def logFormatSetting : Setting Arguments where
  name := "log-format"
  fromVariable := "LOG_FORMAT"
  set s a := match logFormat? s with
    | some f => .ok { a with logFormat := f }
    | none => .error .choice

def settings : List (Setting Arguments) :=
  [text "namespace" "POD_NAMESPACE" fun s a => { a with nameSpace := s },
    text "image" "PAUSE_CONTAINER_IMAGE" fun s a => { a with image := s },
    text "base-name" "CHECK_DAEMONSET_NAME" fun s a => { a with baseName := s },
    duration "shutdown-grace-period" "SHUTDOWN_GRACE_PERIOD"
      fun d a => { a with shutdownGracePeriod := d },
    text "run-deadline" "KH_CHECK_RUN_DEADLINE" fun s a => { a with runDeadline := some s },
    duration "check-time-limit" "CHECK_TIME_LIMIT" fun d a => { a with checkTimeLimit := d },
    duration "pre-cleanup-timeout" "PRE_CLEANUP_TIMEOUT"
      fun d a => { a with preCleanupTimeout := d },
    text "tolerations" "TOLERATIONS" fun s a => { a with tolerations := some s },
    text "allowed-taints" "ALLOWED_TAINTS" fun s a => { a with allowedTaints := some s },
    text "node-selector" "NODE_SELECTOR" fun s a => { a with nodeSelector := some s },
    text "priority-class" "PRIORITY_CLASS" fun s a => { a with priorityClass := some s },
    integer "run-as-user" "RUN_AS_USER" fun n a => { a with runAsUser := n },
    count "ready-stability-ticks" "READY_STABILITY_TICKS" 4294967295
      fun n a => { a with readyStabilityTicks := n },
    duration "poll-interval" "POLL_INTERVAL" fun d a => { a with pollInterval := d },
    duration "pod-redelete-interval" "POD_REDELETE_INTERVAL"
      fun d a => { a with podRedeleteInterval := d },
    duration "removal-poll-interval" "REMOVAL_POLL_INTERVAL"
      fun d a => { a with removalPollInterval := d },
    duration "api-retry-max-elapsed" "API_RETRY_MAX_ELAPSED"
      fun d a => { a with apiRetryMaxElapsed := d },
    text "hostname" "HOSTNAME" fun s a => { a with hostname := some s },
    logFormatSetting]

def standard : Arguments where
  nameSpace := "kuberhealthy"
  image := Config.defaultImage
  baseName := "daemonset"
  shutdownGracePeriod := .ofSeconds 60
  runDeadline := none
  checkTimeLimit := .ofSeconds 900
  preCleanupTimeout := .ofSeconds 120
  tolerations := none
  allowedTaints := none
  nodeSelector := none
  priorityClass := none
  runAsUser := 1000
  readyStabilityTicks := 5
  pollInterval := .ofSeconds 1
  podRedeleteInterval := .ofSeconds 30
  removalPollInterval := .ofMillis 500
  apiRetryMaxElapsed := .ofSeconds 60
  hostname := none
  logFormat := .text

def ofCommandLine (args : List String) (env : Environment) : Except UsageFault Arguments :=
  CommandLine.read settings standard args env

end Arguments

inductive StartFault where
  | usage (fault : CommandLine.UsageFault)
  | config (fault : ConfigFault)
  | reporting (fault : ReportError)
  | noCluster

namespace StartFault

def message : StartFault → String
  | usage fault => match fault.fatal?, fault.message? with
    | some f, _ => f.message
    | none, some m => "error: " ++ m
    | none, none => ""
  | config fault => "Invalid configuration: " ++ (CheckError.config fault.message).message
  | reporting fault => "Reporting environment is incomplete: " ++ fault.message
  | noCluster => "Failed to connect to a cluster"

def fatalCode : Nat := 101

/-- The status of a check that did not start. Only who asked for help or the version got what was
asked for. -/
def exitCode : StartFault → Nat
  | usage .help => RunExit.completed.code
  | usage .version => RunExit.completed.code
  | usage fault => if fault.fatal?.isSome then fatalCode else RunExit.reportFailed.code
  | _ => RunExit.reportFailed.code

end StartFault

structure Startup where
  config : Config
  reportingUrl : String
  runUuid : String

def Startup.prepare (args : List String) (env : Environment) (now : WorldTime) :
    Except StartFault Startup := do
  let arguments ← (Arguments.ofCommandLine args env).mapError .usage
  let config ← (Config.ofArguments arguments now).mapError .config
  let url ← env.reportingUrl.mapError .reporting
  let uuid ← env.runUuid.mapError .reporting
  pure ⟨config, url, uuid⟩

end NodeCoverage
