import NodeCoverage.Check.Arguments
import Std.Time.DateTime.Timestamp
/-!
# The program

Reads the command line and the environment and says whether a run could begin. A run itself needs a
connection to a cluster, which this program does not make.
-/

namespace NodeCoverage
namespace Program

def name : String := "daemonset-check"

def version : String := "0.1.0"

def variableNames : List String :=
  Arguments.settings.map (·.fromVariable) ++ [Environment.urlVariable, Environment.uuidVariable]

def readEnvironment : IO Environment := do
  let values ← variableNames.mapM fun v => do pure (v, ← IO.getEnv v)
  pure fun v => (values.lookup v).join

def readClock : IO WorldTime := do
  let n := (← Std.Time.Timestamp.now).toNanosecondsSinceUnixEpoch.val
  pure ⟨Int.fdiv n 1000000000, (Int.fmod n 1000000000).toNat⟩

def explain : StartFault → IO Unit
  | .usage .help => IO.print (CommandLine.summary name Arguments.settings)
  | .usage .version => IO.println (name ++ " " ++ version)
  | fault => IO.eprintln fault.message

end Program
end NodeCoverage

open NodeCoverage in
def main (args : List String) : IO UInt32 := do
  let env ← Program.readEnvironment
  let now ← Program.readClock
  let fault := match Startup.prepare args env now with
    | .ok _ => .noCluster
    | .error fault => fault
  Program.explain fault
  pure fault.exitCode.toUInt32
