import MeshLimiter.Options.Start
/-!
# The command

Reads the command line and the files that it names, starts and stops the controller, and writes what
it reports. A cluster counts as reached if the file that describes clusters is there.
-/

namespace MeshLimiter

/-- The text of a file, if a path is given and the file can be read. -/
def readIfGiven (path : Option String) : IO (Option String) :=
  match path with
  | none => return none
  | some path => try return some (← IO.FS.readFile path) catch _ => return none

def LogFormat.line (format : LogFormat) (e : LogEvent) : String :=
  match format with
  | .plain => e.plainLine
  | .json => e.toJson.compact

def Options.run (o : Options) : IO UInt32 := do
  let metricConfig ← readIfGiven o.metricConfig
  let clusters ← readIfGiven o.client.kubeconfig
  let around : Surroundings := {
    fileText := fun _ => metricConfig
    leadsToCluster := fun _ => clusters.isSome }
  match o.check around.fileText with
  | .error e => IO.eprintln ("Error: " ++ e.message?.getD "the metric queries cannot be read")
  | .ok _ => if clusters.isNone then IO.eprintln "Error: no cluster is described"
  let report := RunReport.ofOptions o around
  for e in report.log do
    IO.println (o.logFormat.line e)
  return report.exitCode.toUInt32

end MeshLimiter

open MeshLimiter in
def main (arguments : List String) : IO UInt32 := do
  match Options.ofArguments arguments (← IO.getEnv "LIMITER_CONTROLLER_LOG") with
  | .error e =>
    IO.eprintln ("error: " ++ e.message)
    return 2
  | .ok o => o.run
