import Brainfuck.CommandLine.Debugging

/-! The tool that runs a program from its start to its end. -/

namespace Brainfuck.CommandLine

/-- The line that shows the metrics of a run. -/
def metricsLine (metrics : Metrics) : String :=
  "executed=" ++ toString metrics.executed ++ " skipped=" ++ toString metrics.skipped
  ++ " pc_changes=" ++ toString metrics.counterChanges

/-- Ends a run by a fault: one of the program is shown on standard error. -/
def failedRun (fault : Fault) (output : Array UInt8) (log : List String) : Answer :=
  if fault.kind.isReported then
    {
      ending := .exit 1
      standardOutput := output
      standardError := lineBytes (log ++ ["Error: " ++ fault.message])
    }
  else
    { ending := .crash fault, standardOutput := output, standardError := lineBytes log }

/-- Runs a program; there is no answer when it needs more steps than the allowance. -/
def runProgram? (allowance : Nat) (settings : Settings) (program : Program)
    (input : Array UInt8) : Option Answer :=
  let logged := fun lines : List String => if settings.isVerbose then lines else []
  match settings.configuration? with
  | .error fault => some (failedRun fault #[] [])
  | .ok configuration =>
      let creating := Log.creating configuration
      match configuration.machine? program (.stream input.toList) .empty with
      | .error fault => some (failedRun fault #[] (logged [creating]))
      | .ok machine =>
          let loading := creating :: Log.created configuration program machine
          let { state := machine, ending, .. } := machine.runSilently allowance
          let output := machine.output.bytes
          match ending with
          | .refused => none
          | .failed fault => some (failedRun fault output (logged loading))
          | .returned =>
              let metrics :=
                if settings.showsMetrics then [metricsLine machine.metrics] else []
              some
                {
                  ending := .exit 0
                  standardOutput := output
                  standardError :=
                    lineBytes (logged (loading ++ [Log.finished machine]) ++ metrics)
                }

/-- Runs the program that the settings name. Without an input file it reads the standard
input.
-/
def runUnder? (allowance : Nat) (surroundings : Surroundings) (settings : Settings)
    : Option Answer :=
  match openFiles surroundings settings with
  | .error fault => some (crashAtOnce fault)
  | .ok (program, bytes?) =>
      runProgram? allowance settings program (bytes?.getD surroundings.standardInput)

/-- Runs a program, or hands it over to the debugging tool, if its command line gives
settings.
-/
def run? (allowance : Nat) (surroundings : Surroundings) (arguments : List String)
    : Option Outcome :=
  match Settings.ofArguments? Settings.runOptions arguments with
  | .error stop => some (.error stop)
  | .ok settings =>
      if settings.debugs then
        match settings.handedOver? with
        | .error stop => some (.error stop)
        | .ok settings => (debugUnder? allowance surroundings settings).map .ok
      else (runUnder? allowance surroundings settings).map .ok

end Brainfuck.CommandLine
