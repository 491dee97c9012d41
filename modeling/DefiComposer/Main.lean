import DefiComposer.CommandLine.Arguments

/-!
# The command-line program

Reads a command from the arguments, runs it, and writes what it leaves. The variable `MOVEMATRIX_MODULE_ADDRESS` gives the
default address of a module.
-/

open DefiComposer

/-- Runs the command that the arguments give; arguments that give none are a usage error. -/
def main (arguments : List String) : IO UInt32 := do
  match CommandLine.Command.read arguments with
  | .error message =>
    (← IO.getStderr).putStr ("error: " ++ message ++ "\n")
    return 2
  | .ok command =>
    match command.run? .epoch (← IO.getEnv "MOVEMATRIX_MODULE_ADDRESS") with
    | none =>
      (← IO.getStderr).putStr "attempt to subtract with overflow\n"
      return 101
    | some outcome =>
      (← IO.getStderr).putStr outcome.stderr
      (← IO.getStdout).putStr outcome.stdout
      return UInt32.ofNat outcome.exitCode
