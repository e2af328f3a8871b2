import TypedAnt.CommandLine

/-!
# Command-line entry point

Answers requests for help and for the version, reports a command line that cannot be
understood, and writes the first lines of the log.  The connection to a client is not
part of this library.
-/

open TypedAnt

def writeLog (args : CommandLine.Arguments) (lines : List String) : IO Unit := do
  match args.logPath with
  | none =>
      let stderr ← IO.getStderr
      for line in lines do
        stderr.putStrLn line
  | some path =>
      let file ← IO.FS.Handle.mk path .append
      for line in lines do
        file.putStrLn line

def main (args : List String) : IO UInt32 := do
  match CommandLine.read args with
  | .showHelp =>
      IO.print CommandLine.help
      return 0
  | .showVersion =>
      IO.print CommandLine.versionText
      return 0
  | .refuse error =>
      IO.eprint error.report
      return 2
  | .serve arguments =>
      match arguments.log with
      | .error fault =>
          IO.eprintln fault.message
          return 1
      | .ok records =>
          writeLog arguments (records.map Log.Record.line)
          return 0
