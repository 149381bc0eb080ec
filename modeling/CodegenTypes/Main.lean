import CodegenTypes.CommandLine.Exit

open CodegenTypes.CommandLine in
def main (words : List String) : IO UInt32 := do
  let out ← IO.getStdout
  let exit := execute (← out.isTty) words
  out.putStr exit.stdout
  (← IO.getStderr).putStr exit.stderr
  return exit.status.toUInt32
