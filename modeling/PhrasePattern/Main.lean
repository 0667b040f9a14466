import PhrasePattern.CommandLine

/-! The program itself. -/

open PhrasePattern in
open scoped PhrasePattern.Regex.Engine in
def main (arguments : List String) : IO UInt32 := do
  let stdout ← IO.getStdout
  let stderr ← IO.getStderr
  let outcome := CommandLine.run (← stdout.isTty) arguments
  stdout.putStr outcome.output
  stdout.flush
  if outcome.errors ≠ "" then
    stderr.putStr outcome.errors
    unless outcome.errors.endsWith "\n" do stderr.putStr "\n"
  return outcome.code.toUInt32
