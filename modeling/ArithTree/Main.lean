import ArithTree.CommandLine

/-!
# The program

Runs the command line on the standard streams.
-/

open ArithTree in
def main (words : List String) : IO UInt32 := do
  let outcome := CommandLine.run words
  IO.print (outcome.standardOutput .plain)
  IO.eprint (outcome.standardError .plain)
  return outcome.code.toUInt32
