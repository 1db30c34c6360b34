import QueryTree.Command.Basic

/-! # The command line -/

open QueryTree

def main (args : List String) : IO UInt32 := do
  let reads := (Command.ofArguments? args).any Command.readsInput
  let input ← if reads then (← IO.getStdin).readBinToEnd else pure ByteArray.empty
  let output := Command.run args input
  (← IO.getStdout).putStr output.out
  (← IO.getStderr).putStr output.err
  return UInt32.ofNat output.code
