/-
Milp.Main — the knapsack program on the command line.
-/
import Milp.Demo

/-- Writes what the program has to say, and ends with its code. -/
def main : IO UInt32 := do
  let ending := Milp.Demo.ending
  (← IO.getStdout).putStr ending.stdout
  (← IO.getStderr).putStr ending.stderr
  return ending.code
