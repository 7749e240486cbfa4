import ContractTyping.Command

/-!
# The program
-/

/-- The contents of a file, unless it cannot be read. -/
def readFile? (file : String) : IO (Option String) :=
  try
    return some (← IO.FS.readFile file)
  catch _ => return none

def main (arguments : List String) : IO UInt32 := do
  let outcome ← ContractTyping.Command.run readFile? arguments
  IO.print outcome.output
  return outcome.status
