import RecordRing.Command.Run
import RecordRing.Command.Usage

/-!
# The command line

Carries a command line out.  The result goes to the standard output, and whatever stands in its way
to the standard error output; a command line that cannot be carried out ends with status 2, and a
command that ends in trouble with status 1.
-/

/-- Carries a command line out and returns the status. -/
def main (arguments : List String) : IO UInt32 := do
  match RecordRing.CommandLine.read arguments with
  | .error refusal =>
    if refusal.isWish then
      IO.print refusal.message
      return 0
    else
      IO.eprint refusal.message
      return 2
  | .ok line =>
    match line.output with
    | .ok text =>
      IO.print text
      return 0
    | .error trouble =>
      let cause := trouble.message
      IO.eprintln s!"Error: {cause}"
      return 1
