import RecordRing.Command.Line

/-!
# Usage

What the program tells about itself and about command lines that it does not carry out.
-/

namespace RecordRing

/-- How the program is called. -/
def usage : String :=
  String.join ([
    "Run and inspect a ring of record stores on virtual time",
    "",
    "Usage: recordring [--log-level LEVEL] [--json] COMMAND",
    "",
    "Commands:",
    "  simulate [--nodes N] [--records N] [--period-ms N] [--settle-secs N]",
    "  lookup KEY [--nodes N]",
    "  help [COMMAND]"].map fun line => line ++ "\n")

namespace Refusal

/-- Whether the command line asked for what is then printed, so that nothing went wrong. -/
def isWish : Refusal → Bool
  | help => true
  | version => true
  | _ => false

/-- The text printed instead of carrying the command line out. -/
def message : Refusal → String
  | help => usage
  | version => "recordring 0.1.0\n"
  | nothingGiven => usage
  | missingCommand => "error: a command is missing\n\n" ++ usage
  | unknownCommand => "error: there is no such command\n\n" ++ usage
  | missingArgument => "error: a key is missing\n\n" ++ usage
  | unknownArgument => "error: there is no such argument\n\n" ++ usage
  | missingValue => "error: an option has no value\n\n" ++ usage
  | badValue => "error: a value does not read as what its option takes\n\n" ++ usage
  | repeatedOption => "error: an option is given twice\n\n" ++ usage
  | needlessValue => "error: an option that takes no value has one\n\n" ++ usage

end Refusal

end RecordRing
