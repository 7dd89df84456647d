import RecordRing.Config

/-!
# Command lines

A command line names one of two commands.  `simulate` builds a ring, stores records, adds a late
joiner and reports the placement; `lookup` shows which node of a fresh ring owns a key.  The options
for the log level and for the form of the output may stand before the command or after it.

An option's value follows it as the next argument or after an equals sign.  What looks like an
option is never a value, and after `--` nothing is an option.

## Implementation notes

A value that is an argument of its own is checked when the next thing needs it to be: before another
option, before a positional argument, or at the end of its level.  A command is therefore read to
its end before such a value in front of it is checked.
-/

namespace RecordRing

/-- How much is logged. -/
inductive LogLevel where
  | error
  | warn
  | info
  | debug
  | trace
  deriving DecidableEq, Repr

namespace LogLevel

/-- The name of a level. -/
def name : LogLevel → String
  | error => "ERROR"
  | warn => "WARN"
  | info => "INFO"
  | debug => "DEBUG"
  | trace => "TRACE"

/-- Every level, from the quietest. -/
def all : List LogLevel := [error, warn, info, debug, trace]

end LogLevel

/-- Why a command line is not carried out. -/
inductive Refusal where
  /-- The help is wanted. -/
  | help
  /-- The version is wanted. -/
  | version
  /-- There are no arguments at all. -/
  | nothingGiven
  /-- There is no command. -/
  | missingCommand
  /-- There is no such command. -/
  | unknownCommand
  /-- A needed argument is missing. -/
  | missingArgument
  /-- There is no such argument. -/
  | unknownArgument
  /-- An option has no value. -/
  | missingValue
  /-- A value does not read as what the option takes. -/
  | badValue
  /-- An option is given twice. -/
  | repeatedOption
  /-- A value is attached to an option that takes none. -/
  | needlessValue
  deriving DecidableEq, Repr

/-- What a command line asks for. -/
inductive Command where
  /-- Build a ring, store records, add a late joiner, and report the placement. -/
  | simulate (nodes records periodMillis settleSeconds : Nat)
  /-- Show which node of a fresh ring owns a key. -/
  | lookup (key : String) (nodes : Nat)
  deriving DecidableEq, Repr

/-- A command with the options that go with every command. -/
structure CommandLine where
  /-- How much is logged. -/
  logLevel : LogLevel
  /-- Whether the result is written as a document. -/
  asDocument : Bool
  /-- The command. -/
  command : Command
  deriving DecidableEq, Repr

namespace CommandLine

/-- The levels at which arguments are read. -/
inductive Level where
  /-- Before the command. -/
  | top
  /-- After `simulate`. -/
  | simulate
  /-- After `lookup`. -/
  | lookup
  deriving DecidableEq, Repr

/-- The options, and the positional argument. -/
inductive Parameter where
  | help
  | version
  | json
  | logLevel
  | nodes
  | records
  | period
  | settle
  | key
  deriving DecidableEq, Repr

/-- The option of a long name at a level. -/
def option? (level : Level) (name : String) : Option Parameter :=
  if name = "help" then some .help
  else if name = "json" then some .json
  else if name = "log-level" then some .logLevel
  else
    match level with
    | .top => if name = "version" then some .version else none
    | .simulate =>
      if name = "nodes" then some .nodes
      else if name = "records" then some .records
      else if name = "period-ms" then some .period
      else if name = "settle-secs" then some .settle
      else none
    | .lookup => if name = "nodes" then some .nodes else none

/-- The option of a letter at a level. -/
def letter? (level : Level) (letter : Char) : Option Parameter :=
  if letter = 'h' then some .help
  else if letter = 'V' ∧ level = .top then some .version
  else none

/-- Whether an option takes a value. -/
def takesValue : Parameter → Bool
  | .help | .version | .json => false
  | _ => true

/-- The number that decimal digits spell after the number spelled so far. -/
def spelled? (before : Nat) : List Char → Option Nat
  | [] => some before
  | c :: rest =>
    if '0' ≤ c ∧ c ≤ '9' then spelled? (before * 10 + (c.toNat - '0'.toNat)) rest else none

/-- The number below `2 ^ 64` that a text spells in decimal digits, with or without a plus sign. -/
def number? (text : String) : Option Nat :=
  let digits :=
    match text.toList with
    | '+' :: rest => rest
    | other => other
  if digits = [] then none else (spelled? 0 digits).filter fun value => value < UInt64.size

/-- The level that a text names by a number from 1 to 5, or by a word in any case. -/
def level? (text : String) : Option LogLevel :=
  match number? text with
  | some number => if number = 0 then none else LogLevel.all[number - 1]?
  | none => LogLevel.all.find? fun level => Config.sameName level.name text

/-- What has been given at a level. -/
structure Given where
  json : Bool
  logLevel : Option LogLevel
  nodes : Option Nat
  records : Option Nat
  period : Option Nat
  settle : Option Nat
  key : Option String

namespace Given

/-- Nothing has been given. -/
def none : Given := ⟨false, .none, .none, .none, .none, .none, .none⟩

/-- Whether a parameter has been given. -/
def has (given : Given) : Parameter → Bool
  | .help | .version => false
  | .json => given.json
  | .logLevel => given.logLevel.isSome
  | .nodes => given.nodes.isSome
  | .records => given.records.isSome
  | .period => given.period.isSome
  | .settle => given.settle.isSome
  | .key => given.key.isSome

/-- Whether anything has been given that may stand before the command. -/
def hasAny (given : Given) : Bool := given.has .json || given.has .logLevel

/-- A parameter is given with the value that a text spells, if it spells one. -/
def assign? (given : Given) (text : String) : Parameter → Option Given
  | .help | .version | .json => .none
  | .logLevel => (level? text).map fun level => { given with logLevel := some level }
  | .nodes => (number? text).map fun value => { given with nodes := some value }
  | .records => (number? text).map fun value => { given with records := some value }
  | .period => (number? text).map fun value => { given with period := some value }
  | .settle => (number? text).map fun value => { given with settle := some value }
  | .key => some { given with key := some text }

end Given

/-- How far the arguments of a level have been read. -/
structure Progress where
  /-- What has been given and checked. -/
  given : Given
  /-- A parameter that has not been checked, with its value if that has come. -/
  pending : Option (Parameter × Option String)
  /-- Whether only positional arguments may follow. -/
  trailing : Bool
  /-- Whether the positional argument has come. -/
  placed : Bool

namespace Progress

/-- No argument has been read. -/
def start : Progress := ⟨Given.none, none, false, false⟩

/-- Gives a parameter the value of a text. -/
def give (progress : Progress) (parameter : Parameter) (text : String) : Except Refusal Progress :=
  if progress.given.has parameter then .error .repeatedOption
  else
    match progress.given.assign? text parameter with
    | some given => .ok { progress with given := given }
    | none => .error .badValue

/-- Checks what has not been checked. -/
def resolve (progress : Progress) : Except Refusal Progress :=
  match progress.pending with
  | none => .ok progress
  | some (_, none) => .error .missingValue
  | some (parameter, some text) => { progress with pending := none }.give parameter text

/-- The option whose value is the next argument. -/
def awaiting? (progress : Progress) : Option Parameter :=
  match progress.pending with
  | some (parameter, none) => some parameter
  | _ => none

/-- Switches an option on that takes no value. -/
def switch (progress : Progress) (parameter : Parameter) : Except Refusal Progress := do
  let resolved ← progress.resolve
  match parameter with
  | .help => .error .help
  | .version => .error .version
  | _ =>
    if resolved.given.json then .error .repeatedOption
    else .ok { resolved with given := { resolved.given with json := true } }

/-- Reads a long option, with the value attached to it if there is one. -/
def readLong (progress : Progress) (level : Level) (name : String) (value : Option String) :
    Except Refusal Progress :=
  match option? level name, value with
  | none, _ => .error .unknownArgument
  | some parameter, none =>
    if takesValue parameter then do
      return { ← progress.resolve with pending := some (parameter, none) }
    else progress.switch parameter
  | some parameter, some text =>
    if takesValue parameter then do (← progress.resolve).give parameter text
    else .error .needlessValue

/-- Reads options by their letters. -/
def readLetters (progress : Progress) (level : Level) : List Char → Except Refusal Progress
  | [] => .ok progress
  | letter :: rest =>
    match letter? level letter with
    | none => .error .unknownArgument
    | some parameter => do (← progress.switch parameter).readLetters level rest

/-- The refusal of an argument for which there is no place. -/
def misplaced (progress : Progress) (level : Level) (argument : String) : Refusal :=
  match level with
  | .top =>
    if progress.trailing ∧ argument ∈ ["simulate", "lookup", "help"] then .unknownArgument
    else .unknownCommand
  | _ => .unknownArgument

/-- Reads a positional argument. -/
def readPositional (progress : Progress) (level : Level) (argument : String) :
    Except Refusal Progress :=
  if level = .lookup ∧ progress.placed = false then do
    return { ← progress.resolve with pending := some (.key, some argument), placed := true }
  else .error (progress.misplaced level argument)

end Progress

/-- What an argument looks like while options are allowed. -/
inductive Look where
  /-- The end of the options. -/
  | endOfOptions
  /-- A long option. -/
  | long (name : String) (value : Option String)
  /-- Options by letter. -/
  | letters (letters : List Char)
  /-- Anything else. -/
  | plain
  deriving DecidableEq, Repr

/-- The parts of a list of characters before and after its first equals sign. -/
def splitEquals : List Char → List Char × Option (List Char)
  | [] => ([], none)
  | c :: rest =>
    if c = '=' then ([], some rest)
    else
      let (before, after) := splitEquals rest
      (c :: before, after)

/-- What an argument looks like. -/
def look (argument : String) : Look :=
  match argument.toList with
  | ['-', '-'] => .endOfOptions
  | '-' :: '-' :: rest =>
    let (name, value) := splitEquals rest
    .long (String.ofList name) (value.map String.ofList)
  | ['-'] => .plain
  | '-' :: rest => .letters rest
  | _ => .plain

/-- Reads an argument that names no command. -/
def readArgument (progress : Progress) (level : Level) (argument : String) :
    Except Refusal Progress :=
  if progress.trailing then progress.readPositional level argument
  else
    match look argument with
    | .endOfOptions => .ok { progress with trailing := true }
    | .long name value => progress.readLong level name value
    | .letters letters => progress.readLetters level letters
    | .plain =>
      match progress.awaiting? with
      | some parameter => .ok { progress with pending := some (parameter, some argument) }
      | none => progress.readPositional level argument

/-- Reads the arguments of a command to the end. -/
def readCommand (level : Level) (progress : Progress) : List String → Except Refusal Given
  | [] => do return (← progress.resolve).given
  | argument :: rest => do readCommand level (← readArgument progress level argument) rest

/-- The number of nodes of a ring unless another is given. -/
def standardNodes : Nat := 5

/-- Reads `simulate` after its name. -/
def readSimulate (arguments : List String) : Except Refusal (Given × Command) := do
  let given ← readCommand .simulate Progress.start arguments
  return (given,
    .simulate (given.nodes.getD standardNodes) (given.records.getD 100) (given.period.getD 20)
      (given.settle.getD 10))

/-- Reads `lookup` after its name. -/
def readLookup (arguments : List String) : Except Refusal (Given × Command) := do
  let given ← readCommand .lookup Progress.start arguments
  match given.key with
  | none => .error .missingArgument
  | some key => return (given, .lookup key (given.nodes.getD standardNodes))

/-- The refusal of a call for help about the named commands. -/
def readHelp : List String → Refusal
  | [] => .help
  | [name] => if name ∈ ["simulate", "lookup", "help"] then .help else .unknownCommand
  | _ => .unknownCommand

/-- A command with the options of both levels; what stands after the command wins. -/
def combine (progress : Progress) (read : Except Refusal (Given × Command)) :
    Except Refusal CommandLine := do
  let (inner, command) ← read
  let outer := (← progress.resolve).given
  return {
    logLevel := (inner.logLevel.orElse fun _ => outer.logLevel).getD .info
    asDocument := outer.json || inner.json
    command := command }

/-- Reads the arguments before the command, and the command. -/
def readTop (progress : Progress) : List String → Except Refusal CommandLine
  | [] => do
    let resolved ← progress.resolve
    .error (if resolved.given.hasAny then .missingCommand else .nothingGiven)
  | argument :: rest =>
    let commandAllowed := progress.trailing = false ∧ progress.awaiting?.isNone
    if commandAllowed ∧ argument = "simulate" then combine progress (readSimulate rest)
    else if commandAllowed ∧ argument = "lookup" then combine progress (readLookup rest)
    else if commandAllowed ∧ argument = "help" then .error (readHelp rest)
    else do readTop (← readArgument progress .top argument) rest

/-- The command line that arguments spell. -/
def read (arguments : List String) : Except Refusal CommandLine :=
  readTop Progress.start arguments

end CommandLine

end RecordRing
