import WordMachine.Settings.Basic

/-!
# Command-line arguments

Arguments are read from left to right.  A subcommand opens a level of its own with its own
options; the options for settings can be given at both levels, and the inner level wins.  Within a
level nothing can be given twice.  A long option takes its value behind an equals sign or from the
next argument, a short one also from the rest of its own argument, and short ones without a value
can be joined.  Two dashes end the options.
-/

namespace WordMachine.CommandLine

inductive Switch
  | config | logLevel | memoryWords | batchSize | tick | hub | steps | millis | trace | json | hex
  | version
  deriving DecidableEq

/-- What a level of arguments may hold. -/
inductive Section
  | top | run | disassemble
  deriving DecidableEq

namespace Switch

def all : List Switch :=
  [config, logLevel, memoryWords, batchSize, tick, hub, steps, millis, trace, json, hex, version]

/-- The name behind two dashes. -/
def long : Switch → String
  | config => "config"
  | logLevel => "log-level"
  | memoryWords => "memory-words"
  | batchSize => "batch-size"
  | tick => "tick-ms"
  | hub => "hub-id"
  | steps => "steps"
  | millis => "millis"
  | trace => "trace"
  | json => "json"
  | hex => "hex"
  | version => "version"

/-- The letter behind one dash, if there is one. -/
def short? : Switch → Option Char
  | steps => some 's'
  | millis => some 'm'
  | trace => some 't'
  | version => some 'V'
  | _ => none

def hasValue : Switch → Bool
  | trace | json | hex | version => false
  | _ => true

/-- Whether the option can be given in a section. -/
def isAllowed (level : Section) : Switch → Bool
  | version => level == .top
  | steps | millis | trace | json => level == .run
  | hex => level == .disassemble
  | _ => true

end Switch

/-- The value of decimal digits, of which there must be one. -/
def readDigits : List Char → Option Nat
  | [] => none
  | digits =>
    if digits.all Char.isDigit then
      some (digits.foldl (fun value c => value * 10 + (c.toNat - '0'.toNat)) 0)
    else none

/-- Reads a natural number with an optional plus sign. -/
def readNatural (text : String) : Option Nat :=
  match text.toList with
  | '+' :: digits => readDigits digits
  | digits => readDigits digits

/-- Reads an integer that must not be negative, so that a minus sign needs a zero behind it. -/
def readInteger (text : String) : Option Nat :=
  match text.toList with
  | '-' :: digits => (readDigits digits).filter (· == 0)
  | _ => readNatural text

def readBelow (limit : Nat) (number : Option Nat) : Option Nat :=
  number.filter (· < limit)

/-- The number that an option's value must be, if it must be one. -/
def Switch.number (option : Switch) (value : String) : Option Nat :=
  match option with
  | hub => readBelow UInt16.size (readInteger value)
  | _ => readBelow UInt64.size (readNatural value)

def Switch.accepts (option : Switch) (value : String) : Bool :=
  match option with
  | config | logLevel | trace | json | hex | version => true
  | _ => (option.number value).isSome

/-- What has been read at one level. -/
structure Matches where
  /-- The options with their values; those without one have an empty text. -/
  options : List (Switch × String) := []
  operands : List String := []

namespace Matches

def value? (found : Matches) (option : Switch) : Option String :=
  (found.options.find? (·.1 == option)).map Prod.snd

def has (found : Matches) (option : Switch) : Bool :=
  (found.value? option).isSome

/-- Takes in an option, unless it was given before or cannot have the value. -/
def add? (found : Matches) (option : Switch) (value : String) : Option Matches :=
  if found.has option || !option.accepts value then none
  else some { found with options := (option, value) :: found.options }

/-- Takes in another argument, of which a section has at most one. -/
def addOperand? (level : Section) (found : Matches) (operand : String) : Option Matches :=
  if level == .top || !found.operands.isEmpty then none
  else some { found with operands := [operand] }

end Matches

/-- An option at a level by its long name. -/
def longOption? (level : Section) (name : String) : Option Switch :=
  Switch.all.find? fun option => option.isAllowed level && option.long == name

/-- An option at a level by its letter. -/
def shortOption? (level : Section) (letter : Char) : Option Switch :=
  Switch.all.find? fun option => option.isAllowed level && option.short? == some letter

/-- How one argument changes what has been read. -/
inductive Effect
  /-- It stands for itself. -/
  | done (found : Matches)
  /-- It is an option that takes the next argument as its value. -/
  | awaiting (option : Switch) (found : Matches)
  | version

/-- Reads a long option behind its dashes. -/
def readLong (level : Section) (found : Matches) (text : List Char) : Option Effect := do
  let name := text.takeWhile (· != '=')
  let option ← longOption? level (String.ofList name)
  match option.hasValue, text.drop name.length with
  | true, [] => return .awaiting option found
  | true, _ :: value => return .done (← found.add? option (String.ofList value))
  | false, [] =>
    if option = .version then
      return .version
    return .done (← found.add? option "")
  | false, _ :: _ => none

/-- Reads joined short options behind their dash. -/
def readShort (level : Section) (found : Matches) : List Char → Option Effect
  | [] => some (.done found)
  | letter :: rest => do
    let option ← shortOption? level letter
    if option.hasValue then
      match rest with
      | [] => return .awaiting option found
      | '=' :: value => return .done (← found.add? option (String.ofList value))
      | value => return .done (← found.add? option (String.ofList value))
    else if option = .version then
      return .version
    else
      readShort level (← found.add? option "") rest

/-- Whether an argument cannot be the value of an option before it. -/
def looksLikeOption (argument : String) : Bool :=
  match argument.toList with
  | '-' :: _ :: _ => true
  | _ => false

/-- What a level of arguments amounts to. -/
inductive Reading
  /-- The arguments end. -/
  | complete (found : Matches)
  /-- A word that is no option ends the level; others follow. -/
  | word (found : Matches) (word : String) (rest : List String)
  | version

/-- Reads an option behind its first dash. -/
def readSwitch (level : Section) (found : Matches) : List Char → Option Effect
  | '-' :: text => readLong level found text
  | letters => readShort level found letters

/-- Reads the arguments of a level.  At the top the first word ends the level. -/
def readLevel (level : Section) (found : Matches) : List String → Option Reading
  | [] => some (.complete found)
  | argument :: rest =>
    match argument.toList with
    | ['-', '-'] => (rest.foldlM (Matches.addOperand? level) found).map .complete
    | '-' :: c :: text =>
      match readSwitch level found (c :: text), rest with
      | some (.done found), rest => readLevel level found rest
      | some .version, _ => some .version
      | some (.awaiting option found), value :: rest =>
        if looksLikeOption value then none
        else
          match found.add? option value with
          | some found => readLevel level found rest
          | none => none
      | some (.awaiting _ _), [] => none
      | none, _ => none
    | _ =>
      if level = .top then some (.word found argument rest)
      else
        match found.addOperand? level argument with
        | some found => readLevel level found rest
        | none => none

/-- What a program is run for. -/
structure RunRequest where
  listing : String
  /-- Exactly so many instructions, instead of a time. -/
  steps : Option Nat
  millis : Nat
  trace : Bool
  /-- Whether the registers are shown as JSON. -/
  json : Bool

inductive Command
  | introduce
  | run (request : RunRequest)
  /-- Disassemble a listing, into a listing again if `hex` is set. -/
  | disassemble (listing : String) (hex : Bool)

structure Invocation where
  config : Option String
  overrides : Overrides
  command : Command

/-- The arguments as a whole. -/
inductive Arguments
  | version
  | invocation (invocation : Invocation)

/-- The settings given as options at two levels. -/
def overridesOf (inner outer : Matches) : Overrides :=
  let number (option : Switch) : Option Nat := do
    option.number (← (inner.value? option).or (outer.value? option))
  { memoryWords := number .memoryWords
    batchSize := number .batchSize
    tick := number .tick
    hub := number .hub }

/-- The invocation with the options of two levels. -/
def Invocation.ofMatches (inner outer : Matches) (command : Command) : Invocation where
  config := (inner.value? .config).or (outer.value? .config)
  overrides := overridesOf inner outer
  command := command

def Matches.number? (found : Matches) (option : Switch) : Option Nat := do
  option.number (← found.value? option)

/-- The command that a level asks for.  The listing must be given. -/
def commandOf (level : Section) (found : Matches) : Option Command := do
  let listing ← found.operands.head?
  match level with
  | .top => none
  | .run =>
    return .run
      { listing
        steps := found.number? .steps
        millis := (found.number? .millis).getD 1000
        trace := found.has .trace
        json := found.has .json }
  | .disassemble => return .disassemble listing (found.has .hex)

def sectionOf? : String → Option Section
  | "run" => some .run
  | "disasm" => some .disassemble
  | _ => none

/-- Reads the arguments, unless they are wrong. -/
def Arguments.read? (arguments : List String) : Option Arguments := do
  match ← readLevel .top {} arguments with
  | .version => return .version
  | .complete outer => return .invocation (.ofMatches {} outer .introduce)
  | .word outer word rest =>
    let level ← sectionOf? word
    match ← readLevel level {} rest with
    | .complete inner =>
      return .invocation (.ofMatches inner outer (← commandOf level inner))
    | _ => none

end WordMachine.CommandLine
