import WordMachine.CommandLine.Arguments
import WordMachine.Journal
import WordMachine.Listing
import WordMachine.Runner
import WordMachine.Settings.Reader
import WordMachine.Text.Lines

/-!
# Sessions of the command line

An invocation is answered by two texts and an exit status.  The answer depends on the arguments,
on the files they name, and on how many looks at its stop flag a worker takes in a given time.
-/

namespace WordMachine.CommandLine

/-- What a session has written so far. -/
structure Console where
  out : String := ""
  err : String := ""

/-- A part of a session, which may end it with an exit status. -/
abbrev Script (α : Type) := EStateM Nat Console α

/-- The answer to an invocation. -/
structure Outcome where
  status : Nat
  console : Console

/-- The world around a session. -/
structure World where
  /-- The contents of a file, or the reason why they cannot be had. -/
  file : String → Except String ByteArray
  /-- How often a worker looks at its stop flag in so many milliseconds. -/
  looks : Nat → Nat

def say (line : String) : Script Unit :=
  modify fun console => { console with out := console.out ++ line ++ "\n" }

/-- Writes a complaint and ends the session. -/
def complain {α : Type} (line : String) : Script α := do
  modify fun console => { console with err := console.err ++ "❌ " ++ line ++ "\n" }
  throw 1

def World.text (world : World) (path : String) : Except String String := do
  let bytes ← world.file path
  match String.fromUTF8? bytes with
  | some text => return text
  | none => throw "stream did not contain valid UTF-8"

/-- The settings of an invocation, from its file and its options. -/
def loadSettings (world : World) (invocation : Invocation) : Script Settings := do
  let loaded : Except SettingsFault Settings :=
    match invocation.config with
    | none => .ok {}
    | some path =>
      match world.text path with
      | .ok text => Settings.ofString text
      | .error reason => .error (.unavailable reason)
  match loaded with
  | .ok settings => return settings.override invocation.overrides
  | .error fault => complain ("Failed to load config: " ++ fault.message)

/-- The program of a listing file. -/
def loadListing (world : World) (path : String) : Script (List Word) := do
  let listing :=
    match world.text path with
    | .ok text => Listing.ofString text
    | .error reason => .error (.unavailable reason)
  match listing with
  | .ok listing => return listing.words
  | .error fault => complain ("Failed to load listing: " ++ fault.message)

/-- The machine of the command line: its devices, and a journal of its steps. -/
abbrev TracedMachine := Machine (Journal Peripherals)

def loadMachine (world : World) (settings : Settings) (request : RunRequest) :
    Script TracedMachine := do
  let program ← loadListing world request.listing
  if program.isEmpty then
    complain "No instructions to execute"
  say ("📂 Loaded " ++ toString program.length ++ " words")
  let recording := request.trace && request.steps.isNone
  let machine : TracedMachine :=
    Machine.powerOn settings.memoryWords { watcher := settings.devices, recording }
  match Machine.load program machine with
  | .ok _ machine => return machine
  | .error fault _ => complain ("Failed to load program: " ++ fault.message)

/-- The line that shows an instruction after it was executed. -/
def traceLine (pc : Word) (text : String) (r : Registers) : String :=
  Hex.text 4 pc.toNat ++ ": " ++ Align.left 24 text ++ " A=" ++ Hex.text 4 r.a.toNat ++ " B=" ++
    Hex.text 4 r.b.toNat ++ " C=" ++ Hex.text 4 r.c.toNat ++ " SP=" ++ Hex.text 4 r.sp.toNat ++
    " O=" ++ Hex.text 4 r.o.toNat

def executeSteps (trace : Bool) : Nat → TracedMachine → Script TracedMachine
  | 0, machine => return machine
  | count + 1, machine => do
    let pc := machine.pc
    let text := if trace then (Disassembly.head (machine.window pc)).1 else ""
    match machine.step with
    | .ok _ machine =>
      if trace then
        say (traceLine pc text machine.registers)
      executeSteps trace count machine
    | .error fault _ =>
      complain ("CPU error at PC=" ++ Hex.marked 4 pc.toNat ++ ": " ++ fault.message)

/-- The line that shows a step of a continuous run. -/
def stepLine (report : StepReport) : String :=
  let r := report.registers
  Align.right 8 (toString report.steps) ++ ": PC=" ++ Hex.text 4 r.pc.toNat ++ " SP=" ++
    Hex.text 4 r.sp.toNat ++ " O=" ++ Hex.text 4 r.o.toNat

/-- The steps in a journal, each as a line. -/
def stepLines (journal : Journal Peripherals) : List String :=
  journal.notes.toList.filterMap fun
    | .stepped report => some (stepLine report)
    | _ => none

def executeContinuously (world : World) (settings : Settings) (millis : Nat)
    (machine : TracedMachine) : Script TracedMachine := do
  let runner : Runner (Journal Peripherals) :=
    { machine, settings := settings.runSettings, worker := some {} }
  let runner := runner.advance (world.looks millis)
  (stepLines runner.machine.watcher).forM say
  match Runner.release runner with
  | .ok machine _ => return machine
  | .error fault _ => complain ("Run failed: " ++ fault.message)

def registerLine (registers : Registers) (register : Register) : String :=
  let value := registers.get register
  Align.left 3 register.name ++ " " ++ Hex.marked 4 value.toNat ++ " (" ++ toString value ++ ")"

/-- Shows what has become of a machine and which packets it has sent. -/
def showResult (machine : TracedMachine) (packets : List Packet) : Script Unit := do
  say ""
  say "━━━ Result ━━━"
  say ("Steps: " ++ toString machine.steps)
  (Register.all.map (registerLine machine.registers)).forM say
  let display := machine.devices.display
  if display.rowTexts.any fun row => row.toList.any (· != ' ') then
    say ""
    say "━━━ Display ━━━"
    say display.text
  if !packets.isEmpty then
    say ""
    say "━━━ Outbound ━━━"
    packets.forM fun packet =>
      say ("→ hub " ++ toString packet.peer ++ ": " ++ Hex.marked 4 packet.data.toNat)

def runProgram (world : World) (settings : Settings) (request : RunRequest) : Script Unit := do
  say ("🔧 Running: " ++ request.listing)
  let machine ← loadMachine world settings request
  say ""
  say "━━━ Execution ━━━"
  let machine ←
    match request.steps with
    | some count => executeSteps request.trace count machine
    | none => executeContinuously world settings request.millis machine
  match Machine.drain machine with
  | .error fault _ => complain ("Failed to drain network card: " ++ fault.message)
  | .ok packets machine =>
    if request.json then
      say machine.registers.prettyJson
    else
      showResult machine packets

def disassemble (world : World) (path : String) (hex : Bool) : Script Unit := do
  if !hex then
    say ("📖 Disassembling: " ++ path)
    say ""
  let program ← loadListing world path
  say (if hex then Listing.render program else Disassembly.program program)

def introduce : Script Unit := do
  say "DCPU Emulator v0.1.0"
  say "A 16-bit word-addressed virtual processor"
  say ""
  say "Use --help for available commands"

/-- Carries out an invocation.  Its settings are loaded first, even where they are not needed. -/
def carryOut (world : World) (invocation : Invocation) : Script Unit := do
  let settings ← loadSettings world invocation
  match invocation.command with
  | .introduce => introduce
  | .run request => runProgram world settings request
  | .disassemble listing hex => disassemble world listing hex

def Script.outcome (script : Script Unit) : Outcome :=
  match script {} with
  | .ok _ console => ⟨0, console⟩
  | .error status console => ⟨status, console⟩

/-- Answers an invocation by its arguments. -/
def respond (world : World) (arguments : List String) : Outcome :=
  match Arguments.read? arguments with
  | none => ⟨2, { err := "error: wrong arguments\n" }⟩
  | some .version => (say "dcpu-emu 0.1.0").outcome
  | some (.invocation invocation) => (carryOut world invocation).outcome

end WordMachine.CommandLine
