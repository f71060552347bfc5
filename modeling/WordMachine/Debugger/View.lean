import WordMachine.Debugger.Basic
import WordMachine.Screen
import WordMachine.Text.Lines

/-!
# The debugger's screen

The left half shows code, registers and status, the right half the display, memory and a line of
help.  The views of code and of memory take what the boxes of fixed height leave over.
-/

namespace WordMachine.Debugger

variable {σ : Type} [Hosted σ]

def plain (colour : Colour) : Style where
  colour := colour

def highlight : Style where
  colour := .yellow
  bold := true

def codeLine (line : CodeLine) : PanelLine :=
  let mark := if line.isCurrent then "▶ " else "  "
  let style := if line.isCurrent then highlight else {}
  ⟨[⟨mark ++ Hex.text 4 line.address.toNat ++ ": " ++ line.text, style⟩], style⟩

/-- The box with the code from the program counter on. -/
def codePanel (debugger : Debugger σ) (height : Nat) : Panel where
  title := " Disassembly "
  border := plain .cyan
  lines := (debugger.code (height - 2)).map codeLine

def registerSpans (registers : Registers) (register : Register) : List Span :=
  let value := registers.get register
  let style := plain (if value = 0 then .darkGray else .white)
  [⟨Align.right 2 register.name ++ ": ", {}⟩, ⟨Hex.text 4 value.toNat ++ "  ", style⟩]

def registerLine (registers : Registers) (names : List Register) : PanelLine where
  spans := names.flatMap (registerSpans registers)

/-- The line with the step count and the state of the machine. -/
def stepsLine (debugger : Debugger σ) : PanelLine :=
  let state : Span :=
    if debugger.running then ⟨"running", plain .green⟩ else ⟨"paused", plain .red⟩
  let skip := if debugger.machine.skip then "   skip" else ""
  { spans := [⟨"Steps: ", {}⟩, ⟨toString debugger.machine.steps, plain .cyan⟩, ⟨"   ", {}⟩, state,
      ⟨skip, {}⟩] }

def sentLine (debugger : Debugger σ) : PanelLine :=
  let last :=
    match debugger.lastSent with
    | some packet =>
      "   last → hub " ++ toString packet.peer ++ ": " ++ Hex.text 4 packet.data.toNat
    | none => ""
  { spans := [⟨"Sent: ", {}⟩, ⟨toString debugger.sentTotal, plain .cyan⟩, ⟨last, {}⟩] }

def registerPanel (debugger : Debugger σ) : Panel :=
  let registers := debugger.machine.registers
  { title := " Registers "
    border := plain .green
    lines :=
      [registerLine registers [.a, .b, .c, .x], registerLine registers [.y, .z, .i, .j],
        registerLine registers [.sp, .pc, .o], debugger.stepsLine, debugger.sentLine] }

/-- The box with what the last operation had to say. -/
def statusPanel (debugger : Debugger σ) : Panel :=
  let style := plain .white
  { title := " Status ", border := style, filling := style
    lines := [⟨[⟨debugger.status, style⟩], style⟩] }

def displayPanel (debugger : Debugger σ) : Panel :=
  let style := plain .green
  { title := " Display 12x32 ", border := plain .blue, filling := style
    lines := debugger.machine.devices.display.rowTexts.map fun row => ⟨[⟨row, style⟩], style⟩ }

def wordSpan (debugger : Debugger σ) (address : Word) : Span :=
  let value := debugger.machine.memory.getD address.toNat
  let style :=
    if address = debugger.machine.pc then highlight
    else plain (if value = 0 then .darkGray else .white)
  ⟨" " ++ Hex.text 4 value.toNat, style⟩

/-- A row of eight words in the view of memory. -/
def memoryLine (debugger : Debugger σ) (row : Word) : PanelLine where
  spans :=
    ⟨Hex.text 4 row.toNat ++ ":", plain .darkGray⟩ ::
      (List.range 8).map fun offset => debugger.wordSpan (row + UInt16.ofNat offset)

/-- The rows of memory that a view with room for `count` of them shows. -/
def visibleRows (debugger : Debugger σ) (count : Nat) : List Word :=
  (debugger.memoryRows.drop debugger.scroll).take count

def memoryPanel (debugger : Debugger σ) (height : Nat) : Panel where
  title := " Memory "
  border := plain .magenta
  lines := (debugger.visibleRows (height - 2)).map debugger.memoryLine

/-- What the keys do. -/
def helpTexts (capture : Bool) : List String :=
  if capture then
    ["Typing goes to the guest keyboard", "Esc/Tab: Release"]
  else
    ["s: Step  r: Run  p: Pause  x: Reset", "Tab: Capture keys  ↑↓: Scroll memory  q: Quit"]

def helpPanel (debugger : Debugger σ) : Panel :=
  let style := plain .darkGray
  { title := " Help ", border := style, filling := style
    lines := (helpTexts debugger.capture).map fun text => ⟨[⟨text, style⟩], style⟩ }

/-- The whole screen.  Its left half is the wider one when the width is odd. -/
def draw (debugger : Debugger σ) (width height : Nat) : Picture :=
  let right := width / 2
  let left := width - right
  let leftColumn :=
    (debugger.codePanel (height - 10)).draw left (height - 10) ++
      debugger.registerPanel.draw left 7 ++ debugger.statusPanel.draw left 3
  let rightColumn :=
    debugger.displayPanel.draw right 14 ++
      (debugger.memoryPanel (height - 18)).draw right (height - 18) ++
      debugger.helpPanel.draw right 4
  Picture.beside leftColumn rightColumn

end WordMachine.Debugger
