import WordMachine.Memory

/-!
# Faults

The causes for which the machine and its runs stop, each with the one text that reports it.
-/

namespace WordMachine

/-- Why an instruction fails. -/
inductive Fault
  | memory (fault : MemoryFault)
  /-- A literal, given by its operand code, is the target of a store. -/
  | invalidTarget (code : Nat)
  deriving DecidableEq

def Fault.message : Fault → String
  | memory fault => "memory error: " ++ fault.message
  | invalidTarget code => "cannot write to literal operand " ++ Hex.marked 2 code

/-- Why a run fails. -/
inductive RunFault
  | machine (fault : Fault)
  /-- The step hook broke down, and the worker with it. -/
  | panicked
  deriving DecidableEq

def RunFault.message : RunFault → String
  | machine fault => "cpu error: " ++ fault.message
  | panicked => "run worker panicked"

end WordMachine
