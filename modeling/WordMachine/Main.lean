import WordMachine.CommandLine.Folder
import WordMachine.CommandLine.Session

/-!
# The command line

Reads the files that the arguments name, answers, and exits.  Time is counted in looks at the stop
flag, a thousand for each millisecond.
-/

namespace WordMachine.CommandLine

/-- The files that an invocation names. -/
def Invocation.files (invocation : Invocation) : List String :=
  let listing :=
    match invocation.command with
    | .introduce => []
    | .run request => [request.listing]
    | .disassemble listing _ => [listing]
  invocation.config.toList ++ listing

/-- The reason that a failure to read a file is reported with. -/
def reason : IO.Error → String
  | .noFileOrDirectory .. => FileFault.notFound.message
  | .inappropriateType _ _ "is a directory" => FileFault.isDirectory.message
  | .inappropriateType .. => FileFault.notDirectory.message
  | failure => toString failure

def readFile (path : String) : IO (String × Except String ByteArray) := do
  try
    return (path, .ok (← IO.FS.readBinFile path))
  catch failure =>
    return (path, .error (reason failure))

def World.ofFiles (files : List (String × Except String ByteArray)) : World where
  file path := ((files.find? (·.1 == path)).map Prod.snd).getD (.error "unread file")
  looks millis := 1000 * millis

end WordMachine.CommandLine

open WordMachine.CommandLine in
def main (arguments : List String) : IO UInt32 := do
  let names :=
    match Arguments.read? arguments with
    | some (.invocation invocation) => invocation.files
    | _ => []
  let files ← names.mapM readFile
  let outcome := respond (World.ofFiles files) arguments
  IO.print outcome.console.out
  IO.eprint outcome.console.err
  return UInt32.ofNat outcome.status
