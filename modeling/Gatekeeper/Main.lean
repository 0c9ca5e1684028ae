import Gatekeeper.CommandLine.Run

/-!
# The program

The outermost layer: it looks at the files a run needs, hands them to `Gatekeeper.CommandLine` as
values, and prints the report. Policies are compiled on one thread.
-/

set_option autoImplicit false

namespace Gatekeeper.Program

open CommandLine

def nodeOf (name : String) (isFolder : Bool) (readBytes : IO ByteArray) : IO Node := do
  if isFolder then return .folder []
  if !isPolicyName name then return .file none
  try
    return .file (some (← readBytes))
  catch _ =>
    return .file none

def listFolder (folder : String) : IO (Option Listing) := do
  let path := System.mkFilePath [folder]
  if !(← path.isDir) then return none
  let mut entries := #[]
  for entry in ← path.readDir do
    if ← entry.path.pathExists then
      let node ← nodeOf entry.fileName (← entry.path.isDir) (IO.FS.readBinFile entry.path)
      entries := entries.push (entry.fileName, .ok node)
    else
      entries := entries.push (entry.fileName, .error .missing)
  return some entries.toList

def failureOf : IO.Error → ReadFailure
  | .noFileOrDirectory .. => .missing
  | .inappropriateType .. => .notAFolder
  | .invalidArgument .. => .nameTooLong
  | _ => .denied

def readText (file : String) : IO (Except ReadFailure String) := do
  let path := System.mkFilePath [file]
  if ← path.isDir then return .error .isAFolder
  try
    return (Node.file (some (← IO.FS.readBinFile path))).text
  catch e =>
    return .error (failureOf e)

def reportOn (i : Invocation) : IO Report := do
  let contents ← match i.config with
    | some file => readText file
    | none => pure (.error .missing)
  match i.resolveSettings (fun _ => contents) with
  | .error failure => return reportOf (.error failure)
  | .ok settings =>
    let registry := loadRegistry settings .standard 1 (← listFolder settings.folder)
    return reportOf (answerFrom settings (.finished registry) i.request)

def printFailure (failure : Failure) : IO Unit := do
  IO.eprintln ("Error: " ++ failure.text)
  if let some cause := failure.cause? then IO.eprintln ("\nCaused by:\n    " ++ cause.text)

def runWith (arguments : List String) : IO UInt32 := do
  match Invocation.read arguments (← IO.getEnv Settings.folderVariable) with
  | .error .help =>
    IO.print usageText
    return 0
  | .error .usage =>
    IO.eprint usageText
    return 2
  | .ok i =>
    let report ← reportOn i
    IO.print report.output
    report.failure.forM printFailure
    return report.exit

end Gatekeeper.Program

def main (arguments : List String) : IO UInt32 := Gatekeeper.Program.runWith arguments
