import CoreTiming.CommandLine.Run
import CoreTiming.Log.Written

namespace CoreTiming.CommandLine

/-- Adds what is found at a path. Reading a directory fails without naming it. -/
def addPath (files : Files) (path : String) : IO Files := do
  try
    let bytes ← IO.FS.readBinFile path
    return files.addFile path (String.fromUTF8? bytes)
  catch
    | .inappropriateType none _ _ => return files.addDirectory path
    | _ => return files

def directoryOf (path : String) : String :=
  let above := (path.toList.reverse.dropWhile (· != '/')).reverse
  if above.isEmpty then "." else String.ofList above

def snapshot (paths : List String) : IO Files :=
  paths.foldlM (fun files path => do addPath (← addPath files (directoryOf path)) path) ⟨[]⟩

def writeBack (before after : Files) (path : String) : IO Unit := do
  match after.read path with
  | .error _ => return
  | .ok text => if (before.read path).toOption ≠ some text then IO.FS.writeFile path text

def pathsOf (environment : Environment) (words : List String) : List String :=
  match read environment.program words with
  | .ok invocation => paths environment invocation.command
  | .error _ => []

end CoreTiming.CommandLine

open CoreTiming in
def main (words : List String) : IO UInt32 := do
  let bare : Environment := {
    files := ⟨[]⟩
    program := ← IO.getEnv "REV_EXE"
    logFilter := ← IO.getEnv "RUST_LOG" }
  let configured := { bare with files := ← CommandLine.snapshot (CommandLine.pathsOf bare words) }
  let paths := CommandLine.pathsOf configured words
  let environment := { bare with files := ← CommandLine.snapshot paths }
  let outcome := CommandLine.execute environment words
  for line in outcome.log do
    IO.eprintln s!"{line.severity.name} {line.origin.target}: {line.written}"
  IO.eprint outcome.errors
  IO.print outcome.output
  for path in paths do
    CommandLine.writeBack environment.files outcome.files path
  return outcome.exitCode.toUInt32
