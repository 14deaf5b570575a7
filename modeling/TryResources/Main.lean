import TryResources.CommandLine

/-!
# The program

Reads the files that a command line names and prints what comes of it, line by line.
-/

open TryResources

/-- The contents of a file. -/
def readContents (path : String) : IO (Except ReadFault ByteArray) := do
  try
    return .ok (← IO.FS.readBinFile path)
  catch e =>
    match e with
    | .noFileOrDirectory .. => return .error .notFound
    | .inappropriateType .. => return .error .isDirectory
    | e => return .error (.other e.toString)

/-- The contents of the files that a command line names. -/
def readFiles (args : List String) : IO Files := do
  let paths := match Invocation.ofArgs? args with
    | some i => i.input :: i.options.toList
    | none => []
  let contents ← paths.mapM fun path => do return (path, ← readContents path)
  return fun path => (contents.lookup path).getD (.error .notFound)

def main (args : List String) : IO UInt32 := do
  let outcome := runCommandLine Yaml.Fault.message (← readFiles args) args
  for event in outcome.events do
    match event with
    | .out line => IO.println line
    | .err line => IO.eprintln line
  return outcome.exitCode.toUInt32
