import TrafficStore.CommandLine.Run

namespace TrafficStore.Program

def pathFault : IO.Error → PathFault
  | .noFileOrDirectory .. => .missing
  | .inappropriateType .. => .notDirectory
  | .permissionDenied .. => .denied
  | .invalidArgument .. => .nameTooLong
  | _ => .missing

def opens (path : String) : IO (Except IO.Error Unit) := do
  try
    let _ ← IO.FS.Handle.mk path .read
    return .ok ()
  catch e => return .error e

def probe (path : String) : IO (Except PathFault NodeKind) := do
  if Char.ofNat 0 ∈ path.toList then return .error .nul
  match ← opens (path ++ "/."), ← opens path with
  | .ok (), _ => return .ok .directory
  | .error _, .ok () => return .ok .file
  | .error _, .error e => return .error (pathFault e)

def stored (path : String) : IO Stored := do
  try
    return .file (← IO.FS.readBinFile path).toList
  catch
    | .noFileOrDirectory .. => return .absent
    | .permissionDenied .. => return .unreachable .denied
    | .invalidArgument .. => return .unreachable .nameTooLong
    | _ => return .directory

def surroundings : IO CommandLine.Surroundings := do
  return {
    path := ← IO.getEnv "LOGSTORE_DB_PATH"
    maxSize := ← IO.getEnv "LOGSTORE_MAX_SIZE"
    filter := ← IO.getEnv "RUST_LOG" }

def input : CommandLine.Command → IO Bytes
  | .ingest => return (← IO.FS.readBinFile "/dev/stdin").toList
  | _ => return []

def eventText (format : LogFormat) (e : Event) : String :=
  match format with
  | .json => e.toJson.compact
  | .pretty => s!"{e.level.name} {e.target}: {e.message}"

def perform (env : CommandLine.Surroundings) (i : CommandLine.Invocation) :
    IO CommandLine.Outcome := do
  let site : CommandLine.Site := ⟨← probe i.settings.path, ← stored i.settings.filePath⟩
  let outcome := CommandLine.run i (CommandLine.eventFilter env) site (← input i.command)
  for e in outcome.events do
    IO.eprintln (eventText i.logFormat e)
  match outcome.file with
  | some bytes => IO.FS.writeBinFile i.settings.filePath (ByteArray.mk bytes.toArray)
  | none => return outcome
  return outcome

def answer (env : CommandLine.Surroundings) (r : CommandLine.Request) :
    IO CommandLine.Outcome := do
  match r, CommandLine.answer r with
  | .run i, _ => perform env i
  | _, some outcome => return outcome
  | _, none => return { exit := 2 }

end TrafficStore.Program

def main (args : List String) : IO UInt32 := do
  let env ← TrafficStore.Program.surroundings
  let outcome ← TrafficStore.Program.answer env (TrafficStore.CommandLine.parse args env)
  IO.print outcome.output
  IO.eprint outcome.errors
  return outcome.exit.toUInt32
