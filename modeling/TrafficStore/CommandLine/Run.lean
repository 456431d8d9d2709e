import TrafficStore.CommandLine.Arguments
import TrafficStore.Overview

namespace TrafficStore.CommandLine

def joinLines (sep : String) (ls : List (List Char)) : String :=
  sep.intercalate (ls.map String.ofList)

def indented (indent message : String) : String :=
  joinLines ("\n" ++ indent) (Text.fields '\n' message.toList)

def spaces (n : Nat) : String := String.ofList (List.replicate n ' ')

def numberedCause (n : Nat) (message : String) : String :=
  let number := toString n
  "\n" ++ spaces (5 - number.length) ++ number ++ ": " ++ indented (spaces 7) message

def numberedCauses (n : Nat) : List String → String
  | [] => ""
  | m :: ms => numberedCause n m ++ numberedCauses (n + 1) ms

def causes : List String → String
  | [] => ""
  | [m] => "\n\nCaused by:\n" ++ spaces 4 ++ indented (spaces 4) m
  | ms => "\n\nCaused by:" ++ numberedCauses 0 ms

def failureText : List String → String
  | [] => ""
  | m :: ms => "Error: " ++ m ++ causes ms ++ "\n"

structure Site where
  probe : Except PathFault NodeKind
  stored : Stored

structure Outcome where
  exit : Nat
  output : String := ""
  errors : String := ""
  events : List Event := []
  file : Option Bytes := none

def version : String := "logstore 0.1.0\n"

def usage : String :=
  "Usage: logstore [--db-path DIR] [--max-size BYTES] [--max-namespaces N] " ++
    "[--ignore-panel MODULE]... [--log-format FORMAT] init|ingest|stats|export MODULE\n"

def perform (c : Catalog) (stdin : Bytes) :
    Command → Work (Environment Durable) (List String) String
  | .init => return s!"{c.size} namespaces ready\n"
  | .ingest => do
      let n ← (Ingest.run c stdin).mapFault IngestFault.messages
      Environment.report (.ingestFinished n)
      return ""
  | .stats => do
      let o ← (Overview.take c).mapFault StorageError.messages
      return o.toJson.pretty 0 ++ "\n"
  | .export p => do
      match ← (c.dump p).mapFault StorageError.messages with
      | some d => return (Form.dump.write d).pretty 0 ++ "\n"
      | none => Work.fail [s!"module {p.name} is ignored by this configuration"]

def openFailure (settings : Settings) (e : StorageError) : List String :=
  s!"failed to open storage at {settings.path}" :: e.messages

def work (i : Invocation) (site : Site) (stdin : Bytes) :
    Except (List String) String × Option (Environment Durable) :=
  match Environment.openDurable i.settings site.probe site.stored with
  | .error e => (.error (openFailure i.settings e), none)
  | .ok env =>
      match (Catalog.init i.settings.enabled).run env with
      | (.error e, env) => (.error (openFailure i.settings e), some env)
      | (.ok c, env) =>
          let (r, env) := (perform c stdin i.command).run env
          (r, some env)

def shown (filter : EventFilter) : Option (Environment Durable) → List Event
  | none => []
  | some env => env.journal.toList.filter filter.shows

def run (i : Invocation) (filter : EventFilter) (site : Site) (stdin : Bytes) : Outcome :=
  let (r, env) := work i site stdin
  let events := shown filter env
  let file := env.map (fun env => env.engine.image)
  match r with
  | .ok output => { exit := 0, output, events, file }
  | .error messages => { exit := 1, errors := failureText messages, events, file }

def answer : Request → Option Outcome
  | .run _ => none
  | .version => some { exit := 0, output := version }
  | .help => some { exit := 0, output := usage }
  | .refused => some { exit := 2, errors := usage }

def eventFilter (env : Surroundings) : EventFilter :=
  match env.filter with
  | some s => .ofText s
  | none => .standard

end TrafficStore.CommandLine
