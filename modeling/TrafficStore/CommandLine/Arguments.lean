import TrafficStore.Settings
import TrafficStore.Text.Lines
import TrafficStore.Text.Numeral

namespace TrafficStore

inductive LogFormat where
  | pretty
  | json
  deriving DecidableEq, Repr

namespace LogFormat

def name : LogFormat → String
  | pretty => "pretty"
  | json => "json"

def ofText (s : String) : Except String LogFormat :=
  let word := String.ofList (Text.fold (Text.trim s.toList))
  if word = "pretty" then .ok .pretty
  else if word = "json" then .ok .json
  else .error word

def unknownMessage (word : String) : String := s!"unknown log format: {word}"

end LogFormat

namespace CommandLine

inductive Command where
  | init
  | ingest
  | stats
  | export (panel : Panel)
  deriving DecidableEq, Repr

structure Invocation where
  settings : Settings
  logFormat : LogFormat
  command : Command
  deriving DecidableEq, Repr

inductive Request where
  | run (i : Invocation)
  | version
  | help
  | refused
  deriving DecidableEq, Repr

structure Options where
  path : Option String := none
  maxSize : Option UInt64 := none
  maxTables : Option Nat := none
  logFormat : Option LogFormat := none
  ignored : List Panel := []
  deriving DecidableEq, Repr

def parsePath (s : String) : Option String := if s = "" then none else some s

def parseSize (s : String) : Option UInt64 :=
  (Text.numeral UInt64.size s.toList).toOption.map UInt64.ofNat

def parseTables (s : String) : Option Nat :=
  (Text.signedNumeral UInt32.size s.toList).toOption

def once {α : Type} (old new : Option α) : Option (Option α) :=
  if old.isSome || new.isNone then none else some new

namespace Options

def names : List String :=
  ["--db-path", "--max-size", "--max-namespaces", "--ignore-panel", "--log-format"]

def set (o : Options) (name value : String) : Option Options :=
  match name with
  | "--db-path" => (once o.path (parsePath value)).map (fun v => { o with path := v })
  | "--max-size" => (once o.maxSize (parseSize value)).map (fun v => { o with maxSize := v })
  | "--max-namespaces" =>
      (once o.maxTables (parseTables value)).map (fun v => { o with maxTables := v })
  | "--ignore-panel" =>
      (Panel.ofText? value).map (fun p => { o with ignored := o.ignored ++ [p] })
  | "--log-format" =>
      (once o.logFormat (LogFormat.ofText value).toOption).map (fun v => { o with logFormat := v })
  | _ => none

end Options

structure Surroundings where
  path : Option String := none
  maxSize : Option String := none
  filter : Option String := none
  deriving DecidableEq, Repr

def resolve {α : Type} (given : Option α) (standIn : Option String) (parse : String → Option α)
    (default : α) : Option α :=
  match given, standIn with
  | some a, _ => some a
  | none, some s => parse s
  | none, none => some default

def invocation (o : Options) (env : Surroundings) (c : Command) : Request :=
  let standard : Settings := {}
  match resolve o.path env.path parsePath standard.path,
      resolve o.maxSize env.maxSize parseSize standard.maxSize with
  | some path, some maxSize =>
      .run {
        settings := {
          path, maxSize
          maxTables := o.maxTables.getD standard.maxTables
          ignored := o.ignored }
        logFormat := o.logFormat.getD .pretty
        command := c }
  | _, _ => .refused

def isDashed (a : String) : Bool :=
  match a.toList with
  | '-' :: _ :: _ => true
  | _ => false

def shortRequest (a : String) (hasVersion : Bool) : Request :=
  match a.toList with
  | '-' :: 'h' :: _ => .help
  | '-' :: 'V' :: _ => if hasVersion then .version else .refused
  | _ => .refused

def dashedRequest (a : String) (hasVersion : Bool) : Request :=
  if a = "--help" then .help
  else if a = "--version" ∧ hasVersion then .version
  else if a.toList.take 2 = ['-', '-'] then .refused
  else shortRequest a hasVersion

def parseNothing (r : Request) : List String → Request
  | [] => r
  | "--" :: rest => if rest = [] then r else .refused
  | a :: _ => if isDashed a then dashedRequest a false else .refused

def parseExport (o : Options) (env : Surroundings) (panel : Option Panel) : List String → Request
  | [] =>
      match panel with
      | some p => invocation o env (.export p)
      | none => .refused
  | "--" :: rest =>
      match panel, rest with
      | some p, [] => invocation o env (.export p)
      | none, [a] =>
          match Panel.ofText? a with
          | some p => invocation o env (.export p)
          | none => .refused
      | _, _ => .refused
  | a :: rest =>
      if isDashed a then dashedRequest a false
      else
        match panel, Panel.ofText? a with
        | none, some p => parseExport o env (some p) rest
        | _, _ => .refused

def parseHelp : List String → Request
  | [] => .help
  | [a] => if a ∈ ["init", "ingest", "stats", "export", "help"] then .help else .refused
  | _ => .refused

def parseCommand (o : Options) (env : Surroundings) (name : String) (rest : List String) :
    Request :=
  match name with
  | "init" => parseNothing (invocation o env .init) rest
  | "ingest" => parseNothing (invocation o env .ingest) rest
  | "stats" => parseNothing (invocation o env .stats) rest
  | "export" => parseExport o env none rest
  | "help" => parseHelp rest
  | _ => .refused

def attached? (a : String) : Option (String × String) :=
  match Text.fields '=' a.toList with
  | name :: v :: vs => some (.ofList name, .ofList (['='].intercalate (v :: vs)))
  | _ => none

def parseFrom (env : Surroundings) (o : Options) : List String → Request
  | [] => .refused
  | a :: rest =>
      if ¬ isDashed a then parseCommand o env a rest
      else if a = "--" then .refused
      else if a ∈ Options.names then
        match rest with
        | v :: rest =>
            if isDashed v then .refused
            else
              match o.set a v with
              | some o => parseFrom env o rest
              | none => .refused
        | [] => .refused
      else
        match attached? a with
        | some (name, v) =>
            match o.set name v with
            | some o => parseFrom env o rest
            | none => if a.toList.take 2 = ['-', '-'] then .refused else shortRequest a true
        | none => dashedRequest a true

def parse (args : List String) (env : Surroundings) : Request := parseFrom env {} args

end CommandLine

end TrafficStore
