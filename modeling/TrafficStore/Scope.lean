import TrafficStore.Engine

namespace TrafficStore

inductive Scope (ε : Type) [Engine ε] where
  | reader (r : Engine.Reader ε)
  | writer (w : Engine.Writer ε)

namespace Scope

variable {ε : Type} [Engine ε]

def isWriter : Scope ε → Bool
  | reader _ => false
  | writer _ => true

def look {α : Type} (inReader : ScopeM ε (Engine.Reader ε) α)
    (inWriter : ScopeM ε (Engine.Writer ε) α) : ScopeM ε (Scope ε) α := ⟨fun s =>
  match s.1 with
  | reader r =>
      let o := inReader.run (r, s.2)
      (o.1, (reader o.2.1, o.2.2))
  | writer w =>
      let o := inWriter.run (w, s.2)
      (o.1, (writer o.2.1, o.2.2))⟩

def find (table : String) (key : Bytes) : ScopeM ε (Scope ε) (Option Bytes) :=
  look (Engine.reading.find table key) (Engine.rereading.find table key)

def count (table : String) : ScopeM ε (Scope ε) Nat :=
  look (Engine.reading.count table) (Engine.rereading.count table)

def scan (table : String) : ScopeM ε (Scope ε) (List (Bytes × Bytes)) :=
  look (Engine.reading.scan table) (Engine.rereading.scan table)

def change (inWriter : ScopeM ε (Engine.Writer ε) Unit) : ScopeM ε (Scope ε) Unit :=
  look (return ()) inWriter

def commit : Scope ε → EngineM ε Unit
  | reader r => Engine.endRead r
  | writer w => Engine.commit w

end Scope

inductive ScopeStep where
  | beginRead (scope : String)
  | beginWrite (scope : String)
  | commit (scope : String)
  | drop (scope : String)
  | find (scope table : String) (key : Bytes)
  | count (scope table : String)
  | scan (scope table : String) (limit : Option Nat)
  | create (scope table : String)
  | put (scope table : String) (key value : Bytes)
  deriving DecidableEq, Repr

inductive Refusal where
  | noScope
  | readOnly
  | writerActive
  deriving DecidableEq, Repr

inductive ScopeAnswer where
  | done
  | value (bytes : Option Bytes)
  | count (n : Nat)
  | records (seen : List (Bytes × Bytes)) (failure : Option StorageError)
  | failed (e : StorageError)
  | refused (r : Refusal)
  deriving DecidableEq, Repr

/-- The records a visitor sees who stops, with an error, when it is shown one beyond the limit. -/
def visit (limit : Option Nat) (records : List (Bytes × Bytes)) : ScopeAnswer :=
  match limit with
  | none => .records records none
  | some n =>
      if n < records.length then .records (records.take n) (some (.unknownTable "stopped"))
      else .records records none

structure Desk (ε : Type) [Engine ε] where
  engine : ε
  scopes : List (String × Scope ε) := []

namespace Desk

variable {ε : Type} [Engine ε]

def hasWriter (d : Desk ε) : Bool := d.scopes.any (fun s => s.2.isWriter)

def scope? (d : Desk ε) (name : String) : Option (Scope ε) :=
  (d.scopes.find? (fun s => s.1 = name)).map Prod.snd

def close (d : Desk ε) (name : String) : Desk ε :=
  { d with scopes := d.scopes.filter (fun s => s.1 ≠ name) }

def hold (d : Desk ε) (name : String) (s : Scope ε) : Desk ε :=
  { d with scopes := (name, s) :: (d.close name).scopes }

def begin (d : Desk ε) (name : String) (m : EngineM ε (Scope ε)) : ScopeAnswer × Desk ε :=
  match m.run d.engine with
  | (.ok s, e) => (.done, ({ d with engine := e }).hold name s)
  | (.error x, e) => (.failed x, { d with engine := e })

def inScope {α : Type} (d : Desk ε) (name : String) (m : ScopeM ε (Scope ε) α)
    (answer : α → ScopeAnswer) (failure : StorageError → ScopeAnswer) : ScopeAnswer × Desk ε :=
  match d.scope? name with
  | none => (.refused .noScope, d)
  | some s =>
      match m.run (s, d.engine) with
      | (.ok a, s) => (answer a, ({ d with engine := s.2 }).hold name s.1)
      | (.error x, s) => (failure x, ({ d with engine := s.2 }).hold name s.1)

def inWriter (d : Desk ε) (name : String) (m : ScopeM ε (Engine.Writer ε) Unit) :
    ScopeAnswer × Desk ε :=
  match d.scope? name with
  | some (.reader _) => (.refused .readOnly, d)
  | _ => d.inScope name (Scope.change m) (fun _ => .done) .failed

def step (d : Desk ε) : ScopeStep → ScopeAnswer × Desk ε
  | .beginRead name => d.begin name (Scope.reader <$> Engine.beginRead)
  | .beginWrite name =>
      if d.hasWriter then (.refused .writerActive, d)
      else d.begin name (Scope.writer <$> Engine.beginWrite)
  | .commit name =>
      match d.scope? name with
      | none => (.refused .noScope, d)
      | some s =>
          match s.commit.run d.engine with
          | (.ok (), e) => (.done, ({ d with engine := e }).close name)
          | (.error x, e) => (.failed x, ({ d with engine := e }).close name)
  | .drop name =>
      match d.scope? name with
      | none => (.refused .noScope, d)
      | some _ => (.done, d.close name)
  | .find name table key => d.inScope name (Scope.find table key) .value .failed
  | .count name table => d.inScope name (Scope.count table) .count .failed
  | .scan name table limit =>
      d.inScope name (Scope.scan table) (visit limit) (fun x => .records [] (some x))
  | .create name table => d.inWriter name (Engine.create table)
  | .put name table key value => d.inWriter name (Engine.put table key value)

end Desk

inductive ScriptStep where
  | scope (s : ScopeStep)
  | sync (force : Bool)
  | restart
  deriving DecidableEq, Repr

namespace Desk

variable {ε : Type} [Engine ε]

def sync (d : Desk ε) (force : Bool) : ScopeAnswer × Desk ε :=
  if Engine.syncTakesWriter ε && d.hasWriter then (.refused .writerActive, d)
  else
    match (Engine.sync force).run d.engine with
    | (.ok _, e) => (.done, { d with engine := e })
    | (.error x, e) => (.failed x, { d with engine := e })

def scriptStep (d : Desk ε) : ScriptStep → ScopeAnswer × Desk ε
  | .scope s => d.step s
  | .sync force => d.sync force
  | .restart => (.done, { engine := Engine.restart d.engine })

def run (d : Desk ε) : List ScriptStep → List ScopeAnswer × Desk ε
  | [] => ([], d)
  | s :: ss =>
      let (a, d) := d.scriptStep s
      let (as, d) := d.run ss
      (a :: as, d)

end Desk

end TrafficStore
