import TrafficStore.Call
import TrafficStore.Scope

namespace TrafficStore

structure Session (ε : Type) [Engine ε] where
  environment : Environment ε
  catalog : Catalog
  scopes : List (String × Scope ε) := []

inductive BatchItem where
  | create (table : String)
  | put (table : String) (key value : Bytes)
  deriving DecidableEq, Repr

inductive SessionStep where
  | call (c : Call)
  | access (t : TableId) (a : Access)
  | scope (s : ScopeStep)
  | scan (table : String) (limit : Option Nat)
  /-- Writes in one transaction, which fails at its end if a table is named there. -/
  | batch (items : List BatchItem) (failure : Option String)
  | recatalog (panels : List Panel)
  deriving DecidableEq, Repr

inductive SessionAnswer where
  | reply (r : Reply)
  | scope (a : ScopeAnswer)
  | written (items : Nat)
  | catalog (c : Catalog)
  deriving DecidableEq, Repr

namespace SessionAnswer

def failed (e : StorageError) : SessionAnswer := .scope (.failed e)

def refused (r : Refusal) : SessionAnswer := .scope (.refused r)

end SessionAnswer

namespace Session

variable {ε α : Type} [Engine ε]

def start (env : Environment ε) : Option (List Panel) → Except StorageError (Session ε)
  | none => .ok { environment := env, catalog := .uninitialized }
  | some ps =>
      match (Catalog.init ps).run env with
      | (.ok c, env) => .ok { environment := env, catalog := c }
      | (.error e, _) => .error e

def desk (s : Session ε) : Desk ε := { engine := s.environment.engine, scopes := s.scopes }

def ofDesk (s : Session ε) (d : Desk ε) : Session ε :=
  { s with environment := { s.environment with engine := d.engine }, scopes := d.scopes }

def perform (s : Session ε) (m : StoreM ε α) (answer : α → SessionAnswer) :
    SessionAnswer × Session ε :=
  match m.run s.environment with
  | (.ok a, env) => (answer a, { s with environment := env })
  | (.error e, env) => (.failed e, { s with environment := env })

def performWriting (s : Session ε) (writes : Bool) (m : StoreM ε α)
    (answer : α → SessionAnswer) : SessionAnswer × Session ε :=
  if writes && s.desk.hasWriter then (.refused .writerActive, s) else s.perform m answer

def showAfter (seen : List (Bytes × Bytes)) (m : EngineM ε Unit) : EngineM ε ScopeAnswer :=
  ⟨fun e =>
    match m.run e with
    | (.ok (), e) => (.ok (.records seen none), e)
    | (.error x, e) => (.ok (.records seen (some x)), e)⟩

def scan (table : String) (limit : Option Nat) : EngineM ε ScopeAnswer := do
  let r ← Engine.beginRead
  let o ← Environment.inScope r (Engine.reading.scan table)
  match visit limit o.1 with
  | .records seen none => showAfter seen (Engine.endRead o.2)
  | a => return a

def writeItems : List BatchItem → ScopeM ε (Engine.Writer ε) Unit
  | [] => return ()
  | .create table :: items => do
      Engine.create table
      writeItems items
  | .put table key value :: items => do
      Engine.put table key value
      writeItems items

def batch (items : List BatchItem) (failure : Option String) : StoreM ε Nat :=
  Environment.write do
    writeItems items
    match failure with
    | some table => Work.fail (.unknownTable table)
    | none => return items.length

def step (s : Session ε) : SessionStep → SessionAnswer × Session ε
  | .call c =>
      s.performWriting (c.writes || (Engine.syncTakesWriter ε && c.flushes)) (c.run s.catalog)
        .reply
  | .access t a => s.performWriting a.writes (a.run t) .reply
  | .scope st =>
      let (a, d) := s.desk.step st
      (.scope a, s.ofDesk d)
  | .scan table limit =>
      match (scan table limit).run s.environment.engine with
      | (.ok a, e) => (.scope a, { s with environment := { s.environment with engine := e } })
      | (.error x, e) =>
          (.scope (.records [] (some x)),
            { s with environment := { s.environment with engine := e } })
  | .batch items failure => s.performWriting true (batch items failure) .written
  | .recatalog ps =>
      match (Catalog.init ps).run s.environment with
      | (.ok c, env) => (.catalog c, { environment := env, catalog := c })
      | (.error x, env) => (.failed x, { environment := env, catalog := s.catalog })

def run (s : Session ε) : List SessionStep → List SessionAnswer × Session ε
  | [] => ([], s)
  | st :: sts =>
      let (a, s) := s.step st
      let (as, s) := s.run sts
      (a :: as, s)

def contents (s : Session ε) : List (TableId × List (Bytes × Bytes)) :=
  (TableId.ofPanels Panel.all).filterMap (fun t =>
    match (Engine.committed s.environment.engine).find? t.name with
    | some table => if table.entries = [] then none else some (t, table.entries)
    | none => none)

end Session

end TrafficStore
