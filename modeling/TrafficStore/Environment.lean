import TrafficStore.Engine.Durable
import TrafficStore.Engine.Faulty
import TrafficStore.Engine.Volatile

namespace TrafficStore

structure Environment (ε : Type) where
  engine : ε
  settings : Settings
  journal : Array Event := #[]

abbrev StoreM (ε α : Type) := Work (Environment ε) StorageError α

namespace Environment

variable {ε α : Type}

def report {ξ : Type} (e : Event) : Work (Environment ε) ξ Unit :=
  Work.update (fun env => { env with journal := env.journal.push e })

def onEngine (m : EngineM ε α) : StoreM ε α :=
  m.within Environment.engine (fun e env => { env with engine := e })

def inScope {σ : Type} (s : σ) (op : ScopeM ε σ α) : EngineM ε (α × σ) := ⟨fun e =>
  match op.run (s, e) with
  | (.ok a, s) => (.ok (a, s.1), s.2)
  | (.error x, s) => (.error x, s.2)⟩

variable [Engine ε]

def transactionRead (op : ScopeM ε (Engine.Reader ε) α) : EngineM ε α := do
  let r ← Engine.beginRead
  let o ← inScope r op
  Engine.endRead o.2
  return o.1

def transactionWrite (op : ScopeM ε (Engine.Writer ε) α) : EngineM ε α := do
  let w ← Engine.beginWrite
  let o ← inScope w op
  Engine.commit o.2
  return o.1

def read (op : ScopeM ε (Engine.Reader ε) α) : StoreM ε α := onEngine (transactionRead op)

def write (op : ScopeM ε (Engine.Writer ε) α) : StoreM ε α := onEngine (transactionWrite op)

def sync (force : Bool) : StoreM ε Unit := do
  match ← onEngine (Engine.sync force) with
  | some e => report e
  | none => return ()

def ofEngine (settings : Settings) (engine : ε) (journal : Array Event) : Environment ε :=
  { engine, settings, journal := journal.push (.environmentReady (Engine.name ε)) }

end Environment

namespace Environment

def volatile (settings : Settings) : Environment Volatile :=
  ofEngine settings { maxSize := settings.maxSize } #[]

def faulty (settings : Settings) : Environment (Faulty Volatile) :=
  ofEngine settings { inner := { maxSize := settings.maxSize } } #[]

def opened {δ : Type} [Database δ] (settings : Settings) (engine : DatabaseEngine δ) :
    Environment (DatabaseEngine δ) :=
  ofEngine settings engine
    #[.engineOpened engine.path engine.maxSize engine.deferredSync engine.known.length,
      .environmentOpened engine.path]

def openDurable (settings : Settings) (probe : Except PathFault NodeKind) (stored : Stored) :
    Except StorageError (Environment Durable) := do
  checkPath settings.path probe
  let engine ← Durable.openFile settings stored
  return opened settings engine

end Environment

end TrafficStore
