import TrafficStore.Json
import TrafficStore.TableId

namespace TrafficStore

inductive Level where
  | trace
  | debug
  | info
  | warn
  | error
  deriving DecidableEq, Repr

namespace Level

def rank : Level → Nat
  | trace => 0
  | debug => 1
  | info => 2
  | warn => 3
  | error => 4

def name : Level → String
  | trace => "TRACE"
  | debug => "DEBUG"
  | info => "INFO"
  | warn => "WARN"
  | error => "ERROR"

def all : List Level := [trace, debug, info, warn, error]

def ofText? (s : String) : Option Level :=
  all.find? (fun l => Text.fold l.name.toList = Text.fold s.toList)

end Level

inductive Event where
  | engineOpened (path : String) (maxSize : UInt64) (deferredSync : Bool) (tables : Nat)
  | environmentOpened (path : String)
  | environmentReady (engine : String)
  | catalogReady (tables panels : Nat)
  | idAllocated (table : String) (id : Int32)
  | tableMissing (panel : Panel) (metric : Metric)
  | dumpSkipped (panel : Panel)
  | dumped (panel : Panel) (table : String) (items : Nat)
  | synced (path : String) (force : Bool)
  | ingestFinished (recorded : Nat)
  deriving DecidableEq, Repr

namespace Event

def level : Event → Level
  | engineOpened .. | environmentReady .. | dumped .. | synced .. => .debug
  | environmentOpened .. | catalogReady .. | ingestFinished .. => .info
  | idAllocated .. | tableMissing .. | dumpSkipped .. => .trace

def isOfProgram : Event → Bool
  | ingestFinished .. => true
  | _ => false

def target : Event → String
  | engineOpened .. | synced .. => "logstore_storage::storage::engines::redb"
  | environmentOpened .. | environmentReady .. => "logstore_storage::storage::environment"
  | catalogReady .. => "logstore_storage::storage::catalog"
  | idAllocated .. => "logstore_storage::storage::autoincrement"
  | dumpSkipped .. | dumped .. => "logstore_storage::storage::export"
  | tableMissing .. => "logstore_storage::store"
  | ingestFinished .. => "logstore"

def message : Event → String
  | engineOpened .. => "opened redb environment"
  | environmentOpened .. => "storage environment opened"
  | environmentReady .. => "storage environment ready"
  | catalogReady .. => "storage catalog initialized"
  | idAllocated .. => "allocated id"
  | tableMissing .. => "namespace unavailable"
  | dumpSkipped .. => "export skipped, module not cataloged"
  | dumped .. => "exported raw data"
  | synced .. => "synced redb environment"
  | ingestFinished .. => "ingest finished"

def details : Event → List (String × Json)
  | engineOpened path maxSize deferredSync tables =>
      [("path", .str path), ("max_size", .int maxSize.toNat), ("deferred_sync", .bool deferredSync),
        ("namespaces", .int tables)]
  | environmentOpened path => [("path", .str path)]
  | environmentReady engine => [("engine", .str engine)]
  | catalogReady tables panels => [("namespaces", .int tables), ("modules", .int panels)]
  | idAllocated table id => [("namespace", .str table), ("id", .int id.toInt)]
  | tableMissing panel metric => [("module", .str panel.name), ("metric", .str metric.tableName)]
  | dumpSkipped panel => [("module", .str panel.name)]
  | dumped panel table items =>
      [("module", .str panel.name), ("namespace", .str table), ("items", .int items)]
  | synced path force => [("path", .str path), ("force", .bool force)]
  | ingestFinished recorded => [("recorded", .int recorded)]

def toJson (e : Event) : Json :=
  .obj [("level", .str e.level.name), ("fields", .obj (("message", .str e.message) :: e.details)),
    ("target", .str e.target)]

end Event

structure EventFilter where
  program : Option Level
  storage : Option Level
  deriving DecidableEq, Repr

namespace EventFilter

def standard : EventFilter := ⟨some .info, some .debug⟩

def atLeast (l : Level) : EventFilter := ⟨some l, some l⟩

def silent : EventFilter := ⟨none, none⟩

def ofText (s : String) : EventFilter :=
  match Level.ofText? s with
  | some l => atLeast l
  | none => silent

def shows (f : EventFilter) (e : Event) : Bool :=
  match if e.isOfProgram then f.program else f.storage with
  | some l => l.rank ≤ e.level.rank
  | none => false

end EventFilter

end TrafficStore
