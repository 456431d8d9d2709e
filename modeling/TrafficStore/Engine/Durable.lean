import TrafficStore.Engine.Database
import TrafficStore.Settings

namespace TrafficStore

inductive Stored where
  | absent
  | directory
  | unreachable (fault : PathFault)
  | file (bytes : Bytes)
  deriving DecidableEq, Repr

structure DatabaseEngine (δ : Type) where
  path : String
  maxSize : UInt64
  deferredSync : Bool
  database : δ
  known : List String
  unflushed : Bool := false
  deriving DecidableEq

abbrev Durable := DatabaseEngine TableFile

namespace DatabaseEngine

variable {δ α τ ξ : Type}

def onDatabase (stage : Stage) (m : Work δ String α) : EngineM (DatabaseEngine δ) α :=
  (m.mapFault (.engine stage)).within database (fun d e => { e with database := d })

def onHandle (stage : Stage) (m : Work δ String α) : ScopeM (DatabaseEngine δ) τ α :=
  (onDatabase stage m).within Prod.snd (fun e s => (s.1, e))

def inTxn (fault : ξ → StorageError) (m : Work (τ × δ) ξ α) : ScopeM (DatabaseEngine δ) τ α :=
  (m.mapFault fault).within (fun s => (s.1, s.2.database))
    (fun r s => (r.1, { s.2 with database := r.2 }))

def tableFault (stage : Stage) : TableFault → StorageError
  | .missing name => .unknownTable name
  | .broken reason => .engine stage reason

variable [Database δ]

def ofDatabase (settings : Settings) (d : δ) : DatabaseEngine δ where
  path := settings.filePath
  maxSize := settings.maxSize
  deferredSync := settings.deferredSync
  database := d
  known := Database.tableNames d

def openRead (stage : Stage) (table : String) :
    ScopeM (DatabaseEngine δ) (Database.ReadTxn δ) (Database.Handle δ) :=
  inTxn (tableFault stage) (Database.openRead table)

def reading : Reading (DatabaseEngine δ) (Database.ReadTxn δ) where
  find table key := do
    let h ← openRead .read table
    onHandle .read (Database.find h key)
  count table := do
    let h ← openRead .stat table
    onHandle .stat (Database.count h)
  scan table := do
    let h ← openRead .scan table
    onHandle .scan (Database.records h)

structure Writer (δ : Type) [Database δ] where
  txn : Database.WriteTxn δ
  created : List String := []

namespace Writer

def noteCreated (w : Writer δ) (table : String) : Writer δ :=
  { w with created := w.created ++ [table] }

def inTxn (fault : ξ → StorageError) (m : Work (Database.WriteTxn δ × δ) ξ α) :
    ScopeM (DatabaseEngine δ) (Writer δ) α :=
  (DatabaseEngine.inTxn fault m).within (fun s => (s.1.txn, s.2))
    (fun r s => ({ s.1 with txn := r.1 }, r.2))

end Writer

def isKnown (e : DatabaseEngine δ) (w : Writer δ) (table : String) : Bool :=
  e.known.contains table || w.created.contains table

def openWrite (stage : Stage) (table : String) :
    ScopeM (DatabaseEngine δ) (Writer δ) (Database.Handle δ) :=
  Writer.inTxn (tableFault stage) (Database.openWrite table)

def openKnown (stage : Stage) (table : String) :
    ScopeM (DatabaseEngine δ) (Writer δ) (Database.Handle δ) := do
  let s ← Work.state
  if s.2.isKnown s.1 table then openWrite stage table else Work.fail (.unknownTable table)

def rereading : Reading (DatabaseEngine δ) (Writer δ) where
  find table key := do
    let h ← openKnown .read table
    onHandle .read (Database.find h key)
  count table := do
    let h ← openKnown .stat table
    onHandle .stat (Database.count h)
  scan table := do
    let h ← openKnown .scan table
    onHandle .scan (Database.records h)

def create (table : String) : ScopeM (DatabaseEngine δ) (Writer δ) Unit := do
  let _ ← openWrite .createTable table
  Work.update (fun s => if s.2.isKnown s.1 table then s else (s.1.noteCreated table, s.2))

def put (table : String) (key value : Bytes) : ScopeM (DatabaseEngine δ) (Writer δ) Unit := do
  let h ← openKnown .write table
  Writer.inTxn (.engine .write) (Database.insert h key value)

def beginWrite : EngineM (DatabaseEngine δ) (Writer δ) := do
  let size ← onDatabase .start Database.fileSize
  let e ← Work.state
  if e.maxSize.toNat ≤ size then Work.fail (.full size e.maxSize.toNat)
  else
    let txn ← onDatabase .start (Database.beginWrite e.deferredSync)
    return { txn }

def commit (w : Writer δ) : EngineM (DatabaseEngine δ) Unit := do
  onDatabase .commit (Database.commit w.txn)
  Work.update (fun e => { e with
    known := e.known ++ w.created
    unflushed := e.unflushed || e.deferredSync })

def flush : Work δ String Unit := do
  let txn ← Database.beginWrite false
  Database.commit txn

/-- Without force, only commits that were deferred are worth a flush. -/
def sync (force : Bool) : EngineM (DatabaseEngine δ) (Option Event) := do
  let e ← Work.state
  if force || e.unflushed then
    onDatabase .sync flush
    Work.update (fun e => { e with unflushed := false })
    return some (.synced e.path force)
  else return none

def restart (e : DatabaseEngine δ) : DatabaseEngine δ :=
  let d := Database.reopen e.database
  { e with database := d, known := Database.tableNames d, unflushed := false }

end DatabaseEngine

namespace Durable

def load (path : String) : Stored → Except StorageError TableFile
  | .absent => .ok {}
  | .directory => .error (.openFailed path "I/O error: Is a directory (os error 21)")
  | .unreachable f => .error (.openFailed path s!"I/O error: {f.message}")
  | .file [] => .ok {}
  | .file bs =>
      match DiskImage.read bs with
      | some c => .ok ⟨c⟩
      | none => .error (.openFailed path "the file holds no environment")

def openFile (settings : Settings) (stored : Stored) : Except StorageError Durable := do
  let d ← load settings.filePath stored
  return .ofDatabase settings d

def image (e : Durable) : Bytes := DiskImage.image e.database.content

end Durable

instance {δ : Type} [Database δ] : Engine (DatabaseEngine δ) where
  Reader := Database.ReadTxn δ
  Writer := DatabaseEngine.Writer δ
  name := "redb"
  syncTakesWriter := true
  beginRead := DatabaseEngine.onDatabase .start Database.beginRead
  reading := DatabaseEngine.reading
  endRead _ := return ()
  beginWrite := DatabaseEngine.beginWrite
  rereading := DatabaseEngine.rereading
  create := DatabaseEngine.create
  put := DatabaseEngine.put
  commit := DatabaseEngine.commit
  sync := DatabaseEngine.sync
  restart := DatabaseEngine.restart
  committed e := Database.content e.database

end TrafficStore
