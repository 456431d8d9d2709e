import TrafficStore.Clamp
import TrafficStore.Engine

namespace TrafficStore

inductive FaultPoint where
  | beginRead
  | beginWrite
  | endRead
  | commit
  | find
  | put
  | count
  | scan
  | create
  | sync
  deriving DecidableEq, Repr

namespace FaultPoint

def stage : FaultPoint → Stage
  | beginRead | beginWrite => .start
  | endRead | commit => .commit
  | find => .read
  | put => .write
  | count => .stat
  | scan => .scan
  | create => .createTable
  | sync => .sync

end FaultPoint

/-- Lets `after` calls through, then fails. -/
structure Fault where
  point : FaultPoint
  after : Nat
  reason : String
  deriving DecidableEq, Repr

structure Faulty (ε : Type) where
  inner : ε
  fault : Option Fault := none
  extraCount : Nat := 0

namespace Faulty

variable {ε : Type}

def letThrough (e : Faulty ε) (point : FaultPoint) : Except StorageError (Faulty ε) :=
  match e.fault with
  | none => .ok e
  | some f =>
      if f.point = point then
        match f.after with
        | 0 => .error (.engine point.stage f.reason)
        | n + 1 => .ok { e with fault := some { f with after := n } }
      else .ok e

def guarded {α : Type} (point : FaultPoint) (m : EngineM ε α) : EngineM (Faulty ε) α := ⟨fun e =>
  match e.letThrough point with
  | .ok e =>
      let r := m.run e.inner
      (r.1, { e with inner := r.2 })
  | .error x => (.error x, e)⟩

def guardedIn {α σ : Type} (point : FaultPoint) (m : ScopeM ε σ α) :
    ScopeM (Faulty ε) σ α := ⟨fun s =>
  match s.2.letThrough point with
  | .ok e =>
      let r := m.run (s.1, e.inner)
      (r.1, (r.2.1, { e with inner := r.2.2 }))
  | .error x => (.error x, s)⟩

def inflate (extra n : Nat) : Nat := max n (min (n + extra) wordMax)

def guardReading {σ : Type} (r : Reading ε σ) : Reading (Faulty ε) σ where
  find table key := guardedIn .find (r.find table key)
  count table := do
    let n ← guardedIn .count (r.count table)
    let s ← Work.state
    return inflate s.2.extraCount n
  scan table := guardedIn .scan (r.scan table)

end Faulty

instance {ε : Type} [Engine ε] : Engine (Faulty ε) where
  Reader := Engine.Reader ε
  Writer := Engine.Writer ε
  name := Engine.name ε
  syncTakesWriter := Engine.syncTakesWriter ε
  beginRead := Faulty.guarded .beginRead Engine.beginRead
  reading := Faulty.guardReading Engine.reading
  endRead r := Faulty.guarded .endRead (Engine.endRead r)
  beginWrite := Faulty.guarded .beginWrite Engine.beginWrite
  rereading := Faulty.guardReading Engine.rereading
  create table := Faulty.guardedIn .create (Engine.create table)
  put table key value := Faulty.guardedIn .put (Engine.put table key value)
  commit w := Faulty.guarded .commit (Engine.commit w)
  sync force := Faulty.guarded .sync (Engine.sync force)
  restart e := { e with inner := Engine.restart e.inner }
  committed e := Engine.committed e.inner

end TrafficStore
