import TrafficStore.LogRecord
import TrafficStore.Store
import TrafficStore.Text.Lines

namespace TrafficStore

inductive IngestFault where
  | unreadable
  | badLine (number : Nat) (fault : RecordFault)
  | storage (e : StorageError)
  deriving DecidableEq, Repr

namespace IngestFault

def messages : IngestFault → List String
  | unreadable => ["failed to read stdin", "stream did not contain valid UTF-8"]
  | badLine n f => s!"line {n}" :: f.messages
  | storage e => e.messages

end IngestFault

def totalRequests : String := "total_requests"

def totalBytes : String := "bandwidth"

abbrev IngestM (ε α : Type) := Work (Environment ε) IngestFault α

namespace Ingest

variable {ε : Type} [Engine ε]

def record (c : Catalog) (r : LogRecord) : StoreM ε Bool := do
  match ← c.assignKey r.panel r.key with
  | none => return false
  | some id =>
      c.putLabel r.panel id r.key
      let _ ← c.addHits r.panel id 1
      let _ ← c.addBandwidth r.panel id r.bytes
      let _ ← c.addStat totalRequests 1
      let _ ← c.addStat totalBytes r.bytes
      return true

def readLine (number : Nat) (line : Bytes) : Except IngestFault (Option LogRecord) :=
  match Text.Utf8.decode line with
  | .error _ => .error .unreadable
  | .ok s =>
      if Text.trim s.toList = [] then .ok none
      else ((LogRecord.parse s).map some).mapError (.badLine number)

def lines (c : Catalog) (number : Nat) : List Bytes → IngestM ε Nat
  | [] => return 0
  | l :: ls => do
      match ← Work.ofExcept (readLine number l) with
      | none => lines c (number + 1) ls
      | some r =>
          let counted ← (record c r).mapFault .storage
          let rest ← lines c (number + 1) ls
          return if counted then rest + 1 else rest

def run (c : Catalog) (input : Bytes) : IngestM ε Nat := do
  let n ← lines c 1 (Text.lines input)
  (Environment.sync true).mapFault .storage
  return n

end Ingest

end TrafficStore
