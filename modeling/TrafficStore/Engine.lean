import TrafficStore.Event
import TrafficStore.SortedMap
import TrafficStore.StorageError
import TrafficStore.Work

namespace TrafficStore

abbrev Table := SortedMap Bytes Bytes

abbrev Content := SortedMap String Table

abbrev EngineM (ε α : Type) := Work ε StorageError α

abbrev ScopeM (ε σ α : Type) := Work (σ × ε) StorageError α

structure Reading (ε σ : Type) where
  find : String → Bytes → ScopeM ε σ (Option Bytes)
  count : String → ScopeM ε σ Nat
  scan : String → ScopeM ε σ (List (Bytes × Bytes))

class Engine (ε : Type) where
  Reader : Type
  Writer : Type
  name : String
  /-- Whether a flush has to wait for the writer that is open. -/
  syncTakesWriter : Bool
  beginRead : EngineM ε Reader
  reading : Reading ε Reader
  endRead : Reader → EngineM ε Unit
  beginWrite : EngineM ε Writer
  rereading : Reading ε Writer
  create : String → ScopeM ε Writer Unit
  put : String → Bytes → Bytes → ScopeM ε Writer Unit
  commit : Writer → EngineM ε Unit
  sync : Bool → EngineM ε (Option Event)
  restart : ε → ε
  committed : ε → Content

end TrafficStore
