import TrafficStore.Panel
import TrafficStore.StorageError

namespace TrafficStore

structure Settings where
  path : String := "/tmp"
  maxSize : UInt64 := 104857600000
  maxTables : Nat := 256
  deferredSync : Bool := true
  ignored : List Panel := []
  deriving DecidableEq, Repr

namespace Settings

def enabled (s : Settings) : List Panel := Panel.all.filter (fun p => ¬ p ∈ s.ignored)

theorem mem_enabled {s : Settings} {p : Panel} : p ∈ s.enabled ↔ p ∉ s.ignored := by
  simp [enabled, Panel.mem_all]

def fileName : String := "logstore.redb"

def filePath (s : Settings) : String :=
  if s.path = "" ∨ s.path.toList.getLast? = some '/' then s.path ++ fileName
  else s.path ++ "/" ++ fileName

end Settings

inductive PathFault where
  | missing
  | notDirectory
  | nameTooLong
  | denied
  | nul
  deriving DecidableEq, Repr

namespace PathFault

def message : PathFault → String
  | missing => "No such file or directory (os error 2)"
  | notDirectory => "Not a directory (os error 20)"
  | nameTooLong => "File name too long (os error 36)"
  | denied => "Permission denied (os error 13)"
  | nul => "file name contained an unexpected NUL byte"

end PathFault

inductive NodeKind where
  | file
  | directory
  deriving DecidableEq, Repr

def checkPath (path : String) : Except PathFault NodeKind → Except StorageError Unit
  | .ok .directory => .ok ()
  | .ok .file => .error (.invalidPath path "database path is not a directory")
  | .error f => .error (.invalidPath path s!"unable to access database path: {f.message}")

end TrafficStore
