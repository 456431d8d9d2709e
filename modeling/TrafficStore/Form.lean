import TrafficStore.Dump
import TrafficStore.Json

namespace TrafficStore

structure Form (α : Type) where
  write : α → Json
  read : Json → Option α

namespace Form

def named {α : Type} (all : List α) (name : α → String) : Form α where
  write a := .str (name a)
  read
    | .str s => all.find? (fun a => name a = s)
    | .obj [(s, .null)] => all.find? (fun a => name a = s)
    | _ => none

def panel : Form Panel := named Panel.all Panel.name

def metricName : Metric → String
  | .keyMap => "key_map"
  | .rootMap => "root_map"
  | .dataMap => "data_map"
  | .uniqMap => "uniq_map"
  | .root => "root"
  | .hits => "hits"
  | .visitors => "visitors"
  | .bandwidth => "bandwidth"
  | .cumulativeTime => "cumulative_time"
  | .maxTime => "max_time"
  | .methods => "methods"
  | .protocols => "protocols"
  | .agents => "agents"
  | .metadata => "metadata"

def metric : Form Metric := named Metric.all metricName

def sharedTableName : SharedTable → String
  | .agentKeys => "agent_keys"
  | .agentValues => "agent_values"
  | .generalStats => "general_stats"
  | .hostnames => "hostnames"
  | .uniqueKeys => "unique_keys"

def sharedTable : Form SharedTable := named SharedTable.all sharedTableName

def valueKindName : ValueKind → String
  | .integer => "integer"
  | .text => "string"

def valueKind : Form ValueKind := named [.integer, .text] valueKindName

def sortOrderName : SortOrder → String
  | .numericDescending => "numeric_descending"
  | .lexicographicAscending => "lexicographic_ascending"

def sortOrder : Form SortOrder :=
  named [.numericDescending, .lexicographicAscending] sortOrderName

def tableId : Form TableId where
  write
    | .shared t => .obj [("Global", sharedTable.write t)]
    | .panel p m => .obj [("Module", .arr [panel.write p, metric.write m])]
  read
    | .obj [("Global", j)] => (sharedTable.read j).map .shared
    | .obj [("Module", .arr [p, m])] => do return .panel (← panel.read p) (← metric.read m)
    | _ => none

def int : Form Int32 where
  write n := .int n.toInt
  read
    | .int n =>
        if Int32.minValue.toInt ≤ n ∧ n ≤ Int32.maxValue.toInt then some (.ofInt n) else none
    | _ => none

def value : Form Value where
  write
    | .int n => int.write n
    | .text s => .str s
  read
    | .str s => some (.text s)
    | j => (int.read j).map .int

def list {α : Type} (f : Form α) : Form (List α) where
  write as := .arr (as.map f.write)
  read
    | .arr js => js.mapM f.read
    | _ => none

def columns (names : List String) : Json → Option (List Json)
  | .obj fields => names.mapM (fun n => Json.field? n fields)
  | .arr js => if js.length = names.length then some js else none
  | _ => none

def item : Form Item where
  write x := .obj [("key", int.write x.key), ("value", value.write x.value)]
  read j :=
    match columns ["key", "value"] j with
    | some [k, v] => do return ⟨← int.read k, ← value.read v⟩
    | _ => none

def dump : Form Dump where
  write d :=
    .obj [("module", panel.write d.panel), ("kind", valueKind.write d.kind),
      ("items", (list item).write d.items)]
  read j :=
    match columns ["module", "kind", "items"] j with
    | some [p, k, xs] => do return ⟨← panel.read p, ← valueKind.read k, ← (list item).read xs⟩
    | _ => none

end Form

end TrafficStore
