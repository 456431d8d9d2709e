import TrafficStore.Panel

namespace TrafficStore

inductive Metric where
  | keyMap
  | rootMap
  | dataMap
  | uniqMap
  | root
  | hits
  | visitors
  | bandwidth
  | cumulativeTime
  | maxTime
  | methods
  | protocols
  | agents
  | metadata
  deriving DecidableEq, Repr

namespace Metric

def all : List Metric :=
  [keyMap, rootMap, dataMap, uniqMap, root, hits, visitors, bandwidth, cumulativeTime, maxTime,
    methods, protocols, agents, metadata]

theorem mem_all (m : Metric) : m ∈ all := by cases m <;> decide

def tableName : Metric → String
  | keyMap => "db_keymap"
  | rootMap => "db_rootmap"
  | dataMap => "db_datamap"
  | uniqMap => "db_uniqmap"
  | root => "db_root"
  | hits => "db_hits"
  | visitors => "db_visitors"
  | bandwidth => "db_bw"
  | cumulativeTime => "db_cumts"
  | maxTime => "db_maxts"
  | methods => "db_methods"
  | protocols => "db_protocols"
  | agents => "db_agents"
  | metadata => "db_metadata"

end Metric

inductive SharedTable where
  | agentKeys
  | agentValues
  | generalStats
  | hostnames
  | uniqueKeys
  deriving DecidableEq, Repr

namespace SharedTable

def all : List SharedTable := [agentKeys, agentValues, generalStats, hostnames, uniqueKeys]

theorem mem_all (t : SharedTable) : t ∈ all := by cases t <;> decide

def tableName : SharedTable → String
  | agentKeys => "db_agent_keys"
  | agentValues => "db_agent_vals"
  | generalStats => "db_gen_stats"
  | hostnames => "db_hostnames"
  | uniqueKeys => "db_unique_keys"

end SharedTable

inductive TableId where
  | shared (table : SharedTable)
  | panel (panel : Panel) (metric : Metric)
  deriving DecidableEq, Repr

namespace TableId

def name : TableId → String
  | shared t => t.tableName
  | panel p m => s!"{m.tableName}-m{p.ordinal}"

def ofPanels (ps : List Panel) : List TableId :=
  SharedTable.all.map shared ++ ps.flatMap (fun p => Metric.all.map (panel p))

theorem length_ofPanels (ps : List Panel) : (ofPanels ps).length = 5 + 14 * ps.length := by
  induction ps with
  | nil => rfl
  | cons p ps ih =>
      simp only [ofPanels, List.flatMap_cons, List.length_append, List.length_map,
        List.length_cons] at ih ⊢
      have h5 : SharedTable.all.length = 5 := rfl
      have h14 : Metric.all.length = 14 := rfl
      omega

def ofName? (s : String) : Option TableId := (ofPanels Panel.all).find? (fun t => t.name = s)

end TableId

end TrafficStore
