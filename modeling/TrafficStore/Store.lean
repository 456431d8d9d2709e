import TrafficStore.Access
import TrafficStore.Catalog

namespace TrafficStore

namespace Catalog

variable {ε α : Type}

def reportMissing : TableId → StoreM ε Unit
  | .panel p m => Environment.report (.tableMissing p m)
  | .shared _ => return ()

def onTable (c : Catalog) (t : TableId) (missing : α) (op : TableId → StoreM ε α) : StoreM ε α :=
  match c.table? t with
  | some t => op t
  | none => do
      reportMissing t
      return missing

def onPanel (c : Catalog) (p : Panel) (m : Metric) (missing : α) (op : TableId → StoreM ε α) :
    StoreM ε α :=
  c.onTable (.panel p m) missing op

def onShared (c : Catalog) (t : SharedTable) (missing : α) (op : TableId → StoreM ε α) :
    StoreM ε α :=
  c.onTable (.shared t) missing op

variable [Engine ε] (c : Catalog) (p : Panel)

def assignKey (key : String) : StoreM ε (Option Int32) :=
  c.onPanel p .keyMap none (fun t => (fun a => some a.id) <$> t.allocate key)

def findKey (key : String) : StoreM ε (Option Int32) :=
  c.onPanel p .keyMap none (fun t => t.find .int (.name key))

def markVisitor (key : String) : StoreM ε Bool :=
  c.onPanel p .uniqMap false (fun t => Allocation.isNew <$> t.allocate key)

def putLabel (id : Int32) (label : String) : StoreM ε Unit :=
  c.onPanel p .dataMap () (fun t => t.put .text (.id id) label)

def label (id : Int32) : StoreM ε (Option String) :=
  c.onPanel p .dataMap none (fun t => t.find .text (.id id))

def putRootLabel (root : Int32) (label : String) : StoreM ε Unit :=
  c.onPanel p .rootMap () (fun t => t.put .text (.id root) label)

def linkRoot (id root : Int32) : StoreM ε Unit :=
  c.onPanel p .root () (fun t => t.put .int (.id id) root)

def putMethod (id : Int32) (method : String) : StoreM ε Unit :=
  c.onPanel p .methods () (fun t => t.put .text (.id id) method)

def method (id : Int32) : StoreM ε (Option String) :=
  c.onPanel p .methods none (fun t => t.find .text (.id id))

def putProtocol (id : Int32) (protocol : String) : StoreM ε Unit :=
  c.onPanel p .protocols () (fun t => t.put .text (.id id) protocol)

def protocol (id : Int32) : StoreM ε (Option String) :=
  c.onPanel p .protocols none (fun t => t.find .text (.id id))

def addHits (id n : Int32) : StoreM ε Int32 :=
  c.onPanel p .hits 0 (fun t => t.addInt (.id id) n)

def hits (id : Int32) : StoreM ε Int32 :=
  c.onPanel p .hits 0 (fun t => t.intOrZero (.id id))

def addVisitors (id n : Int32) : StoreM ε Int32 :=
  c.onPanel p .visitors 0 (fun t => t.addInt (.id id) n)

def visitors (id : Int32) : StoreM ε Int32 :=
  c.onPanel p .visitors 0 (fun t => t.intOrZero (.id id))

def addBandwidth (id : Int32) (n : UInt64) : StoreM ε UInt64 :=
  c.onPanel p .bandwidth 0 (fun t => t.addWord (.id id) n)

def bandwidth (id : Int32) : StoreM ε UInt64 :=
  c.onPanel p .bandwidth 0 (fun t => t.wordOrZero (.id id))

def addTime (id : Int32) (n : UInt64) : StoreM ε UInt64 :=
  c.onPanel p .cumulativeTime 0 (fun t => t.addWord (.id id) n)

def time (id : Int32) : StoreM ε UInt64 :=
  c.onPanel p .cumulativeTime 0 (fun t => t.wordOrZero (.id id))

def raiseMaxTime (id : Int32) (n : UInt64) : StoreM ε Bool :=
  c.onPanel p .maxTime false (fun t => t.raise (.id id) n)

def maxTime (id : Int32) : StoreM ε UInt64 :=
  c.onPanel p .maxTime 0 (fun t => t.wordOrZero (.id id))

def addMetadata (name : String) (n : UInt64) : StoreM ε UInt64 :=
  c.onPanel p .metadata 0 (fun t => t.addWord (.name name) n)

def labelCount : StoreM ε Nat := c.onPanel p .dataMap 0 TableId.cardinality

def visitorCount : StoreM ε Nat := c.onPanel p .uniqMap 0 TableId.cardinality

def assignVisitorKey (key : String) : StoreM ε (Option Int32) :=
  c.onShared .uniqueKeys none (fun t => (fun a => some a.id) <$> t.allocate key)

def assignAgentKey (agent : String) : StoreM ε (Option Int32) :=
  c.onShared .agentKeys none (fun t => (fun a => some a.id) <$> t.allocate agent)

def putAgent (id : Int32) (agent : String) : StoreM ε Unit :=
  c.onShared .agentValues () (fun t => t.put .text (.id id) agent)

def agent (id : Int32) : StoreM ε (Option String) :=
  c.onShared .agentValues none (fun t => t.find .text (.id id))

def putHostname (address hostname : String) : StoreM ε Unit :=
  c.onShared .hostnames () (fun t => t.put .text (.name address) hostname)

def hostname (address : String) : StoreM ε (Option String) :=
  c.onShared .hostnames none (fun t => t.find .text (.name address))

def addStat (name : String) (n : UInt64) : StoreM ε UInt64 :=
  c.onShared .generalStats 0 (fun t => t.addWord (.name name) n)

def stat (name : String) : StoreM ε UInt64 :=
  c.onShared .generalStats 0 (fun t => t.wordOrZero (.name name))

def rootLabelIn (root labels : TableId) (id : Int32) :
    ScopeM ε (Engine.Reader ε) (Option String) := do
  match ← root.field Engine.reading .int (.id id) with
  | some r => if r = 0 then return none else labels.field Engine.reading .text (.id r)
  | none => return none

def rootLabel (id : Int32) : StoreM ε (Option String) :=
  match c.panelTable? p .root, c.panelTable? p .rootMap with
  | some root, some labels => Environment.read (rootLabelIn root labels id)
  | _, _ => return none

def dump : StoreM ε (Option Dump) :=
  match c.panelTable? p p.dumpPolicy.metric with
  | some t => do
      Environment.sync true
      let d ← t.dump p p.dumpPolicy.kind p.dumpPolicy.order
      Environment.report (.dumped p t.name d.items.length)
      return some d
  | none => do
      Environment.report (.dumpSkipped p)
      return none

end Catalog

end TrafficStore
