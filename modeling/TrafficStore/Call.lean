import TrafficStore.Store

namespace TrafficStore

inductive Call where
  | assignKey (p : Panel) (key : String)
  | findKey (p : Panel) (key : String)
  | markVisitor (p : Panel) (key : String)
  | putLabel (p : Panel) (id : Int32) (label : String)
  | label (p : Panel) (id : Int32)
  | putRootLabel (p : Panel) (root : Int32) (label : String)
  | linkRoot (p : Panel) (id root : Int32)
  | rootLabel (p : Panel) (id : Int32)
  | putMethod (p : Panel) (id : Int32) (method : String)
  | method (p : Panel) (id : Int32)
  | putProtocol (p : Panel) (id : Int32) (protocol : String)
  | protocol (p : Panel) (id : Int32)
  | addHits (p : Panel) (id n : Int32)
  | hits (p : Panel) (id : Int32)
  | addVisitors (p : Panel) (id n : Int32)
  | visitors (p : Panel) (id : Int32)
  | addBandwidth (p : Panel) (id : Int32) (n : UInt64)
  | bandwidth (p : Panel) (id : Int32)
  | addTime (p : Panel) (id : Int32) (n : UInt64)
  | time (p : Panel) (id : Int32)
  | raiseMaxTime (p : Panel) (id : Int32) (n : UInt64)
  | maxTime (p : Panel) (id : Int32)
  | addMetadata (p : Panel) (name : String) (n : UInt64)
  | labelCount (p : Panel)
  | visitorCount (p : Panel)
  | dump (p : Panel)
  | assignVisitorKey (key : String)
  | assignAgentKey (agent : String)
  | putAgent (id : Int32) (agent : String)
  | agent (id : Int32)
  | putHostname (address hostname : String)
  | hostname (address : String)
  | addStat (name : String) (n : UInt64)
  | stat (name : String)
  | sync (force : Bool)
  deriving DecidableEq, Repr

namespace Call

/-- A root label takes two looks, and a flush none. -/
def access? : Call → Option (TableId × Access)
  | .assignKey p key => some (.panel p .keyMap, .allocate key)
  | .findKey p key => some (.panel p .keyMap, .findInt (.name key))
  | .markVisitor p key => some (.panel p .uniqMap, .allocate key)
  | .putLabel p id text => some (.panel p .dataMap, .putText (.id id) text)
  | .label p id => some (.panel p .dataMap, .findText (.id id))
  | .putRootLabel p root text => some (.panel p .rootMap, .putText (.id root) text)
  | .linkRoot p id root => some (.panel p .root, .putInt (.id id) root)
  | .putMethod p id text => some (.panel p .methods, .putText (.id id) text)
  | .method p id => some (.panel p .methods, .findText (.id id))
  | .putProtocol p id text => some (.panel p .protocols, .putText (.id id) text)
  | .protocol p id => some (.panel p .protocols, .findText (.id id))
  | .addHits p id n => some (.panel p .hits, .addInt (.id id) n)
  | .hits p id => some (.panel p .hits, .intOrZero (.id id))
  | .addVisitors p id n => some (.panel p .visitors, .addInt (.id id) n)
  | .visitors p id => some (.panel p .visitors, .intOrZero (.id id))
  | .addBandwidth p id n => some (.panel p .bandwidth, .addWord (.id id) n)
  | .bandwidth p id => some (.panel p .bandwidth, .wordOrZero (.id id))
  | .addTime p id n => some (.panel p .cumulativeTime, .addWord (.id id) n)
  | .time p id => some (.panel p .cumulativeTime, .wordOrZero (.id id))
  | .raiseMaxTime p id n => some (.panel p .maxTime, .raise (.id id) n)
  | .maxTime p id => some (.panel p .maxTime, .wordOrZero (.id id))
  | .addMetadata p name n => some (.panel p .metadata, .addWord (.name name) n)
  | .labelCount p => some (.panel p .dataMap, .cardinality)
  | .visitorCount p => some (.panel p .uniqMap, .cardinality)
  | .dump p =>
      some (.panel p p.dumpPolicy.metric, .dump p p.dumpPolicy.kind p.dumpPolicy.order)
  | .assignVisitorKey key => some (.shared .uniqueKeys, .allocate key)
  | .assignAgentKey key => some (.shared .agentKeys, .allocate key)
  | .putAgent id text => some (.shared .agentValues, .putText (.id id) text)
  | .agent id => some (.shared .agentValues, .findText (.id id))
  | .putHostname address text => some (.shared .hostnames, .putText (.name address) text)
  | .hostname address => some (.shared .hostnames, .findText (.name address))
  | .addStat name n => some (.shared .generalStats, .addWord (.name name) n)
  | .stat name => some (.shared .generalStats, .wordOrZero (.name name))
  | .rootLabel _ _ | .sync _ => none

def writes (q : Call) : Bool :=
  match q.access? with
  | some (_, a) => a.writes
  | none => false

def flushes : Call → Bool
  | .dump .. | .sync .. => true
  | _ => false

def reply (_ : Unit) : Reply := .done

variable {ε : Type} [Engine ε]

def run (c : Catalog) : Call → StoreM ε Reply
  | .assignKey p key => .maybeInt <$> c.assignKey p key
  | .findKey p key => .maybeInt <$> c.findKey p key
  | .markVisitor p key => .flag <$> c.markVisitor p key
  | .putLabel p id text => reply <$> c.putLabel p id text
  | .label p id => .maybeText <$> c.label p id
  | .putRootLabel p root text => reply <$> c.putRootLabel p root text
  | .linkRoot p id root => reply <$> c.linkRoot p id root
  | .rootLabel p id => .maybeText <$> c.rootLabel p id
  | .putMethod p id text => reply <$> c.putMethod p id text
  | .method p id => .maybeText <$> c.method p id
  | .putProtocol p id text => reply <$> c.putProtocol p id text
  | .protocol p id => .maybeText <$> c.protocol p id
  | .addHits p id n => .int <$> c.addHits p id n
  | .hits p id => .int <$> c.hits p id
  | .addVisitors p id n => .int <$> c.addVisitors p id n
  | .visitors p id => .int <$> c.visitors p id
  | .addBandwidth p id n => .word <$> c.addBandwidth p id n
  | .bandwidth p id => .word <$> c.bandwidth p id
  | .addTime p id n => .word <$> c.addTime p id n
  | .time p id => .word <$> c.time p id
  | .raiseMaxTime p id n => .flag <$> c.raiseMaxTime p id n
  | .maxTime p id => .word <$> c.maxTime p id
  | .addMetadata p name n => .word <$> c.addMetadata p name n
  | .labelCount p => .size <$> c.labelCount p
  | .visitorCount p => .size <$> c.visitorCount p
  | .dump p => .maybeDump <$> c.dump p
  | .assignVisitorKey key => .maybeInt <$> c.assignVisitorKey key
  | .assignAgentKey key => .maybeInt <$> c.assignAgentKey key
  | .putAgent id text => reply <$> c.putAgent id text
  | .agent id => .maybeText <$> c.agent id
  | .putHostname address text => reply <$> c.putHostname address text
  | .hostname address => .maybeText <$> c.hostname address
  | .addStat name n => .word <$> c.addStat name n
  | .stat name => .word <$> c.stat name
  | .sync force => reply <$> Environment.sync force

end Call

end TrafficStore
