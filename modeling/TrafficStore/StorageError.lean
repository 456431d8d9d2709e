import TrafficStore.Format

namespace TrafficStore

inductive Stage where
  | start
  | commit
  | createTable
  | read
  | write
  | stat
  | scan
  | sync
  deriving DecidableEq, Repr

namespace Stage

def description : Stage → String
  | start => "begin transaction"
  | commit => "commit transaction"
  | createTable => "create namespace"
  | read => "read record"
  | write => "write record"
  | stat => "stat namespace"
  | scan => "scan namespace"
  | sync => "sync environment"

end Stage

inductive StorageError where
  | invalidPath (path reason : String)
  | openFailed (path reason : String)
  | engine (stage : Stage) (reason : String)
  | tableLimit (requested limit : Nat)
  | full (used limit : Nat)
  | idsExhausted (table : String)
  | unknownTable (table : String)
  | corrupt (fault : FormatFault)
  | engineUnavailable (name : String)
  deriving DecidableEq, Repr

namespace StorageError

def message : StorageError → String
  | .invalidPath path reason => s!"invalid database path {path}: {reason}"
  | .openFailed path reason => s!"unable to open environment at {path}: {reason}"
  | .engine stage reason => s!"unable to {stage.description}: {reason}"
  | .tableLimit requested limit => s!"{requested} namespaces requested, environment allows {limit}"
  | .full used limit => s!"environment is full: {used} bytes used, limit {limit}"
  | .idsExhausted table => s!"namespace {table} has no ids left"
  | .unknownTable table => s!"namespace {table} does not exist"
  | .corrupt fault => s!"corrupt record: {fault.message}"
  | .engineUnavailable name => s!"storage engine {name} is not available in this build"

def causes : StorageError → List String
  | .openFailed _ reason => [reason]
  | .engine _ reason => [reason]
  | .corrupt (.utf8 fault) => [(FormatFault.utf8 fault).message, fault.message]
  | .corrupt fault => [fault.message]
  | _ => []

def messages (e : StorageError) : List String := e.message :: e.causes

def isExhausted : StorageError → Bool
  | .tableLimit _ _ => true
  | .full _ _ => true
  | .idsExhausted _ => true
  | _ => false

def isFull : StorageError → Bool
  | .full _ _ => true
  | _ => false

def isMisuse : StorageError → Bool
  | .invalidPath _ _ => true
  | .unknownTable _ => true
  | .engineUnavailable _ => true
  | _ => false

end StorageError

end TrafficStore
