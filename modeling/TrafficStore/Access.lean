import TrafficStore.Dump
import TrafficStore.Environment

namespace TrafficStore

inductive Key where
  | name (s : String)
  | id (n : Int32)
  deriving DecidableEq, Repr

namespace Key

def bytes : Key → Bytes
  | name s => Format.name.encode s
  | id n => Format.int.encode n

end Key

inductive Allocation where
  | existing (id : Int32)
  | inserted (id : Int32)
  deriving DecidableEq, Repr

namespace Allocation

def id : Allocation → Int32
  | existing n => n
  | inserted n => n

def isNew : Allocation → Bool
  | existing _ => false
  | inserted _ => true

end Allocation

def maxId : Nat := 0x7FFFFFFF

def Format.read {α : Type} (f : Format α) : Option Bytes → Except StorageError (Option α)
  | none => .ok none
  | some bs => ((f.decode bs).map some).mapError .corrupt

namespace TableId

variable {ε α : Type}

def field {σ : Type} (t : TableId) (r : Reading ε σ) (f : Format α) (k : Key) :
    ScopeM ε σ (Option α) := do
  let raw ← r.find t.name k.bytes
  Work.ofExcept (f.read raw)

variable [Engine ε]

def find (t : TableId) (f : Format α) (k : Key) : StoreM ε (Option α) :=
  Environment.read (t.field Engine.reading f k)

def intOrZero (t : TableId) (k : Key) : StoreM ε Int32 := do
  return (← t.find .int k).getD 0

def wordOrZero (t : TableId) (k : Key) : StoreM ε UInt64 := do
  return (← t.find .word k).getD 0

def cardinality (t : TableId) : StoreM ε Nat :=
  Environment.read (Engine.reading.count t.name)

def put (t : TableId) (f : Format α) (k : Key) (a : α) : StoreM ε Unit :=
  Environment.write (Engine.put t.name k.bytes (f.encode a))

def accumulate (t : TableId) (f : Format α) (zero : α) (add : α → α → α) (k : Key) (delta : α) :
    StoreM ε α :=
  Environment.write do
    let current ← t.field Engine.rereading f k
    let sum := add (current.getD zero) delta
    Engine.put t.name k.bytes (f.encode sum)
    return sum

def addInt (t : TableId) (k : Key) (delta : Int32) : StoreM ε Int32 :=
  t.accumulate .int 0 TrafficStore.addInt k delta

def addWord (t : TableId) (k : Key) (delta : UInt64) : StoreM ε UInt64 :=
  t.accumulate .word 0 TrafficStore.addWord k delta

def raise (t : TableId) (k : Key) (candidate : UInt64) : StoreM ε Bool :=
  Environment.write do
    let current ← t.field Engine.rereading .word k
    if current.getD 0 < candidate then
      Engine.put t.name k.bytes (Format.word.encode candidate)
      return true
    else return false

def nextId? (n : Nat) : Option Int32 :=
  if n + 1 ≤ maxId then some (Int32.ofNat (n + 1)) else none

def allocateIn (t : TableId) (name : String) : ScopeM ε (Engine.Writer ε) Allocation := do
  match ← t.field Engine.rereading .int (.name name) with
  | some id => return .existing id
  | none =>
      match nextId? (← Engine.rereading.count t.name) with
      | none => Work.fail (.idsExhausted t.name)
      | some id =>
          Engine.put t.name (Key.name name).bytes (Format.int.encode id)
          return .inserted id

/-- A new name gets the id after as many as there are records. -/
def allocate (t : TableId) (name : String) : StoreM ε Allocation := do
  let a ← Environment.write (t.allocateIn name)
  if a.isNew then Environment.report (.idAllocated t.name a.id)
  return a

def dumpIn (t : TableId) (kind : ValueKind) : ScopeM ε (Engine.Reader ε) (List Item) := do
  let _ ← Engine.reading.count t.name
  let records ← Engine.reading.scan t.name
  Work.ofExcept ((Dump.decodeItems kind records).mapError .corrupt)

def dump (t : TableId) (panel : Panel) (kind : ValueKind) (order : SortOrder) : StoreM ε Dump := do
  let items ← Environment.read (t.dumpIn kind)
  return (⟨panel, kind, items⟩ : Dump).sort order

end TableId

inductive Access where
  | findInt (k : Key)
  | findText (k : Key)
  | intOrZero (k : Key)
  | wordOrZero (k : Key)
  | cardinality
  | putInt (k : Key) (n : Int32)
  | putWord (k : Key) (n : UInt64)
  | putText (k : Key) (s : String)
  | addInt (k : Key) (delta : Int32)
  | addWord (k : Key) (delta : UInt64)
  | raise (k : Key) (candidate : UInt64)
  | allocate (name : String)
  | dump (panel : Panel) (kind : ValueKind) (order : SortOrder)
  deriving DecidableEq, Repr

inductive Reply where
  | done
  | flag (b : Bool)
  | int (n : Int32)
  | word (n : UInt64)
  | size (n : Nat)
  | maybeInt (n : Option Int32)
  | maybeText (s : Option String)
  | allocation (a : Allocation)
  | dump (d : Dump)
  | maybeDump (d : Option Dump)
  deriving DecidableEq, Repr

namespace Access

def writes : Access → Bool
  | putInt .. | putWord .. | putText .. | addInt .. | addWord .. | raise .. | allocate .. => true
  | findInt .. | findText .. | intOrZero .. | wordOrZero .. | cardinality | dump .. => false

variable {ε : Type} [Engine ε]

def run (t : TableId) : Access → StoreM ε Reply
  | findInt k => .maybeInt <$> t.find .int k
  | findText k => .maybeText <$> t.find .text k
  | intOrZero k => .int <$> t.intOrZero k
  | wordOrZero k => .word <$> t.wordOrZero k
  | cardinality => .size <$> t.cardinality
  | putInt k n => (fun _ => .done) <$> t.put .int k n
  | putWord k n => (fun _ => .done) <$> t.put .word k n
  | putText k s => (fun _ => .done) <$> t.put .text k s
  | addInt k delta => .int <$> t.addInt k delta
  | addWord k delta => .word <$> t.addWord k delta
  | raise k candidate => .flag <$> t.raise k candidate
  | allocate name => .allocation <$> t.allocate name
  | dump panel kind order => .dump <$> t.dump panel kind order

end Access

end TrafficStore
