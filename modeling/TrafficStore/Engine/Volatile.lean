import TrafficStore.Clamp
import TrafficStore.Engine

namespace TrafficStore

structure Volatile where
  content : Content := .empty
  size : UInt64 := 0
  maxSize : UInt64
  lookups : SortedMap String Nat := .empty
  deriving DecidableEq

namespace Volatile

def lookupCount (e : Volatile) (table : String) : Nat := (e.lookups.find? table).getD 0

def countLookup (e : Volatile) (table : String) : Volatile :=
  { e with lookups := e.lookups.insert table (e.lookupCount table + 1) }

theorem lookupCount_countLookup (e : Volatile) (t q : String) :
    (e.countLookup t).lookupCount q = e.lookupCount q + if q = t then 1 else 0 := by
  rw [lookupCount, countLookup, SortedMap.find?_insert]
  by_cases hq : q = t
  · rw [if_pos hq, if_pos hq, hq]
    rfl
  · rw [if_neg hq, if_neg hq]
    rfl

def reading : Reading Volatile Content where
  find table key := ⟨fun s =>
    match s.1.find? table with
    | some t => (.ok (t.find? key), (s.1, s.2.countLookup table))
    | none => (.error (.unknownTable table), s)⟩
  count table := ⟨fun s =>
    match s.1.find? table with
    | some t => (.ok t.size, s)
    | none => (.error (.unknownTable table), s)⟩
  scan table := ⟨fun s =>
    match s.1.find? table with
    | some t => (.ok t.entries, s)
    | none => (.error (.unknownTable table), s)⟩

structure Writer where
  base : Content
  created : List String := []
  staged : Content := .empty
  added : UInt64 := 0
  deriving DecidableEq

namespace Writer

def has (w : Writer) (table : String) : Bool :=
  w.base.contains table || w.created.contains table

def baseTable (w : Writer) (table : String) : Table := (w.base.find? table).getD .empty

def stagedTable (w : Writer) (table : String) : Table := (w.staged.find? table).getD .empty

def find? (w : Writer) (table : String) (key : Bytes) : Option Bytes :=
  ((w.stagedTable table).find? key).or ((w.baseTable table).find? key)

def count (w : Writer) (table : String) : Nat :=
  (w.baseTable table).size +
    ((w.stagedTable table).keys.filter (fun k => ¬ (w.baseTable table).contains k)).length

def table (w : Writer) (table : String) : Table :=
  (w.baseTable table).merge (w.stagedTable table)

def recordSize (key value : Bytes) : UInt64 := UInt64.ofNat (key.length + value.length)

def stage (w : Writer) (table : String) (key value : Bytes) : Writer :=
  { w with
    staged := w.staged.insert table ((w.stagedTable table).insert key value)
    added := w.added + recordSize key value }

def createTable (c : Content) (table : String) : Content :=
  if c.contains table then c else c.insert table .empty

def mergeTable (c : Content) (t : String × Table) : Content :=
  c.insert t.1 (((c.find? t.1).getD .empty).merge t.2)

def outcome (w : Writer) : Content :=
  w.staged.entries.foldl mergeTable (w.created.foldl createTable w.base)

end Writer

def rereading : Reading Volatile Writer where
  find table key := ⟨fun s =>
    if s.1.has table then (.ok (s.1.find? table key), (s.1, s.2.countLookup table))
    else (.error (.unknownTable table), s)⟩
  count table := ⟨fun s =>
    if s.1.has table then (.ok (s.1.count table), s) else (.error (.unknownTable table), s)⟩
  scan table := ⟨fun s =>
    if s.1.has table then (.ok (s.1.table table).entries, s)
    else (.error (.unknownTable table), s)⟩

def create (table : String) : ScopeM Volatile Writer Unit := ⟨fun s =>
  if s.1.has table then (.ok (), s)
  else (.ok (), ({ s.1 with created := s.1.created ++ [table] }, s.2))⟩

def used (e : Volatile) (w : Writer) : UInt64 := e.size + w.added

def put (table : String) (key value : Bytes) : ScopeM Volatile Writer Unit := ⟨fun s =>
  if s.1.has table then
    if s.2.maxSize < addWord (s.2.used s.1) (Writer.recordSize key value) then
      (.error (.full (s.2.used s.1).toNat s.2.maxSize.toNat), s)
    else (.ok (), (s.1.stage table key value, s.2))
  else (.error (.unknownTable table), s)⟩

def commit (w : Writer) : EngineM Volatile Unit :=
  Work.update (fun e => { e with content := w.outcome, size := e.size + w.added })

end Volatile

instance : Engine Volatile where
  Reader := Content
  Writer := Volatile.Writer
  name := "memory"
  syncTakesWriter := false
  beginRead := ⟨fun e => (.ok e.content, e)⟩
  reading := Volatile.reading
  endRead _ := return ()
  beginWrite := ⟨fun e => (.ok { base := e.content }, e)⟩
  rereading := Volatile.rereading
  create := Volatile.create
  put := Volatile.put
  commit := Volatile.commit
  sync _ := return none
  restart e := e
  committed e := e.content

end TrafficStore
