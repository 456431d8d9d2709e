import TrafficStore.Call
import TrafficStore.Ingest

namespace TrafficStore

namespace Ingest

inductive Part where
  | label
  | hit
  | bytes
  | request
  | total
  deriving DecidableEq, Repr

namespace Part

def all : List Part := [label, hit, bytes, request, total]

def call (r : LogRecord) (id : Int32) : Part → Call
  | label => .putLabel r.panel id r.key
  | hit => .addHits r.panel id 1
  | bytes => .addBandwidth r.panel id r.bytes
  | request => .addStat totalRequests 1
  | total => .addStat totalBytes r.bytes

end Part

inductive Place where
  | between (number counted : Nat) (rest : List Bytes)
  | inside (r : LogRecord) (id : Int32) (left : List Part) (number counted : Nat)
      (rest : List Bytes)
  | ended (midLine : Bool) (result : Except IngestFault Nat)

namespace Place

def start (input : Bytes) : Place := between 1 0 (Text.lines input)

def midLine : Place → Bool
  | between _ _ _ => false
  | inside _ _ left _ _ _ => !left.isEmpty
  | ended mid _ => mid

def stops (place : Place) : Nat := if place.midLine then 1 else 0

variable {ε : Type} [Engine ε]

def step (c : Catalog) : Place → Environment ε → Place × Environment ε
  | between _ counted [], env =>
      match (Environment.sync true).run env with
      | (.ok _, env) => (ended false (.ok counted), env)
      | (.error x, env) => (ended false (.error (.storage x)), env)
  | between number counted (l :: ls), env =>
      match readLine number l with
      | .error x => (ended false (.error x), env)
      | .ok none => (between (number + 1) counted ls, env)
      | .ok (some r) =>
          match (c.assignKey r.panel r.key).run env with
          | (.ok none, env) => (between (number + 1) counted ls, env)
          | (.ok (some id), env) => (inside r id Part.all number counted ls, env)
          | (.error x, env) => (ended false (.error (.storage x)), env)
  | inside _ _ [] number counted ls, env => (between (number + 1) (counted + 1) ls, env)
  | inside r id (part :: left) number counted ls, env =>
      match ((part.call r id).run c).run env with
      | (.ok _, env) => (inside r id left number counted ls, env)
      | (.error x, env) => (ended true (.error (.storage x)), env)
  | ended mid result, env => (ended mid result, env)

def go (c : Catalog) : Nat → Place × Environment ε → Place × Environment ε
  | 0, now => now
  | n + 1, now => go c n (now.1.step c now.2)

end Place

end Ingest

end TrafficStore
