import TrafficStore.Environment
import TrafficStore.TableId

namespace TrafficStore

inductive Look : Type → Type 1
  | find (t : TableId) (key : Bytes) : Look (Option Bytes)
  | count (t : TableId) : Look Nat
  | scan (t : TableId) : Look (List (Bytes × Bytes))

inductive Deed : Type → Type 1
  | look {β : Type} (l : Look β) : Deed β
  | create (t : TableId) : Deed Unit
  | put (t : TableId) (key value : Bytes) : Deed Unit

inductive Procedure (Op : Type → Type 1) (α : Type) : Type 1
  | done (r : Except StorageError α)
  | ask {β : Type} (op : Op β) (next : Except StorageError β → Procedure Op α)

namespace Look

variable {ε σ β : Type}

def through (r : Reading ε σ) : Look β → ScopeM ε σ β
  | find t key => r.find t.name key
  | count t => r.count t.name
  | scan t => r.scan t.name

end Look

namespace Deed

variable {ε β : Type} [Engine ε]

def inWriter : Deed β → ScopeM ε (Engine.Writer ε) β
  | look l => l.through Engine.rereading
  | create t => Engine.create t.name
  | put t key value => Engine.put t.name key value

end Deed

namespace Procedure

variable {Op : Type → Type 1} {ς α : Type}

def run (handle : ∀ {β : Type}, Op β → Work ς StorageError β) :
    Procedure Op α → Work ς StorageError α
  | done r => Work.ofExcept r
  | ask op next => ⟨fun s =>
      let o := (handle op).run s
      ((next o.1).run handle).run o.2⟩

variable {ε : Type} [Engine ε]

def inReader (p : Procedure Look α) : ScopeM ε (Engine.Reader ε) α :=
  p.run (Look.through Engine.reading)

def inWriter (p : Procedure Deed α) : ScopeM ε (Engine.Writer ε) α := p.run Deed.inWriter

end Procedure

end TrafficStore
