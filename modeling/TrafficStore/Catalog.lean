import TrafficStore.Environment

namespace TrafficStore

inductive Catalog where
  | uninitialized
  | listing (panels : List Panel)
  deriving DecidableEq, Repr

namespace Catalog

def ofPanels (ps : List Panel) : Catalog := .listing (Panel.all.filter (fun p => p ∈ ps))

def panels : Catalog → List Panel
  | uninitialized => []
  | listing ps => ps

def isInitialized : Catalog → Bool
  | uninitialized => false
  | listing _ => true

def tables : Catalog → List TableId
  | uninitialized => []
  | listing ps => TableId.ofPanels ps

def size (c : Catalog) : Nat := c.tables.length

def isEmpty (c : Catalog) : Bool := c.size = 0

def panelTable? (c : Catalog) (p : Panel) (m : Metric) : Option TableId :=
  if p ∈ c.panels then some (.panel p m) else none

def sharedTable? (c : Catalog) (t : SharedTable) : Option TableId :=
  if c.isInitialized then some (.shared t) else none

def table? (c : Catalog) : TableId → Option TableId
  | .shared t => c.sharedTable? t
  | .panel p m => c.panelTable? p m

def require (c : Catalog) (p : Panel) (m : Metric) : Except StorageError TableId :=
  match c.panelTable? p m with
  | some t => .ok t
  | none => .error (.unknownTable (TableId.panel p m).name)

theorem mem_panels_ofPanels {ps : List Panel} {p : Panel} : p ∈ (ofPanels ps).panels ↔ p ∈ ps := by
  simp [ofPanels, panels, Panel.mem_all]

theorem size_listing (ps : List Panel) : (listing ps).size = 5 + 14 * ps.length :=
  TableId.length_ofPanels ps

variable {ε : Type} [Engine ε]

def createTables : List TableId → ScopeM ε (Engine.Writer ε) Unit
  | [] => return ()
  | t :: ts => do
      Engine.create t.name
      createTables ts

/-- A panel listed twice counts twice against the limit. -/
def init (ps : List Panel) : StoreM ε Catalog := do
  let tables := TableId.ofPanels ps
  let env ← Work.state
  if env.settings.maxTables < tables.length then
    Work.fail (.tableLimit tables.length env.settings.maxTables)
  else
    Environment.write (createTables tables)
    Environment.report (.catalogReady (ofPanels ps).size (ofPanels ps).panels.length)
    return ofPanels ps

end Catalog

end TrafficStore
