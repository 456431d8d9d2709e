import TrafficStore.Form
import TrafficStore.Ingest

namespace TrafficStore

structure PanelOverview where
  panel : Panel
  items : Nat
  visitors : Nat
  deriving DecidableEq, Repr

structure Overview where
  requests : UInt64
  bytes : UInt64
  panels : List PanelOverview
  deriving DecidableEq, Repr

namespace PanelOverview

def toJson (o : PanelOverview) : Json :=
  .obj [("module", Form.panel.write o.panel), ("items", .int o.items),
    ("unique_visitors", .int o.visitors)]

end PanelOverview

namespace Overview

def toJson (o : Overview) : Json :=
  .obj [("total_requests", .int o.requests.toNat), ("bandwidth", .int o.bytes.toNat),
    ("modules", .arr (o.panels.map PanelOverview.toJson))]

variable {ε : Type} [Engine ε]

def ofPanels (c : Catalog) : List Panel → StoreM ε (List PanelOverview)
  | [] => return []
  | p :: ps => do
      let items ← c.labelCount p
      let visitors ← c.visitorCount p
      let rest ← ofPanels c ps
      return ⟨p, items, visitors⟩ :: rest

def take (c : Catalog) : StoreM ε Overview := do
  let panels ← ofPanels c c.panels
  return ⟨← c.stat totalRequests, ← c.stat totalBytes, panels⟩

end Overview

end TrafficStore
