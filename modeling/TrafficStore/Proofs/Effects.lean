import TrafficStore.Proofs.Accesses

namespace TrafficStore

open ScopeViews

namespace Catalog

variable {α β : Type}

theorem panel_mem_tables {cat : Catalog} {p : Panel} {m : Metric} :
    TableId.panel p m ∈ cat.tables ↔ p ∈ cat.panels := by
  cases cat with
  | uninitialized => simp [tables, panels]
  | listing ps => simp [tables, panels, TableId.ofPanels, m.mem_all]

theorem table?_eq_ite (cat : Catalog) (t : TableId) :
    cat.table? t = if t ∈ cat.tables then some t else none := by
  cases t with
  | shared t =>
      cases cat with
      | uninitialized => rfl
      | listing ps =>
          have hmem : TableId.shared t ∈ (listing ps).tables :=
            List.mem_append_left _ (List.mem_map.2 ⟨t, t.mem_all, rfl⟩)
          rw [if_pos hmem]
          rfl
  | panel p m =>
      rw [table?, panelTable?]
      by_cases hp : p ∈ cat.panels
      · rw [if_pos hp, if_pos (panel_mem_tables.2 hp)]
      · rw [if_neg hp, if_neg (fun h => hp (panel_mem_tables.1 h))]

theorem table?_eq_none {cat : Catalog} {t : TableId} {p : Panel} (ht : t.panel? = some p) (hp : p ∉ cat.panels) : cat.table? t = none := by
  cases t with
  | shared t => cases ht
  | panel q m => cases ht; exact if_neg hp

theorem table?_eq_some {cat : Catalog} {t : TableId} {p : Panel} (ht : t.panel? = some p ∨ t.panel? = none) (hp : p ∈ cat.panels) :
    cat.table? t = some t := by
  cases t with
  | shared t =>
      cases cat with
      | uninitialized => cases hp
      | listing ps => rfl
  | panel q m =>
      rcases ht with ht | ht
      · cases ht
        exact if_pos hp
      · cases ht

theorem reports_reportMissing {ε : Type} (t : TableId) :
    Reports (reportMissing t : StoreM ε Unit) () := by
  cases t with
  | shared t => exact .pure ()
  | panel p m => exact .report _

theorem reports_onTable {ε : Type} {cat : Catalog} {t : TableId} (h : cat.table? t = none) (missing : α)
    (op : TableId → StoreM ε α) : Reports (cat.onTable t missing op) missing := by
  rw [onTable, h]
  exact (reports_reportMissing t).bind (.pure missing)

def rootLabelOf (root labels : TableId) (id : Int32) (c : Content) :
    Except StorageError (Option String) := do
  match ← root.lookUp .int (.id id) c with
  | some r => if r = 0 then return none else labels.lookUp .text (.id r) c
  | none => return none

def onRecords (cat : Catalog) (t : TableId) (missing : α) (w : Rewrite α) : Change α := fun c =>
  if t ∈ cat.tables then t.onRecords w c else .ok (missing, c)

variable {cat : Catalog} {t : TableId} {missing : α} {w : Rewrite α} {c : Content}

theorem onRecords_mem (h : t ∈ cat.tables) : cat.onRecords t missing w c = t.onRecords w c :=
  if_pos h

theorem onRecords_not_mem (h : t ∉ cat.tables) : cat.onRecords t missing w c = .ok (missing, c) :=
  if_neg h

theorem map_onRecords (g : α → β) (cat : Catalog) (t : TableId) (missing : α) (w : Rewrite α) :
    (cat.onRecords t missing w).map g = cat.onRecords t (g missing) (w.map g) := by
  funext c
  by_cases h : t ∈ cat.tables
  · rw [onRecords_mem h, ← TableId.map_onRecords, Change.map, Change.map, onRecords_mem h]
  · rw [onRecords_not_mem h, Change.map, onRecords_not_mem h]
    rfl

def rootLabelEffect (cat : Catalog) (p : Panel) (id : Int32) : Change (Option String) := fun c =>
  if p ∈ cat.panels then
    (rootLabelOf (.panel p .root) (.panel p .rootMap) id c).map (fun label => (label, c))
  else .ok (none, c)

variable {ε : Type} [Engine ε] [IsolatedEngine ε]

theorem serves_onTable {op : TableId → StoreM ε α} (h : Serves (op t) (t.onRecords w))
    (cat : Catalog) (missing : α) :
    Serves (cat.onTable t missing op) (cat.onRecords t missing w) := by
  rw [onTable, table?_eq_ite]
  by_cases ht : t ∈ cat.tables
  · rw [if_pos ht, show cat.onRecords t missing w = t.onRecords w from
      funext (fun _ => onRecords_mem ht)]
    exact h
  · rw [if_neg ht, show cat.onRecords t missing w = fun c => .ok (missing, c) from
      funext (fun _ => onRecords_not_mem ht)]
    exact serves_of_reports ((reports_reportMissing t).bind (.pure missing))

theorem serves_rootLabelIn (root labels : TableId) (id : Int32) :
    Serves (Environment.read (rootLabelIn root labels id) : StoreM ε (Option String))
      (fun c => (rootLabelOf root labels id c).map (fun label => (label, c))) := by
  refine serves_look (fun c => ?_)
  refine (TableId.computes_lookUp IsolatedEngine.reading_readsAs root .int (.id id) c).look ?_
  intro v
  cases v with
  | none => exact .pure _ _ _
  | some r =>
      by_cases h0 : r = 0
      · simp only [if_pos h0]
        exact .pure _ _ _
      · simp only [if_neg h0]
        exact TableId.computes_lookUp IsolatedEngine.reading_readsAs labels .text (.id r) c

theorem serves_rootLabel (cat : Catalog) (p : Panel) (id : Int32) :
    Serves (cat.rootLabel p id : StoreM ε (Option String)) (cat.rootLabelEffect p id) := by
  rw [rootLabel, panelTable?, panelTable?]
  by_cases hp : p ∈ cat.panels
  · rw [if_pos hp, if_pos hp, show cat.rootLabelEffect p id = _ from funext (fun _ => if_pos hp)]
    exact serves_rootLabelIn (.panel p .root) (.panel p .rootMap) id
  · rw [if_neg hp, if_neg hp, show cat.rootLabelEffect p id = _ from funext (fun _ => if_neg hp)]
    exact serves_of_reports (.pure none)

theorem serves_dump (cat : Catalog) (p : Panel) :
    Serves (cat.dump p : StoreM ε (Option Dump))
      (cat.onRecords (.panel p p.dumpPolicy.metric) none
        ((Rewrite.dump p.dumpPolicy.kind).map (fun items =>
          some ((⟨p, p.dumpPolicy.kind, items⟩ : Dump).sort p.dumpPolicy.order)))) := by
  rw [dump, panelTable?]
  by_cases hp : p ∈ cat.panels
  · have ht : TableId.panel p p.dumpPolicy.metric ∈ cat.tables := panel_mem_tables.2 hp
    rw [if_pos hp, show cat.onRecords _ none _ = _ from funext (fun _ => onRecords_mem ht),
      ← Rewrite.map_map some, ← TableId.map_onRecords]
    have hdump := (TableId.serves_dump (ε := ε) (.panel p p.dumpPolicy.metric) p p.dumpPolicy.kind
      p.dumpPolicy.order).reporting (fun d =>
        (Reports.report (.dumped p (TableId.panel p p.dumpPolicy.metric).name d.items.length)).bind
          (n := fun _ => _) (.pure (some d)))
    exact (serves_sync true).after (n := fun _ => _) hdump
  · have ht : TableId.panel p p.dumpPolicy.metric ∉ cat.tables :=
      fun h => hp (panel_mem_tables.1 h)
    rw [if_neg hp, show cat.onRecords _ none _ = _ from funext (fun _ => onRecords_not_mem ht)]
    exact serves_of_reports ((Reports.report (.dumpSkipped p)).bind (n := fun _ => _) (.pure none))

end Catalog

namespace Call

open Catalog

variable {cat : Catalog} {q : Call} {t : TableId} {a : Access} {c c' : Content} {r : Reply}

def effect (cat : Catalog) : Call → Change Reply
  | .rootLabel p id => (cat.rootLabelEffect p id).map .maybeText
  | q =>
      match q.access? with
      | some (t, a) => cat.onRecords t q.notFound ((a.rewrite t).map q.answered)
      | none => fun c => .ok (q.notFound, c)

theorem effect_eq (hq : q.access? = some (t, a)) (cat : Catalog) :
    q.effect cat = cat.onRecords t q.notFound ((a.rewrite t).map q.answered) := by
  cases q <;> cases hq <;> rfl

theorem serves {ε : Type} [Engine ε] [IsolatedEngine ε] (cat : Catalog) (q : Call) :
    Serves (q.run cat : StoreM ε Reply) (q.effect cat) := by
  rcases q.run_cases ε with ⟨t, a, hq, hrun⟩ | ⟨p, rfl⟩ | ⟨p, id, rfl⟩ | ⟨force, rfl⟩
  · rw [hrun, effect_eq hq]
    refine serves_onTable ?_ cat q.notFound
    rw [← TableId.map_onRecords]
    exact (a.serves t).map q.answered
  · have hdump := (serves_dump (ε := ε) cat p).map Reply.maybeDump
    rw [Catalog.map_onRecords, Rewrite.map_map] at hdump
    rw [effect_eq rfl, Access.rewrite, Rewrite.map_map]
    exact hdump
  · exact (serves_rootLabel cat p id).map Reply.maybeText
  · exact (serves_sync force).map reply

theorem effect_access (hq : q.access? = some (t, a)) (h : q.effect cat c = .ok (r, c')) :
    c' = c ∨ ∃ r', t.onRecords (a.rewrite t) c = .ok (r', c') := by
  rw [effect_eq hq] at h
  by_cases ht : t ∈ cat.tables
  · rw [onRecords_mem ht, ← TableId.map_onRecords, Change.map] at h
    cases hc : t.onRecords (a.rewrite t) c with
    | error x => rw [hc] at h; cases h
    | ok p => rw [hc] at h; cases h; exact .inr ⟨p.1, rfl⟩
  · rw [onRecords_not_mem ht] at h
    cases h
    exact .inl rfl

theorem eq_of_access_none (hq : q.access? = none) (h : q.effect cat c = .ok (r, c')) : c' = c := by
  rcases cases_of_access_none hq with ⟨p, id, rfl⟩ | ⟨force, rfl⟩
  · rw [effect, Change.map, rootLabelEffect] at h
    by_cases hp : p ∈ cat.panels
    · rw [if_pos hp] at h
      cases hlabel : rootLabelOf (.panel p .root) (.panel p .rootMap) id c with
      | error x => rw [hlabel] at h; cases h
      | ok label => rw [hlabel] at h; cases h; rfl
    · rw [if_neg hp] at h
      cases h
      rfl
  · cases h
    rfl

theorem contains_effect (h : q.effect cat c = .ok (r, c')) (name : String) :
    c'.contains name = c.contains name := by
  cases hq : q.access? with
  | none => rw [eq_of_access_none hq h]
  | some ta =>
      rcases effect_access hq h with rfl | ⟨r', hr⟩
      · rfl
      · obtain ⟨table, table', hc, -, rfl⟩ := TableId.onRecords_ok hr
        exact SortedMap.contains_insert_of_find? hc name

end Call

end TrafficStore
