import TrafficStore.Proofs.Apart
import TrafficStore.Proofs.Composing
import TrafficStore.Session

namespace TrafficStore

open ScopeViews

structure Metered (ε : Type) where
  inner : ε
  calls : Nat := 0

namespace Metered

variable {ε σ α : Type}

def counted (m : EngineM ε α) : EngineM (Metered ε) α := ⟨fun e =>
  let r := m.run e.inner
  (r.1, { inner := r.2, calls := e.calls + 1 })⟩

def countedIn (m : ScopeM ε σ α) : ScopeM (Metered ε) σ α := ⟨fun s =>
  let r := m.run (s.1, s.2.inner)
  (r.1, (r.2.1, { inner := r.2.2, calls := s.2.calls + 1 }))⟩

def countedReading (r : Reading ε σ) : Reading (Metered ε) σ where
  find table key := countedIn (r.find table key)
  count table := countedIn (r.count table)
  scan table := countedIn (r.scan table)

end Metered

instance {ε : Type} [Engine ε] : Engine (Metered ε) where
  Reader := Engine.Reader ε
  Writer := Engine.Writer ε
  name := Engine.name ε
  syncTakesWriter := Engine.syncTakesWriter ε
  beginRead := Metered.counted Engine.beginRead
  reading := Metered.countedReading Engine.reading
  endRead r := Metered.counted (Engine.endRead r)
  beginWrite := Metered.counted Engine.beginWrite
  rereading := Metered.countedReading Engine.rereading
  create table := Metered.countedIn (Engine.create table)
  put table key value := Metered.countedIn (Engine.put table key value)
  commit w := Metered.counted (Engine.commit w)
  sync force := Metered.counted (Engine.sync force)
  restart e := { e with inner := Engine.restart e.inner }
  committed e := Engine.committed e.inner

namespace Catalog

variable {cat cat' : Catalog} {t : TableId} {p : Panel}

theorem eq_ofPanels {ε : Type} [Engine ε] {ps : List Panel} {env env' : Environment ε}
    (h : (init ps).run env = (.ok cat, env')) : cat = ofPanels ps := by
  rw [init, Work.run_bind, Work.run_state] at h
  simp only at h
  split at h
  · cases h
  · rw [Work.run_bind] at h
    split at h
    · cases h
      rfl
    · cases h

theorem mem_panels_of_start {ε : Type} [Engine ε] {env : Environment ε} {ps? : Option (List Panel)}
    {s : Session ε} (h : Session.start env ps? = .ok s) :
    p ∈ s.catalog.panels ↔ ∃ ps, ps? = some ps ∧ p ∈ ps := by
  cases ps? with
  | none =>
      cases h
      simp [panels]
  | some ps =>
      cases hrun : (init ps).run env with
      | mk r env' =>
          simp only [Session.start, hrun] at h
          cases r with
          | error x => cases h
          | ok cat =>
              cases h
              rw [eq_ofPanels hrun, mem_panels_ofPanels]
              simp

end Catalog

namespace Call

variable {ε : Type} [Engine ε] {cat cat' : Catalog} {p : Panel}

theorem reports_of_table {q : Call} {t : TableId} {a : Access} (hq : q.access? = some (t, a))
    (h : cat.table? t = none) : Reports (q.run cat : StoreM ε Reply) q.notFound := by
  rcases q.run_cases ε with ⟨u, b, hq', hrun⟩ | ⟨p, rfl⟩ | ⟨p, id, rfl⟩ | ⟨force, rfl⟩
  · rw [hq'] at hq
    cases hq
    rw [hrun]
    exact Catalog.reports_onTable h _ _
  · cases hq
    refine Reports.map ?_ _
    rw [Catalog.dump, show cat.panelTable? p p.dumpPolicy.metric = none from h]
    exact (Reports.report _).bind (.pure none)
  · cases hq
  · cases hq

theorem reports_of_panel {q : Call} (hq : q.panel? = some p) (hp : p ∉ cat.panels) :
    Reports (q.run cat : StoreM ε Reply) q.notFound := by
  cases ha : q.access? with
  | some ta =>
      have ht : ta.1.panel? = some p := (panel?_of_access ha).symm.trans hq
      exact reports_of_table ha (Catalog.table?_eq_none ht hp)
  | none =>
      rcases cases_of_access_none ha with ⟨q, id, rfl⟩ | ⟨force, rfl⟩
      · cases hq
        refine Reports.map ?_ _
        rw [Catalog.rootLabel, show cat.panelTable? p .root = none from if_neg hp]
        exact .pure none
      · cases hq

def Within (p : Panel) (q : Call) : Prop := q.panel? = some p ∨ q.panel? = none

theorem run_congr {q : Call} (hq : q.Within p) (hp : p ∈ cat.panels) (hp' : p ∈ cat'.panels) :
    (q.run cat : StoreM ε Reply) = q.run cat' := by
  have htables : ∀ t : TableId, t.panel? = q.panel? → cat.table? t = cat'.table? t := by
    intro t ht
    rw [Within, ← ht] at hq
    rw [Catalog.table?_eq_some hq hp, Catalog.table?_eq_some hq hp']
  rcases q.run_cases ε with ⟨t, a, ha, hrun⟩ | ⟨q, rfl⟩ | ⟨q, id, rfl⟩ | ⟨force, rfl⟩
  · rw [hrun, hrun, Catalog.onTable, Catalog.onTable, htables t (panel?_of_access ha).symm]
  · have htable := htables (.panel q q.dumpPolicy.metric) rfl
    change cat.panelTable? q q.dumpPolicy.metric = cat'.panelTable? q q.dumpPolicy.metric at htable
    rw [run, run, Catalog.dump, Catalog.dump, htable]
  · have hroot : cat.panelTable? q .root = cat'.panelTable? q .root :=
      htables (.panel q .root) rfl
    have hlabels : cat.panelTable? q .rootMap = cat'.panelTable? q .rootMap :=
      htables (.panel q .rootMap) rfl
    rw [run, run, Catalog.rootLabel, Catalog.rootLabel, hroot, hlabels]
  · rfl

theorem runs_congr (hp : p ∈ cat.panels) (hp' : p ∈ cat'.panels) (qs : List Call) :
    (∀ q ∈ qs, q.Within p) → ∀ env : Environment ε, runs cat qs env = runs cat' qs env := by
  induction qs with
  | nil => exact fun _ env => rfl
  | cons q qs ih =>
      intro hqs env
      rw [runs, runs, run_congr (hqs q List.mem_cons_self) hp hp']
      rw [ih (fun q hq => hqs q (List.mem_cons_of_mem _ hq))]

def IgnoresOthers (ε : Type) [Engine ε] [ScopeViews ε] : Prop :=
  ∀ {cat cat' : Catalog} {p : Panel}, p ∈ cat.panels → p ∈ cat'.panels → ∀ qs : List Call,
    (∀ q ∈ qs, q.Within p) → ∀ {env env' : Environment ε}, SameTables env env' →
    (∀ a ∈ (runs cat qs env).1, ¬ Faults ε a.2) → (∀ a ∈ (runs cat' qs env').1, ¬ Faults ε a.2) →
    (runs cat qs env).1 = (runs cat' qs env').1 ∧
      SameTables (runs cat qs env).2 (runs cat' qs env').2

theorem ignoresOthers (ε : Type) [Engine ε] [IsolatedEngine ε] : IgnoresOthers ε := by
  intro cat cat' p hp hp' qs
  induction qs with
  | nil => exact fun _ _ _ h _ _ => ⟨rfl, h⟩
  | cons q qs ih =>
      intro hqs env env' h hfree hfree'
      have hserves : Serves (q.run cat' : StoreM ε Reply) (q.effect cat) := by
        rw [← run_congr (hqs q List.mem_cons_self) hp hp']
        exact q.serves cat
      rw [runs_cons] at hfree hfree' ⊢
      rcases Agree.of_serves (q.serves cat) hserves env env' h with hfail | hfail | ⟨hr, h'⟩
      · exact absurd hfail (hfree _ List.mem_cons_self)
      · exact absurd hfail (hfree' _ List.mem_cons_self)
      · obtain ⟨hanswers, hafter⟩ := ih (fun q hq => hqs q (List.mem_cons_of_mem _ hq)) h'
          (fun a ha => hfree a (List.mem_cons_of_mem _ ha))
          (fun a ha => hfree' a (List.mem_cons_of_mem _ ha))
        rw [runs_cons, hr, hanswers]
        exact ⟨rfl, hafter⟩

end Call

structure Inert (cat : Catalog) (q : Call) : Prop where
  reports : ∀ {ε : Type} [Engine ε], Reports (q.run cat : StoreM ε Reply) q.notFound
  uncounted : ∀ {ε : Type} [Engine ε] (env : Environment (Metered ε)),
    ((q.run cat).run env).2.engine.calls = env.engine.calls

theorem Inert.of_reports {cat : Catalog} {q : Call}
    (h : ∀ {ε : Type} [Engine ε], Reports (q.run cat : StoreM ε Reply) q.notFound) :
    Inert cat q where
  reports := h
  uncounted env := by
    obtain ⟨journal, hrun⟩ := h env
    rw [hrun]

theorem uncataloged_inert {δ : Type} [Database δ] [LawfulDatabase δ] :
    (∀ {cat : Catalog} {q : Call} {p : Panel}, q.panel? = some p → p ∉ cat.panels →
      Inert cat q) ∧
    (∀ {q : Call} {t : SharedTable} {a : Access}, q.access? = some (.shared t, a) →
      Inert .uninitialized q) ∧
    (∀ {ε : Type} [Engine ε] {env : Environment ε} {ps? : Option (List Panel)} {s : Session ε},
      Session.start env ps? = .ok s →
        ∀ p, p ∈ s.catalog.panels ↔ ∃ ps, ps? = some ps ∧ p ∈ ps) ∧
    (∀ (settings : Settings) (p : Panel), p ∈ settings.enabled ↔ p ∉ settings.ignored) ∧
    (∀ {ε : Type} [Engine ε] {cat cat' : Catalog} {p : Panel}, p ∈ cat.panels → p ∈ cat'.panels →
      ∀ qs, (∀ q ∈ qs, Call.Within p q) →
        ∀ env : Environment ε, Call.runs cat qs env = Call.runs cat' qs env) ∧
    Call.IgnoresOthers Volatile ∧ Call.IgnoresOthers (DatabaseEngine δ) :=
  ⟨fun hq hp => .of_reports (Call.reports_of_panel hq hp),
    fun hq => .of_reports (Call.reports_of_table hq rfl),
    fun h _ => Catalog.mem_panels_of_start h, fun _ _ => Settings.mem_enabled, Call.runs_congr,
    Call.ignoresOthers _, Call.ignoresOthers _⟩

end TrafficStore
