import TrafficStore.Proofs.Runs
import TrafficStore.Proofs.Stock

namespace TrafficStore

open ScopeViews Books

def Catalog.initAll {ε : Type} [Engine ε] : List (List Panel) → StoreM ε Unit
  | [] => return ()
  | ps :: pss => do
      let _ ← init ps
      initAll pss

theorem stocked_initAll {ε : Type} [Engine ε] [IsolatedEngine ε] {ts : List TableId}
    {env env' : Environment ε} (hs : Sound env.engine)
    (h : Stocked ts (Engine.committed env.engine)) {pss : List (List Panel)}
    (hrun : (Catalog.initAll pss).run env = (.ok (), env')) :
    Stocked (ts ++ pss.flatMap TableId.ofPanels) (Engine.committed env'.engine) ∧
      ∀ ps ∈ pss, (TableId.ofPanels ps).length ≤ env.settings.maxTables := by
  induction pss generalizing ts env with
  | nil =>
      cases hrun
      rw [List.flatMap_nil, List.append_nil]
      exact ⟨h, fun ps hps => nomatch hps⟩
  | cons ps pss ih =>
      rw [Catalog.initAll, Work.run_bind] at hrun
      cases hinit : (Catalog.init ps).run env with
      | mk r env₁ =>
          rw [hinit] at hrun
          cases r with
          | error x => cases hrun
          | ok cat =>
              obtain ⟨_, hlimit, hs₁, hset, hc⟩ := Books.init_ok hs hinit
              have hstocked : Stocked (ts ++ TableId.ofPanels ps)
                  (Engine.committed env₁.engine) := by
                rw [hc]
                exact h.withTables _
              obtain ⟨hrest, hlimits⟩ := ih hs₁ hstocked hrun
              rw [List.append_assoc] at hrest
              refine ⟨by rw [List.flatMap_cons]; exact hrest, fun qs hqs => ?_⟩
              rcases List.mem_cons.1 hqs with rfl | hqs
              · exact hlimit
              · exact hset ▸ hlimits qs hqs

theorem stocked_history {δ : Type} [Database δ] [LawfulDatabase δ] {ts : List TableId} {d : δ}
    (h : Stocked ts (Database.content d)) {os : List Opening}
    (hok : ∀ r ∈ (history d os).1, r.isOk = true) :
    Stocked (ts ++ os.flatMap (fun o => TableId.ofPanels o.panels))
        (Database.content (history d os).2) ∧
      ∀ o ∈ os, (TableId.ofPanels o.panels).length ≤ o.settings.maxTables := by
  induction os generalizing ts d with
  | nil =>
      rw [List.flatMap_nil, List.append_nil]
      exact ⟨h, fun o ho => nomatch ho⟩
  | cons o os ih =>
      have hkeeps : Lasting (DatabaseEngine δ) (Stocked (ts ++ TableId.ofPanels o.panels))
          (fun _ => True) :=
        { replied := fun hstocked _ he =>
            ⟨fun name => by rw [Call.contains_effect he]; exact hstocked name, trivial⟩
          refused := fun _ _ _ => trivial
          faulted := fun _ _ => trivial }
      have hhead : (o.spend d).1.isOk = true := hok _ List.mem_cons_self
      cases hr : (o.spend d).1 with
      | error x => rw [hr] at hhead; cases hhead
      | ok as =>
          have hspent := (hkeeps.spend (h.withTables _) hr).1
          obtain ⟨hrest, hlimits⟩ := ih hspent (fun r hr => hok r (List.mem_cons_of_mem _ hr))
          rw [List.append_assoc] at hrest
          refine ⟨by rw [List.flatMap_cons]; exact hrest, fun q hq => ?_⟩
          rcases List.mem_cons.1 hq with rfl | hq
          · exact (Opening.spend_ok hr).1
          · exact hlimits q hq

theorem size_of_lists {ε : Type} [Engine ε] [IsolatedEngine ε] {env : Environment ε}
    (hs : Sound env.engine) (hempty : Engine.committed env.engine = .empty)
    {pss : List (List Panel)} (hpss : pss ≠ [])
    (hmade : ((Catalog.initAll pss).run env).1.isOk = true)
    {δ : Type} [Database δ] [LawfulDatabase δ] {d : δ} (hd : Database.content d = .empty)
    {os : List Opening} (hos : os ≠ []) (hopened : ∀ r ∈ (history d os).1, r.isOk = true) :
    ((∀ ps ∈ pss, (TableId.ofPanels ps).length ≤ env.settings.maxTables) ∧
      (Engine.committed ((Catalog.initAll pss).run env).2.engine).size =
        (Catalog.ofPanels (pss.flatMap id)).size) ∧
    (∀ o ∈ os, (TableId.ofPanels o.panels).length ≤ o.settings.maxTables) ∧
      (Database.content (history d os).2).size =
        (Catalog.ofPanels (os.flatMap Opening.panels)).size := by
  have hnone : Stocked [] (Engine.committed env.engine) := by
    rw [hempty]
    exact .empty
  have hnone' : Stocked [] (Database.content d) := by
    rw [hd]
    exact .empty
  obtain ⟨hstocked', hlimits'⟩ := stocked_history hnone' hopened
  refine ⟨?_, hlimits', hstocked'.size_flatMap hos⟩
  cases hrun : (Catalog.initAll pss).run env with
  | mk r env' =>
      rw [hrun] at hmade
      cases r with
      | error x => cases hmade
      | ok u =>
          obtain ⟨hstocked, hlimits⟩ := stocked_initAll hs hnone hrun
          exact ⟨hlimits, hstocked.size_flatMap hpss⟩

def otherPanelsEachTime : List Opening :=
  [{ settings := { maxTables := 19 }, panels := [.visitors] },
    { settings := { maxTables := 19 }, panels := [.hosts] }]

theorem opened_otherPanelsEachTime :
    ∀ r ∈ (history ({} : TableFile) otherPanelsEachTime).1, r.isOk = true := by
  decide +kernel

theorem size_of_lists_otherPanelsEachTime :
    (∀ o ∈ otherPanelsEachTime, (TableId.ofPanels o.panels).length ≤ o.settings.maxTables) ∧
    (Database.content (history ({} : TableFile) otherPanelsEachTime).2).size =
      (Catalog.ofPanels [.visitors, .hosts]).size := by
  have hs : Sound (Environment.volatile { maxTables := 19 }).engine := trivial
  exact (size_of_lists hs rfl (List.cons_ne_nil [.os] []) (by decide +kernel)
    (d := ({} : TableFile)) rfl (List.cons_ne_nil _ _) opened_otherPanelsEachTime).2

def visitorsOnly : Opening where
  settings := { maxTables := 19, ignored := Panel.all.filter (· ≠ .visitors) }

theorem limit_passed :
    (visitorsOnly.volatile.toOption.map (fun s =>
      let r := s.run [.recatalog [.hosts]]
      (r.1, r.2.environment.settings.maxTables, r.2.environment.engine.content.size))) =
        some ([.catalog (.ofPanels [.hosts])], 19, 33) ∧
    (∀ o ∈ otherPanelsEachTime, o.settings.maxTables = 19) ∧
    (∀ r ∈ (history ({} : TableFile) otherPanelsEachTime).1, r.isOk = true) ∧
    (Database.content (history ({} : TableFile) otherPanelsEachTime).2).size = 33 :=
  ⟨by decide +kernel, by decide, opened_otherPanelsEachTime, by decide +kernel⟩

end TrafficStore
