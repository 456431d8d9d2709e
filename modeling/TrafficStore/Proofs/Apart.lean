import TrafficStore.Proofs.Frame
import TrafficStore.Proofs.Room
import TrafficStore.Proofs.Engine.Durable
import TrafficStore.Proofs.Engine.Volatile

namespace TrafficStore

open ScopeViews

def AgreeOff (p : Panel) (c d : Content) : Prop :=
  ∀ t : TableId, t.panel? ≠ some p → c.find? t.name = d.find? t.name

namespace AgreeOff

variable {α : Type} {p : Panel} {c d : Content} {t : TableId}

theorem refl (p : Panel) (c : Content) : AgreeOff p c c := fun _ _ => rfl

theorem symm (h : AgreeOff p c d) : AgreeOff p d c := fun t ht => (h t ht).symm

theorem trans {e : Content} (h : AgreeOff p c d) (h' : AgreeOff p d e) : AgreeOff p c e :=
  fun t ht => (h t ht).trans (h' t ht)

theorem insert (h : AgreeOff p c d) (t : TableId) (table : Table) :
    AgreeOff p (c.insert t.name table) (d.insert t.name table) := by
  intro u hu
  rw [SortedMap.find?_insert, SortedMap.find?_insert, h u hu]

theorem insert_panel (ht : t.panel? = some p) (c : Content) (table : Table) :
    AgreeOff p c (c.insert t.name table) := by
  intro u hu
  rw [SortedMap.find?_insert, if_neg (fun he => ?_)]
  rw [TableId.name_injective he] at hu
  exact hu ht

theorem lookUp (h : AgreeOff p c d) (ht : t.panel? ≠ some p) (f : Format α) (k : Key) :
    t.lookUp f k c = t.lookUp f k d := by
  rw [TableId.lookUp, TableId.lookUp, h t ht]

def Kept (p : Panel) (f : Change α) : Prop := ∀ c d, AgreeOff p c d →
  (f.settle c).1 = (f.settle d).1 ∧ AgreeOff p (f.settle c).2 (f.settle d).2

theorem kept_look {g : Content → Except StorageError α} (h : ∀ c d, AgreeOff p c d → g c = g d) :
    Kept p (fun c => (g c).map (fun a => (a, c))) := by
  intro c d hcd
  rw [Change.settle, Change.settle, h c d hcd]
  cases g d with
  | error x => exact ⟨rfl, hcd⟩
  | ok a => exact ⟨rfl, hcd⟩

theorem kept_onRecords (ht : t.panel? ≠ some p) (cat : Catalog) (missing : α) (w : Rewrite α) :
    Kept p (cat.onRecords t missing w) := by
  intro c d h
  rw [Change.settle, Change.settle]
  by_cases hmem : t ∈ cat.tables
  · rw [Catalog.onRecords_mem hmem, Catalog.onRecords_mem hmem, TableId.onRecords,
      TableId.onRecords, h t ht]
    cases d.find? t.name with
    | none => exact ⟨rfl, h⟩
    | some table =>
        simp only
        cases w table with
        | error x => exact ⟨rfl, h⟩
        | ok a => exact ⟨rfl, h.insert t a.2⟩
  · rw [Catalog.onRecords_not_mem hmem, Catalog.onRecords_not_mem hmem]
    exact ⟨rfl, h⟩

theorem Kept.map {β : Type} {f : Change α} (h : Kept p f) (g : α → β) : Kept p (f.map g) := by
  intro c d hcd
  rw [Change.settle_map, Change.settle_map]
  exact ⟨congrArg (Except.map g) (h c d hcd).1, (h c d hcd).2⟩

theorem kept_rootLabel {q : Panel} (hq : some q ≠ some p) (cat : Catalog) (id : Int32) :
    Kept p (cat.rootLabelEffect q id) := by
  have hroot : (TableId.panel q .root).panel? ≠ some p := hq
  have hlabels : (TableId.panel q .rootMap).panel? ≠ some p := hq
  by_cases hmem : q ∈ cat.panels
  · rw [show cat.rootLabelEffect q id = _ from funext (fun _ => if_pos hmem)]
    refine kept_look (fun c d h => ?_)
    rw [Catalog.rootLabelOf, Catalog.rootLabelOf, h.lookUp hroot]
    simp only [h.lookUp hlabels]
  · rw [show cat.rootLabelEffect q id = _ from funext (fun _ => if_neg hmem)]
    exact fun c d h => ⟨rfl, h⟩

end AgreeOff

namespace Call

variable {p : Panel} {cat : Catalog} {q : Call} {c c' : Content} {r : Reply}

theorem agreeOff_effect (hq : q.panel? = some p) (h : q.effect cat c = .ok (r, c')) :
    AgreeOff p c c' := by
  cases ha : q.access? with
  | none =>
      rw [eq_of_access_none ha h]
      exact .refl p c
  | some ta =>
      have ht : ta.1.panel? = some p := (panel?_of_access ha).symm.trans hq
      rcases effect_access ha h with rfl | ⟨r', hr⟩
      · exact .refl p c'
      · obtain ⟨table, table', -, -, rfl⟩ := TableId.onRecords_ok hr
        exact .insert_panel ht c table'

theorem kept_effect (hq : q.panel? ≠ some p) (cat : Catalog) :
    AgreeOff.Kept p (q.effect cat) := by
  cases ha : q.access? with
  | none =>
      rcases cases_of_access_none ha with ⟨p', id, rfl⟩ | ⟨force, rfl⟩
      · exact (AgreeOff.kept_rootLabel hq cat id).map Reply.maybeText
      · exact fun c d h => ⟨rfl, h⟩
  | some ta =>
      rw [effect_eq ha]
      rw [panel?_of_access ha] at hq
      exact AgreeOff.kept_onRecords hq cat _ _

def runs {ε : Type} [Engine ε] (cat : Catalog) :
    List Call → Environment ε → List (Call × Except StorageError Reply) × Environment ε
  | [], env => ([], env)
  | q :: qs, env =>
      let o := (q.run cat).run env
      let os := runs cat qs o.2
      ((q, o.1) :: os.1, os.2)

theorem runs_cons {ε : Type} [Engine ε] (cat : Catalog) (q : Call) (qs : List Call)
    (env : Environment ε) : (runs cat (q :: qs) env).1 =
      (q, ((q.run cat).run env).1) :: (runs cat qs ((q.run cat).run env).2).1 := rfl

def off (p : Panel) (q : Call) : Bool := decide (q.panel? ≠ some p)

section Runs

variable {ε : Type} [Engine ε] [IsolatedEngine ε] {env env' : Environment ε}

theorem agreeOff_run (hq : q.off p = false) (hs : Sound env.engine) :
    AgreeOff p (Engine.committed env.engine) (Engine.committed ((q.run cat).run env).2.engine) := by
  rcases ((q.serves cat).moved hs rfl).2 with hc | ⟨r, hr⟩
  · rw [hc]
    exact .refl p _
  · refine agreeOff_effect ?_ hr
    simpa [off] using hq

theorem run_agreeOff (hq : q.off p = true) (hs : Sound env.engine) (hs' : Sound env'.engine)
    (h : AgreeOff p (Engine.committed env.engine) (Engine.committed env'.engine))
    (hfree : ¬ Faults ε ((q.run cat).run env).1) (hfree' : ¬ Faults ε ((q.run cat).run env').1) :
    ((q.run cat).run env).1 = ((q.run cat).run env').1 ∧
      AgreeOff p (Engine.committed ((q.run cat).run env).2.engine)
        (Engine.committed ((q.run cat).run env').2.engine) := by
  obtain ⟨r, e, hrun, -, -, hr⟩ := q.serves cat env hs
  obtain ⟨r', e', hrun', -, -, hr'⟩ := q.serves cat env' hs'
  rw [hrun] at hfree ⊢
  rw [hrun'] at hfree' ⊢
  have hsettle := hr.resolve_left (fun hf => hfree hf.1)
  have hsettle' := hr'.resolve_left (fun hf => hfree' hf.1)
  obtain ⟨hanswer, hafter⟩ := kept_effect (of_decide_eq_true hq) cat _ _ h
  rw [hsettle, hsettle'] at hanswer hafter
  exact ⟨hanswer, hafter⟩

theorem runs_off (p : Panel) (cat : Catalog) (qs : List Call) : ∀ {env env' : Environment ε},
    Sound env.engine → Sound env'.engine →
    AgreeOff p (Engine.committed env.engine) (Engine.committed env'.engine) →
    (∀ a ∈ (runs cat qs env).1, a.1.off p = true → ¬ Faults ε a.2) →
    (∀ a ∈ (runs cat (qs.filter (off p)) env').1, ¬ Faults ε a.2) →
    (runs cat qs env).1.filter (fun a => a.1.off p) =
      (runs cat (qs.filter (off p)) env').1 := by
  -- the calls of the panel change its tables only, and those off it answer alike on tables that
  -- agree off the panel
  induction qs with
  | nil => intro env env' _ _ _ _ _; rfl
  | cons q qs ih =>
      intro env env' hs hs' h hfree hfree'
      have hnext := (Leaves.call cat q).sound env hs
      rw [runs_cons] at hfree ⊢
      have hrest := fun a ha => hfree a (List.mem_cons_of_mem _ ha)
      cases hq : q.off p with
      | false =>
          rw [List.filter_cons_of_neg (by simp [hq])] at hfree' ⊢
          rw [List.filter_cons_of_neg (by simp [hq])]
          exact ih hnext hs' ((agreeOff_run hq hs).symm.trans h) hrest hfree'
      | true =>
          rw [List.filter_cons_of_pos hq] at hfree' ⊢
          rw [runs_cons] at hfree' ⊢
          obtain ⟨hanswer, hafter⟩ := run_agreeOff hq hs hs' h
            (hfree _ List.mem_cons_self hq) (hfree' _ List.mem_cons_self)
          rw [List.filter_cons_of_pos (by exact hq), hanswer]
          congr 1
          exact ih hnext ((Leaves.call cat q).sound env' hs') hafter hrest
            (fun a ha => hfree' a (List.mem_cons_of_mem _ ha))

end Runs

end Call

structure FrameRule (ε : Type) [Engine ε] [ScopeViews ε] : Prop where
  call : ∀ cat (q : Call), Leaves q.place? q.Idle (q.run cat : StoreM ε Reply)
  access : ∀ t (a : Access),
    Leaves (a.key?.map (fun k => (t, k))) (fun c => a.Idle t c) (a.run t : StoreM ε Reply)
  looks : ∀ (q : Call) c, q.writes = false → q.place? = none ∧ q.Idle c
  apart : ∀ p cat qs (env : Environment ε), Sound env.engine →
    (∀ a ∈ (Call.runs cat qs env).1, a.1.off p = true → ¬ Faults ε a.2) →
    (∀ a ∈ (Call.runs cat (qs.filter (Call.off p)) env).1, ¬ Faults ε a.2) →
    (Call.runs cat qs env).1.filter (fun a => a.1.off p) =
      (Call.runs cat (qs.filter (Call.off p)) env).1

theorem frameRule (ε : Type) [Engine ε] [IsolatedEngine ε] : FrameRule ε where
  call := Leaves.call
  access := Leaves.access
  looks q c hq := ⟨Call.place?_eq_none hq, q.idle_of_not_writes hq c⟩
  apart p cat qs _ hs := Call.runs_off p cat qs hs hs (.refl p _)

theorem calls_framed {δ : Type} [Database δ] [LawfulDatabase δ] :
    (∀ t u : TableId, t.name = u.name → t = u) ∧ FrameRule Volatile ∧
    FrameRule (DatabaseEngine δ) ∧
    ∀ cat (q : Call) (env : Environment Volatile), q.writes = false →
      ¬ Faults Volatile ((q.run cat).run env).1 := by
  refine ⟨fun t u => TableId.name_injective, frameRule _, frameRule _, ?_⟩
  rintro cat q env hq ⟨x, hx, hfull⟩
  have hroom := q.roomless_run cat hq env x hx
  exact Bool.noConfusion (hroom.symm.trans hfull)

end TrafficStore
