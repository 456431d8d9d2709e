import TrafficStore.Proofs.Gauges
import TrafficStore.Proofs.Requests

namespace TrafficStore

open ScopeViews

def Links (record : Option Bytes) (r : Int32) : Prop :=
  ∃ bs, record = some bs ∧ CellKind.int.Reads bs (.ok r)

namespace Links

variable {record : Option Bytes} {r r' : Int32}

theorem read_eq (h : Links record r) : Format.int.read record = .ok (some r) := by
  obtain ⟨bs, rfl, hbs⟩ := h
  rw [Format.read, show Format.int.decode bs = .ok r from CellKind.reads_iff.1 hbs]
  rfl

theorem unique (h : Links record r) (h' : Links record r') : r = r' :=
  Option.some.inj (Except.ok.inj (h.read_eq.symm.trans h'.read_eq))

theorem cases (record : Option Bytes) : record = none ∨ (∃ r, Links record r) ∨
    ∃ bs, record = some bs ∧ bs.length ≠ 4 := by
  cases record with
  | none => exact .inl rfl
  | some bs =>
      rcases Format.decode_int_cases bs with ⟨r, hr⟩ | ⟨hw, -⟩
      · exact .inr (.inl ⟨r, bs, rfl, CellKind.reads_iff.2 hr⟩)
      · exact .inr (.inr ⟨bs, rfl, hw⟩)

end Links

inductive RootLabel (record : Option Bytes) (labels : Table) :
    Except StorageError (Option String) → Prop
  | absent : record = none → RootLabel record labels (.ok none)
  | zero : Links record 0 → RootLabel record labels (.ok none)
  | dangling {r : Int32} : Links record r → r ≠ 0 → labels.find? (Key.id r).bytes = none →
      RootLabel record labels (.ok none)
  | labelled {r : Int32} {bs : Bytes} {s : String} : Links record r → r ≠ 0 →
      labels.find? (Key.id r).bytes = some bs → CellKind.text.Reads bs (.ok s) →
      RootLabel record labels (.ok (some s))
  | mislabelled {r : Int32} {bs : Bytes} {f : FormatFault} : Links record r → r ≠ 0 →
      labels.find? (Key.id r).bytes = some bs → CellKind.text.Reads bs (.error f) →
      RootLabel record labels (.error (.corrupt f))
  | corrupt {bs : Bytes} : record = some bs → bs.length ≠ 4 →
      RootLabel record labels (.error (.corrupt (.width 4 bs.length)))

namespace RootLabel

variable {record : Option Bytes} {labels : Table} {x y : Except StorageError (Option String)}

def answer (record : Option Bytes) (labels : Table) : Except StorageError (Option String) :=
  (Format.int.read record).bind (fun root =>
    match root with
    | some r => if r = 0 then .ok none else Format.text.read (labels.find? (Key.id r).bytes)
    | none => .ok none)

theorem answer_of_links {r : Int32} (h : Links record r) : answer record labels =
    if r = 0 then .ok none else Format.text.read (labels.find? (Key.id r).bytes) := by
  rw [answer, h.read_eq]
  rfl

theorem tells (record : Option Bytes) (labels : Table) :
    RootLabel record labels (answer record labels) := by
  rcases Links.cases record with rfl | ⟨r, hr⟩ | ⟨bs, rfl, hw⟩
  · exact .absent rfl
  · rw [answer_of_links hr]
    by_cases h0 : r = 0
    · subst h0
      exact .zero hr
    · rw [if_neg h0]
      cases hl : labels.find? (Key.id r).bytes with
      | none => exact .dangling hr h0 hl
      | some bs =>
          rw [Format.read]
          cases hd : Format.text.decode bs with
          | ok s => exact .labelled hr h0 hl (CellKind.reads_iff.2 hd)
          | error f => exact .mislabelled hr h0 hl (CellKind.reads_iff.2 hd)
  · rw [answer, Format.int_read_of_width hw]
    exact .corrupt rfl hw

theorem answer_eq (h : RootLabel record labels x) : answer record labels = x := by
  cases h with
  | absent h =>
      subst h
      rfl
  | zero h => rw [answer_of_links h, if_pos rfl]
  | dangling h h0 hl =>
      rw [answer_of_links h, if_neg h0, hl]
      rfl
  | labelled h h0 hl hs =>
      rw [answer_of_links h, if_neg h0, hl, Format.read,
        show Format.text.decode _ = _ from CellKind.reads_iff.1 hs]
      rfl
  | mislabelled h h0 hl hf =>
      rw [answer_of_links h, if_neg h0, hl, Format.read,
        show Format.text.decode _ = _ from CellKind.reads_iff.1 hf]
      rfl
  | corrupt h hw =>
      subst h
      rw [answer, Format.int_read_of_width hw]
      rfl

theorem unique (h : RootLabel record labels x) (h' : RootLabel record labels y) : x = y :=
  h.answer_eq.symm.trans h'.answer_eq

end RootLabel

namespace Catalog

variable {root labels : TableId} {c : Content} {roots texts : Table}

theorem rootLabelOf_eq (hroots : c.find? root.name = some roots)
    (htexts : c.find? labels.name = some texts) (k : Int32) :
    rootLabelOf root labels k c = RootLabel.answer (roots.find? (Key.id k).bytes) texts := by
  rw [rootLabelOf, TableId.lookUp_some hroots, RootLabel.answer, Rewrite.field]
  cases Format.int.read (roots.find? (Key.id k).bytes) with
  | error x => rfl
  | ok v =>
      cases v with
      | none => rfl
      | some r =>
          change (if r = 0 then _ else _) = if r = 0 then _ else _
          rw [TableId.lookUp_some htexts]
          rfl

variable {ε : Type} [Engine ε]

theorem rootLabel_eq_read {cat : Catalog} {p : Panel} (hp : p ∈ cat.panels) (k : Int32) :
    (cat.rootLabel p k : StoreM ε (Option String)) =
      Environment.read (rootLabelIn (.panel p .root) (.panel p .rootMap) k) := by
  rw [rootLabel, panelTable?, panelTable?, if_pos hp, if_pos hp]

def rootLabelAmid (others : ε → ε) (root labels : TableId) (k : Int32) (s : Engine.Reader ε)
    (e : ε) : Except StorageError (Option String) :=
  match (root.field Engine.reading .int (.id k)).run (s, e) with
  | (.ok (some r), s) =>
      if r = 0 then .ok none
      else ((labels.field Engine.reading .text (.id r)).run (s.1, others s.2)).1
  | (.ok none, _) => .ok none
  | (.error x, _) => .error x

theorem rootLabelAmid_id (root labels : TableId) (k : Int32) (s : Engine.Reader ε) (e : ε) :
    rootLabelAmid id root labels k s e = ((rootLabelIn root labels k).run (s, e)).1 := by
  rw [rootLabelAmid, rootLabelIn, Work.run_bind]
  cases (root.field Engine.reading .int (.id k)).run (s, e) with
  | mk v s =>
      cases v with
      | error x => rfl
      | ok v =>
          cases v with
          | none => rfl
          | some r =>
              by_cases h0 : r = 0
              · simp only [if_pos h0]
                rfl
              · simp only [if_neg h0]
                rfl

variable [IsolatedEngine ε] {env : Environment ε}

theorem settle_rootLabelIn (root labels : TableId) (k : Int32) (hs : Sound env.engine) :
    let o := (Environment.read (rootLabelIn root labels k) : StoreM ε (Option String)).run env
    (Faults ε o.1 ∨ o.1 = rootLabelOf root labels k (Engine.committed env.engine)) ∧
      Engine.committed o.2.engine = Engine.committed env.engine := by
  obtain ⟨r, env', hrun, -, -, hr⟩ :=
    Catalog.serves_rootLabelIn (ε := ε) root labels k env hs
  rw [hrun]
  rcases hr with ⟨hfault, hc⟩ | hr
  · exact ⟨.inl hfault, hc⟩
  · rw [Change.settle_look] at hr
    obtain ⟨hr, hc⟩ := Prod.mk.inj hr
    exact ⟨.inr hr.symm, hc.symm⟩

theorem rootLabelAmid_tells {others : ε → ε} (hothers : ∀ e, Sound e → Sound (others e))
    {s : Engine.Reader ε} {e : ε} (hs : Sound e) (hroots : (seen s).find? root.name = some roots)
    (htexts : (seen s).find? labels.name = some texts) (k : Int32) :
    Faults ε (rootLabelAmid others root labels k s e) ∨
      RootLabel (roots.find? (Key.id k).bytes) texts (rootLabelAmid others root labels k s e) := by
  have htells := RootLabel.tells (roots.find? (Key.id k).bytes) texts
  obtain ⟨v, s', e', hrun, hk, hv⟩ := (TableId.computes_field IsolatedEngine.reading_readsAs
    hroots .int (.id k)) s e hs trivial rfl
  rw [rootLabelAmid, hrun]
  rcases hv with ⟨x, rfl, hx⟩ | ⟨rfl, hseen, -⟩
  · exact .inl ⟨x, rfl, hx⟩
  rw [RootLabel.answer] at htells
  rw [Rewrite.field]
  cases hread : Format.int.read (roots.find? (Key.id k).bytes) with
  | error x =>
      rw [hread] at htells
      exact .inr htells
  | ok v =>
      rw [hread] at htells
      cases v with
      | none => exact .inr htells
      | some r =>
          simp only [Except.bind] at htells ⊢
          by_cases h0 : r = 0
          · rw [if_pos h0] at htells ⊢
            exact .inr htells
          · rw [if_neg h0] at htells ⊢
            -- the others have been at the engine, but what the reader sees is its own
            obtain ⟨w, s₂, e₂, hrun₂, -, hw⟩ := (TableId.computes_field
              IsolatedEngine.reading_readsAs htexts .text (.id r)) s' (others e')
              (hothers e' (hk.sound hs)) trivial hseen
            rw [hrun₂]
            rcases hw with ⟨x, rfl, hx⟩ | ⟨rfl, -, -⟩
            · exact .inl ⟨x, rfl, hx⟩
            · exact .inr htells

theorem run_rootLabelIn_congr (hs : Sound env.engine)
    (hroots : (Engine.committed env.engine).find? root.name = some roots) {k : Int32}
    (h : ∀ r, Links (roots.find? (Key.id k).bytes) r → r = 0) (labels labels' : TableId) :
    (Environment.read (rootLabelIn root labels k) : StoreM ε (Option String)).run env =
      (Environment.read (rootLabelIn root labels' k)).run env := by
  obtain ⟨v, e, hbegin, hk, hv⟩ := IsolatedEngine.beginRead_eq env.engine hs
  have hread : (Environment.transactionRead (rootLabelIn root labels k)).run env.engine =
      (Environment.transactionRead (rootLabelIn root labels' k)).run env.engine := by
    rw [Environment.transactionRead, Environment.transactionRead, Work.run_bind, Work.run_bind,
      hbegin]
    rcases hv with ⟨x, rfl, -⟩ | ⟨s, rfl, hseen⟩
    · rfl
    have hlook : (rootLabelIn root labels k).run (s, e) =
        (rootLabelIn root labels' k).run (s, e) := by
      obtain ⟨v, s', e', hrun, -, hv⟩ := (TableId.computes_field IsolatedEngine.reading_readsAs
        hroots .int (.id k)) s e (hk.sound hs) trivial hseen
      rw [rootLabelIn, rootLabelIn, Work.run_bind, Work.run_bind, hrun]
      rcases hv with ⟨x, rfl, -⟩ | ⟨rfl, -, -⟩
      · rfl
      · rw [Rewrite.field]
        rcases Links.cases (roots.find? (Key.id k).bytes) with hr | ⟨r, hr⟩ | ⟨bs, hr, hw⟩
        · rw [hr]
          rfl
        · rw [hr.read_eq, h r hr]
          rfl
        · rw [hr, Format.int_read_of_width hw]
    simp only [Work.run_bind, Environment.inScope, hlook]
  rw [Environment.read, Environment.read, Environment.onEngine, Environment.onEngine,
    Work.run_within, Work.run_within, hread]

end Catalog

theorem Call.record?_put {α : Type} {cat : Catalog} {q : Call} {t : TableId} {a : Access}
    {f : Format α} {k : Key} {v : α} {y : Reply} {c c' : Content} (hq : q.access? = some (t, a))
    (ha : a.rewrite t = (Rewrite.put f k v).map (fun _ => .done)) (ht : t ∈ cat.tables)
    (h : q.effect cat c = .ok (y, c')) : c'.record? t.name k.bytes = some (f.encode v) := by
  rw [Call.effect_eq hq, ha, Catalog.onRecords_mem ht] at h
  obtain ⟨table, table', -, hput, rfl⟩ := TableId.onRecords_ok h
  cases hput
  rw [Content.record?, SortedMap.find?_insert, if_pos rfl, Option.bind_some,
    SortedMap.find?_insert, if_pos rfl]

namespace Request

variable {ε : Type} [Engine ε]

def after : List Request → Environment ε → Environment ε
  | [], env => env
  | r :: rs, env => after rs (r.run.run env).2

theorem after_append (rs qs : List Request) (env : Environment ε) :
    after (rs ++ qs) env = after qs (after rs env) := by
  induction rs generalizing env with
  | nil => rfl
  | cons r rs ih => exact ih _

def Writes (t : TableId) (key : Bytes) (r : Request) (env : Environment ε) : Prop :=
  ∃ x a k, (r.run.run env).1 = .ok x ∧ r.access? = some (t, a) ∧ t ∈ r.tables ∧
    a.key? = some k ∧ k.bytes = key ∧ ¬ a.Idle t (Engine.committed env.engine)

def Spared (t : TableId) (key : Bytes) : List Request → Environment ε → Prop
  | [], _ => True
  | r :: rs, env => ¬ r.Writes t key env ∧ Spared t key rs (r.run.run env).2

inductive Stands (put : Request) (t : TableId) (k : Key) (rs : List Request)
    (env : Environment ε) : Prop
  | mk {before later : List Request} : rs = before ++ put :: later →
      (put.run.run (after before env)).1 = .ok .done →
      Spared t k.bytes later (put.run.run (after before env)).2 → Stands put t k rs env

variable [IsolatedEngine ε] {r : Request} {env : Environment ε} {t : TableId} {key : Bytes}

theorem sound_after (rs : List Request) (hs : Sound env.engine) : Sound (after rs env).engine := by
  induction rs generalizing env with
  | nil => exact hs
  | cons r rs ih => exact ih (r.sound_run hs)

theorem eq_of_effect_access_none {c c' : Content} {x : Reply} (ha : r.access? = none)
    (h : r.effect c = .ok (x, c')) : c' = c := by
  cases r with
  | call cat q => exact Call.eq_of_access_none ha h
  | access t a => cases ha

theorem record?_run (hs : Sound env.engine) (h : ¬ r.Writes t key env) :
    (Engine.committed (r.run.run env).2.engine).record? t.name key =
      (Engine.committed env.engine).record? t.name key := by
  cases hrun : r.run.run env with
  | mk x env' =>
      cases x with
      | error x => rw [(r.serves.error hs hrun).2.1]
      | ok x =>
          obtain ⟨-, -, heffect⟩ := r.serves.ok hs hrun
          cases ha : r.access? with
          | none => rw [eq_of_effect_access_none ha heffect]
          | some ua =>
              obtain ⟨u, a⟩ := ua
              rcases effect_cases ha with ⟨-, y, he⟩ | ⟨ht, g, he⟩
              · rw [he] at heffect
                rw [← (Prod.mk.inj (Except.ok.inj heffect)).2]
              · rw [he, Change.map] at heffect
                obtain ⟨y, hy, hyx⟩ := map_eq_ok heffect
                rw [← (Prod.mk.inj hyx).2]
                by_cases hidle : a.Idle u (Engine.committed env.engine)
                · rw [Access.eq_of_idle hidle hy]
                · refine (TableId.framed_onRecords (a.touches_rewrite u) hy).elsewhere _ _ ?_
                  rintro v k hvk ⟨hname, hkey⟩
                  obtain ⟨k', hk', he⟩ := Option.map_eq_some_iff.1 hvk
                  cases he
                  cases TableId.name_injective hname
                  refine h ⟨x, a, k, by rw [hrun], ha, ?_, hk', hkey.symm, hidle⟩
                  rw [ht]
                  exact List.mem_cons_self

theorem record?_after {rs : List Request} (hs : Sound env.engine) (h : Spared t key rs env) :
    (Engine.committed (after rs env).engine).record? t.name key =
      (Engine.committed env.engine).record? t.name key := by
  induction rs generalizing env with
  | nil => rfl
  | cons r rs ih => exact (ih (r.sound_run hs) h.2).trans (record?_run hs h.1)

theorem Stands.record? {put : Request} {k : Key} {rs : List Request} {bs : Bytes}
    (h : Stands put t k rs env) (hs : Sound env.engine)
    (hput : ∀ {c c' : Content}, put.effect c = .ok (.done, c') →
      c'.record? t.name k.bytes = some bs) :
    (Engine.committed (after rs env).engine).record? t.name k.bytes = some bs := by
  obtain @⟨before, later, hrs, hdone, hspared⟩ := h
  have hs' := sound_after before hs
  rw [hrs, after_append, after, record?_after (put.sound_run hs') hspared]
  exact hput (put.serves.ok hs' (Prod.ext hdone rfl)).2.2

end Request

namespace Catalog

variable {ε : Type} [Engine ε] [IsolatedEngine ε] {env : Environment ε} {cat : Catalog} {p : Panel}

theorem rootLabel_run (hs : Sound env.engine) (hp : p ∈ cat.panels) (k : Int32) :
    (Faults ε ((cat.rootLabel p k).run env).1 ∨ ((cat.rootLabel p k).run env).1 =
      rootLabelOf (.panel p .root) (.panel p .rootMap) k (Engine.committed env.engine)) ∧
    Engine.committed ((cat.rootLabel p k).run env).2.engine = Engine.committed env.engine := by
  rw [rootLabel_eq_read hp]
  exact settle_rootLabelIn _ _ k hs

theorem rootLabel_stands {k r : Int32} {s : String} {rs : List Request} (hs : Sound env.engine)
    (hp : p ∈ cat.panels) (h0 : r ≠ 0)
    (hlabel : Request.Stands (.call cat (.putRootLabel p r s)) (.panel p .rootMap) (.id r) rs env)
    (hlink : Request.Stands (.call cat (.linkRoot p k r)) (.panel p .root) (.id k) rs env) :
    Faults ε ((cat.rootLabel p k).run (Request.after rs env)).1 ∨
      ((cat.rootLabel p k).run (Request.after rs env)).1 = .ok (some (beforeNul s)) := by
  refine (rootLabel_run (Request.sound_after rs hs) hp k).1.imp_right (fun hrun => hrun.trans ?_)
  have hlabels := hlabel.record? hs
    (Call.record?_put (q := .putRootLabel p r s) rfl rfl (panel_mem_tables.2 hp))
  have hroots := hlink.record? hs
    (Call.record?_put (q := .linkRoot p k r) rfl rfl (panel_mem_tables.2 hp))
  rw [rootLabelOf, TableId.lookUp_of_record? hroots, Format.read, Format.decode_int_encode]
  change (if r = 0 then _ else _) = _
  rw [if_neg h0, TableId.lookUp_of_record? hlabels, Format.read, Format.decode_text_encode]
  rfl

end Catalog

structure RootLabels (ε : Type) [Engine ε] [IsolatedEngine ε] : Prop where
  answer : ∀ {cat : Catalog} {p : Panel} {env : Environment ε} {roots texts : Table},
    Sound env.engine → p ∈ cat.panels →
    (Engine.committed env.engine).find? (TableId.panel p .root).name = some roots →
    (Engine.committed env.engine).find? (TableId.panel p .rootMap).name = some texts →
    ∀ k, (Faults ε ((cat.rootLabel p k).run env).1 ∨
        RootLabel (roots.find? (Key.id k).bytes) texts ((cat.rootLabel p k).run env).1) ∧
      Engine.committed ((cat.rootLabel p k).run env).2.engine = Engine.committed env.engine
  unlooked : ∀ {cat : Catalog} {p : Panel} {env : Environment ε} {roots : Table} {k : Int32},
    Sound env.engine → p ∈ cat.panels →
    (Engine.committed env.engine).find? (TableId.panel p .root).name = some roots →
    (∀ r, Links (roots.find? (Key.id k).bytes) r → r = 0) → ∀ labels : TableId,
      (cat.rootLabel p k).run env =
        (Environment.read (Catalog.rootLabelIn (.panel p .root) labels k)).run env
  together : ∀ (root labels : TableId) (k : Int32) (s : Engine.Reader ε) (e : ε),
    Catalog.rootLabelAmid id root labels k s e =
      ((Catalog.rootLabelIn root labels k).run (s, e)).1
  snapshot : ∀ {root labels : TableId} {others : ε → ε} {e₀ e₁ e : ε} {s : Engine.Reader ε}
    {roots texts : Table}, Sound e₀ → Engine.beginRead.run e₀ = (.ok s, e₁) →
    (∀ e, Sound e → Sound (others e)) → Sound e →
    (Engine.committed e₀).find? root.name = some roots →
    (Engine.committed e₀).find? labels.name = some texts →
    ∀ k, Faults ε (Catalog.rootLabelAmid others root labels k s e) ∨
      RootLabel (roots.find? (Key.id k).bytes) texts
        (Catalog.rootLabelAmid others root labels k s e)
  lasting : ∀ {cat : Catalog} {p : Panel} {env : Environment ε} {k r : Int32} {s : String}
    {rs : List Request}, Sound env.engine → p ∈ cat.panels → r ≠ 0 →
    Request.Stands (.call cat (.putRootLabel p r s)) (.panel p .rootMap) (.id r) rs env →
    Request.Stands (.call cat (.linkRoot p k r)) (.panel p .root) (.id k) rs env →
      Faults ε ((cat.rootLabel p k).run (Request.after rs env)).1 ∨
        ((cat.rootLabel p k).run (Request.after rs env)).1 = .ok (some (beforeNul s))

theorem rootLabels (ε : Type) [Engine ε] [IsolatedEngine ε] : RootLabels ε where
  answer hs hp hroots htexts k := by
    have h := Catalog.rootLabel_run hs hp k
    rw [Catalog.rootLabelOf_eq hroots htexts] at h
    refine ⟨h.1.imp_right (fun hrun => ?_), h.2⟩
    rw [hrun]
    exact RootLabel.tells _ _
  unlooked hs hp hroots h labels := by
    rw [Catalog.rootLabel_eq_read hp]
    exact Catalog.run_rootLabelIn_congr hs hroots h _ labels
  together := Catalog.rootLabelAmid_id
  snapshot {root labels others e₀ e₁ e s roots texts} hs hbegin hothers he hroots htexts k := by
    obtain ⟨v, e', hrun, -, hv⟩ := IsolatedEngine.beginRead_eq e₀ hs
    have hseen : seen s = Engine.committed e₀ := by
      obtain ⟨rfl, -⟩ := Prod.mk.inj (hbegin.symm.trans hrun)
      rcases hv with ⟨x, hx, -⟩ | ⟨s', hs', hseen⟩
      · cases hx
      · cases hs'
        exact hseen
    rw [← hseen] at hroots htexts
    exact Catalog.rootLabelAmid_tells hothers he hroots htexts k
  lasting hs hp h0 hlabel hlink := Catalog.rootLabel_stands hs hp h0 hlabel hlink

namespace Volatile

variable {α : Type} {t root labels : TableId} {c : Content} {e : Volatile} {table : Table}

theorem engine_read (op : ScopeM Volatile Content α) (env : Environment Volatile) :
    ((Environment.read op).run env).2.engine =
      (op.run (env.engine.content, env.engine)).2.2 := by
  have hbegin : (Engine.beginRead : EngineM Volatile (Engine.Reader Volatile)).run env.engine =
      (.ok env.engine.content, env.engine) := rfl
  rw [Environment.read, Environment.onEngine, Work.run_within, Environment.transactionRead,
    Work.run_bind, hbegin]
  simp only [Work.run_bind, Environment.inScope]
  cases op.run (env.engine.content, env.engine) with
  | mk r s => cases r <;> rfl

theorem run_field (h : c.find? t.name = some table) (f : Format α) (k : Key) :
    (t.field Engine.reading f k).run (c, e) =
      (f.read (table.find? k.bytes), (c, e.countLookup t.name)) := by
  have hfind : (Engine.reading.find t.name k.bytes).run (c, e) =
      (.ok (table.find? k.bytes), (c, e.countLookup t.name)) := by
    change (Volatile.reading.find t.name k.bytes).run (c, e) = _
    simp only [Volatile.reading, h]
  rw [TableId.field, Work.run_bind, hfind]
  rfl

structure Looked (first second : String) (linked : Prop) (e e' : Volatile) : Prop where
  kept : e' = { e with lookups := e'.lookups }
  once : e'.lookupCount first = e.lookupCount first + 1
  again : linked → e'.lookupCount second = e.lookupCount second + 1
  unlinked : ¬ linked → e'.lookupCount second = e.lookupCount second
  others : ∀ table, table ≠ first → table ≠ second → e'.lookupCount table = e.lookupCount table

theorem looked {linked : Prop} {first second : String} (hne : first ≠ second) {e' : Volatile}
    (h : linked ∧ e' = (e.countLookup first).countLookup second ∨
      ¬ linked ∧ e' = e.countLookup first) : Looked first second linked e e' := by
  rcases h with ⟨hlinked, rfl⟩ | ⟨hlinked, rfl⟩
  · refine ⟨rfl, ?_, fun _ => ?_, fun h => absurd hlinked h, fun table hfirst hsecond => ?_⟩
    · simp [lookupCount_countLookup, hne]
    · simp [lookupCount_countLookup, hne.symm]
    · simp [lookupCount_countLookup, hfirst, hsecond]
  · refine ⟨rfl, ?_, fun h => absurd h hlinked, fun _ => ?_, fun table hfirst _ => ?_⟩
    · simp [lookupCount_countLookup]
    · simp [lookupCount_countLookup, hne.symm]
    · simp [lookupCount_countLookup, hfirst]

theorem looked_rootLabelIn {roots texts : Table} (hne : root.name ≠ labels.name)
    (hroots : c.find? root.name = some roots) (htexts : c.find? labels.name = some texts)
    (k : Int32) : Looked root.name labels.name (∃ r, Links (roots.find? (Key.id k).bytes) r ∧ r ≠ 0)
      e ((Catalog.rootLabelIn root labels k).run (c, e)).2.2 := by
  refine looked hne ?_
  rw [Catalog.rootLabelIn, Work.run_bind, run_field hroots]
  rcases Links.cases (roots.find? (Key.id k).bytes) with hr | ⟨r, hr⟩ | ⟨bs, hr, hw⟩
  · rw [hr]
    refine .inr ⟨?_, rfl⟩
    rintro ⟨r, hr', -⟩
    cases hr'.read_eq
  · rw [hr.read_eq]
    by_cases h0 : r = 0
    · refine .inr ⟨?_, ?_⟩
      · rintro ⟨r', hr', h0'⟩
        rw [hr.unique hr'] at h0
        exact h0' h0
      · simp only [if_pos h0]
        rfl
    · refine .inl ⟨⟨r, hr, h0⟩, ?_⟩
      simp only [if_neg h0, run_field htexts]
  · rw [hr, Format.int_read_of_width hw]
    refine .inr ⟨?_, rfl⟩
    rintro ⟨r, hr', -⟩
    have hread := hr'.read_eq
    rw [Format.int_read_of_width hw] at hread
    cases hread

theorem looked_rootLabel {cat : Catalog} {p : Panel} {env : Environment Volatile}
    {roots texts : Table} (hp : p ∈ cat.panels)
    (hroots : env.engine.content.find? (TableId.panel p .root).name = some roots)
    (htexts : env.engine.content.find? (TableId.panel p .rootMap).name = some texts) (k : Int32) :
    Looked (TableId.panel p .root).name (TableId.panel p .rootMap).name
      (∃ r, Links (roots.find? (Key.id k).bytes) r ∧ r ≠ 0) env.engine
      ((cat.rootLabel p k).run env).2.engine := by
  have hne : (TableId.panel p .root).name ≠ (TableId.panel p .rootMap).name :=
    fun he => nomatch TableId.name_injective he
  rw [Catalog.rootLabel_eq_read hp, engine_read]
  exact looked_rootLabelIn hne hroots htexts k

end Volatile

theorem root_labels_found {δ : Type} [Database δ] [LawfulDatabase δ] :
    (∀ {record : Option Bytes} {texts : Table} {x y : Except StorageError (Option String)},
      RootLabel record texts x → RootLabel record texts y → x = y) ∧
    RootLabels Volatile ∧ RootLabels (DatabaseEngine δ) ∧
    (∀ (cat : Catalog) (p : Panel) k (env : Environment Volatile),
      ¬ Faults Volatile ((cat.rootLabel p k).run env).1) ∧
    ∀ {cat : Catalog} {p : Panel} {env : Environment Volatile} {roots texts : Table},
      p ∈ cat.panels → env.engine.content.find? (TableId.panel p .root).name = some roots →
      env.engine.content.find? (TableId.panel p .rootMap).name = some texts → ∀ k,
        Volatile.Looked (TableId.panel p .root).name (TableId.panel p .rootMap).name
          (∃ r, Links (roots.find? (Key.id k).bytes) r ∧ r ≠ 0) env.engine
          ((cat.rootLabel p k).run env).2.engine := by
  refine ⟨RootLabel.unique, rootLabels _, rootLabels _, ?_, Volatile.looked_rootLabel⟩
  rintro cat p k env ⟨x, hx, hfull⟩
  exact Bool.noConfusion ((Roomless.rootLabel cat p k env x hx).symm.trans hfull)

end TrafficStore
