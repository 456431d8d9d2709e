import TrafficStore.Overview
import TrafficStore.Proofs.Leads
import TrafficStore.Proofs.Reading
import TrafficStore.Proofs.Tally

namespace TrafficStore

open ScopeViews Books LogRecord Allocator

theorem Leads.of_alike {ε ξ α : Type} [Engine ε] [ScopeViews ε] {P : Content → Prop}
    {m n : Work (Environment ε) ξ α} {Q : α → Content → Prop} {E : ξ → Content → Prop}
    (h : Alike m n) (hn : Leads P n Q E) : Leads P m Q E := by
  intro env hs hc
  obtain ⟨r, env', hrun, hs', hr⟩ := hn env hs hc
  obtain ⟨journal, halike⟩ := h env env.journal
  obtain ⟨rfl, rfl⟩ := Prod.mk.inj (hrun.symm.trans halike)
  exact ⟨_, _, rfl, hs', hr⟩

namespace Ingest

variable {ε : Type} [Engine ε] [IsolatedEngine ε] {cat : Catalog} {T : Tally} {r : LogRecord}

variable (ε) in
def Refusal (cat : Catalog) (rs : List LogRecord) (x : StorageError) : Prop :=
  ScopeViews.Fault ε x ∨ ∃ p ∈ cat.panels, x = .idsExhausted (TableId.panel p .keyMap).name ∧
    maxId < (keysOf p rs).length

theorem Refusal.append {rs : List LogRecord} {x : StorageError} (h : Refusal ε cat rs x)
    (more : List LogRecord) : Refusal ε cat (rs ++ more) x :=
  h.imp_right (fun ⟨p, hp, hx, hlt⟩ =>
    ⟨p, hp, hx, Nat.lt_of_lt_of_le hlt (length_keysOf_le p rs more)⟩)

theorem leads_assignKey (hp : r.panel ∈ cat.panels) :
    Leads (Keeping cat T.Of) (cat.assignKey r.panel r.key : StoreM ε (Option Int32))
      (fun id c => id = some (idOf (keysOf r.panel (T.keys ++ [r])) r.key) ∧
        Keeping cat (T.noteKey r).Of c)
      (fun x c => Refusal ε cat (T.keys ++ [r]) x ∧ Keeping cat T.Of c) := by
  have hserves : Serves (α := Option Int32)
      ((fun a => some a.id) <$> (TableId.panel r.panel .keyMap).allocate r.key : StoreM ε _)
      ((TableId.panel r.panel .keyMap).onRecords
        ((Rewrite.allocate (TableId.panel r.panel .keyMap).name r.key).map
          (fun a => some a.id))) := by
    rw [← TableId.map_onRecords]
    exact (TableId.serves_allocate _ r.key).map _
  refine (leads_onTable (t := .panel r.panel .keyMap) (P := T.Of)
    (Q := fun id b => id = some (idOf (keysOf r.panel (T.keys ++ [r])) r.key) ∧
      (T.noteKey r).Of b) hserves
    ((Tracks.allocate _ r.key).map _) (Catalog.panel_mem_tables.2 hp)
    (fun b hb => hb.allocate r fun hlt => .inr ⟨r.panel, hp, rfl, hlt⟩)
    (fun x hx => .inl hx)).mono
    (fun _ _ => Keeping.of_and) (fun _ _ h => h)

theorem leads_putLabel (hp : r.panel ∈ cat.panels) (hkey : r.key ∈ keysOf r.panel T.keys) :
    Leads (Keeping cat T.Of)
      (cat.putLabel r.panel (idOf (keysOf r.panel T.keys) r.key) r.key : StoreM ε Unit)
      (fun _ => Keeping cat (T.noteLabel r).Of)
      (fun x c => ScopeViews.Fault ε x ∧ Keeping cat T.Of c) :=
  leads_onTable (t := .panel r.panel .dataMap) (TableId.serves_put _ .text (.id _) r.key)
    (Tracks.put (k := .id) (v := .text) _ r.key) (Catalog.panel_mem_tables.2 hp)
    (fun _ hb => hb.label hkey) (fun _ hx => hx)

theorem leads_addHits (hp : r.panel ∈ cat.panels) (hkey : r.key ∈ keysOf r.panel T.keys) :
    Leads (Keeping cat T.Of)
      (cat.addHits r.panel (idOf (keysOf r.panel T.keys) r.key) 1 : StoreM ε Int32)
      (fun _ => Keeping cat (T.noteHit r).Of)
      (fun x c => ScopeViews.Fault ε x ∧ Keeping cat T.Of c) :=
  leads_onTable (t := .panel r.panel .hits)
    (TableId.serves_accumulate _ .int 0 addInt (.id _) 1)
    (Tracks.accumulate (k := .id) (v := .int) (fun _ => rfl) _ (1 : Int32))
    (Catalog.panel_mem_tables.2 hp) (fun _ hb => hb.hit hkey) (fun _ hx => hx)

theorem leads_addBandwidth (hp : r.panel ∈ cat.panels) (hkey : r.key ∈ keysOf r.panel T.keys) :
    Leads (Keeping cat T.Of)
      (cat.addBandwidth r.panel (idOf (keysOf r.panel T.keys) r.key) r.bytes : StoreM ε UInt64)
      (fun _ => Keeping cat (T.noteBytes r).Of)
      (fun x c => ScopeViews.Fault ε x ∧ Keeping cat T.Of c) :=
  leads_onTable (t := .panel r.panel .bandwidth)
    (TableId.serves_accumulate _ .word 0 addWord (.id _) r.bytes)
    (Tracks.accumulate (k := .id) (v := .word) (fun _ => rfl) _ r.bytes)
    (Catalog.panel_mem_tables.2 hp) (fun _ hb => hb.bandwidth hkey) (fun _ hx => hx)

theorem leads_addStat {T' : Tally} (ht : .shared .generalStats ∈ cat.tables) (name : String)
    (n : UInt64) (h : ∀ b, T.Of b → T'.Of (b.set (.shared .generalStats) (b.stats.insert name
      (addWord ((b.stats.find? name).getD 0) n)))) :
    Leads (Keeping cat T.Of) (cat.addStat name n : StoreM ε UInt64)
      (fun _ => Keeping cat T'.Of) (fun x c => ScopeViews.Fault ε x ∧ Keeping cat T.Of c) :=
  leads_onTable (t := .shared .generalStats)
    (TableId.serves_accumulate _ .word 0 addWord (.name _) n)
    (Tracks.accumulate (k := .name) (v := .word) (fun _ => rfl) _ n) ht h (fun _ hx => hx)

theorem generalStats_mem_tables {p : Panel} (hp : p ∈ cat.panels) :
    .shared .generalStats ∈ cat.tables := by
  cases cat with
  | uninitialized => cases hp
  | listing ps => exact TableId.mem_ofPanels.2 (fun _ _ he => nomatch he)

theorem leads_record (hp : r.panel ∈ cat.panels) :
    Leads (Keeping cat T.Of) (record cat r : StoreM ε Bool)
      (fun counted c => counted = true ∧ Keeping cat (T.add r).Of c)
      (fun x c => Refusal ε cat (T.keys ++ [r]) x ∧ ∃ T' ∈ T.stages r, Keeping cat T'.Of c) := by
  have ht := generalStats_mem_tables hp
  have hkey := mem_keysOf_append T.keys r
  have hstage : ∀ T' ∈ T.stages r, ∀ x c, ScopeViews.Fault ε x ∧ Keeping cat T'.Of c →
      Refusal ε cat (T.keys ++ [r]) x ∧ ∃ T' ∈ T.stages r, Keeping cat T'.Of c :=
    fun T' hT x c h => ⟨.inl h.1, T', hT, h.2⟩
  refine ((leads_assignKey hp).mono (fun _ _ h => h)
    (fun x c h => ⟨h.1, T, List.mem_cons_self, h.2⟩)).bind (fun id => .of_fact (fun hid => ?_))
  -- the key has its id now, so only the engine can fail in what follows
  subst hid
  refine ((leads_putLabel hp hkey).mono (fun _ _ h => h) (hstage _ ?_)).bind (fun _ => ?_)
  · simp [Tally.stages]
  refine ((leads_addHits hp hkey).mono (fun _ _ h => h) (hstage _ ?_)).bind (fun _ => ?_)
  · simp [Tally.stages]
  refine ((leads_addBandwidth hp hkey).mono (fun _ _ h => h) (hstage _ ?_)).bind (fun _ => ?_)
  · simp [Tally.stages]
  refine ((leads_addStat ht totalRequests 1 (fun _ hb => hb.request r)).mono (fun _ _ h => h)
    (hstage _ ?_)).bind (fun _ => ?_)
  · simp [Tally.stages]
  refine ((leads_addStat ht totalBytes r.bytes (fun _ hb => hb.byteCount r)).mono (fun _ _ h => h)
    (hstage _ ?_)).bind (fun _ => ?_)
  · simp [Tally.stages]
  exact .pure (fun c hc => ⟨rfl, hc⟩)

theorem leads_countAll {rs : List LogRecord} (hrs : ∀ r ∈ rs, r.panel ∈ cat.panels) :
    Leads (Keeping cat T.Of) (countAll cat rs : IngestM ε Nat)
      (fun n c => n = rs.length ∧ Keeping cat (rs.foldl Tally.add T).Of c)
      (fun x _ => ∃ y, x = .storage y ∧ Refusal ε cat (T.keys ++ rs) y) := by
  induction rs generalizing T with
  | nil => exact .pure (fun c hc => ⟨rfl, hc⟩)
  | cons r rs ih =>
      rw [List.append_cons]
      refine ((leads_record (hrs r List.mem_cons_self)).mapFault
        (fun x _ h => ⟨x, rfl, h.1.append rs⟩)).bind (fun counted => .of_fact (fun hcounted => ?_))
      subst hcounted
      refine (ih (fun q hq => hrs q (List.mem_cons_of_mem r hq))).bind
        (fun n => .of_fact (fun hn => ?_))
      subst hn
      exact .pure (fun c hc => ⟨rfl, hc⟩)

theorem leads_count {rs : List LogRecord} (hrs : ∀ r ∈ rs, r.panel ∈ cat.panels) :
    Leads (Keeping cat T.Of) (count cat rs : IngestM ε Nat)
      (fun n c => n = rs.length ∧ Keeping cat (rs.foldl Tally.add T).Of c)
      (fun x _ => ∃ y, x = .storage y ∧ Refusal ε cat (T.keys ++ rs) y) := by
  refine (leads_countAll hrs).bind (fun n => .of_fact (fun hn => ?_))
  have hsync : Leads (Keeping cat (rs.foldl Tally.add T).Of)
      (Environment.sync true : StoreM ε Unit)
      (fun _ => Keeping cat (rs.foldl Tally.add T).Of) (fun x _ => ScopeViews.Fault ε x) :=
    .of_serves (serves_sync true) (fun _ hc => hc) (fun _ _ hx _ => hx)
  refine (hsync.mapFault (fun x _ h => ⟨x, rfl, .inl h⟩)).bind (fun _ => ?_)
  exact .pure (fun c hc => ⟨hn, hc⟩)

theorem leads_run {text : String} (hread : ∀ l ∈ Text.textLines text.toList, Readable l) :
    Leads (Keeping cat T.Of) (run cat (Text.Utf8.encode text) : IngestM ε Nat)
      (fun n c => n = (recordsOf cat.panels text).length ∧
        Keeping cat ((recordsOf cat.panels text).foldl Tally.add T).Of c)
      (fun x _ => ∃ y, x = .storage y ∧
        Refusal ε cat (T.keys ++ recordsOf cat.panels text) y) :=
  .of_alike (alike_run cat hread)
    (leads_count (fun _ hr => of_decide_eq_true (List.mem_filter.1 hr).2))

end Ingest

namespace Overview

variable {ε : Type} [Engine ε] [IsolatedEngine ε] {cat : Catalog} {rs : List LogRecord}

def ofRecords (ps : List Panel) (rs : List LogRecord) : Overview :=
  ⟨clampWord rs.length, clampWord (bytesOf rs), ps.map (fun p => ⟨p, (keysOf p rs).length, 0⟩)⟩

theorem leads_labelCount {p : Panel} (hp : p ∈ cat.panels) :
    Leads (Keeping cat (Tally.uniform rs).Of) (cat.labelCount p : StoreM ε Nat)
      (fun n c => n = (keysOf p rs).length ∧ Keeping cat (Tally.uniform rs).Of c)
      (fun x _ => ScopeViews.Fault ε x) := by
  refine leads_look (t := .panel p .dataMap) (TableId.serves_cardinality _) Tracks.count
    (Catalog.panel_mem_tables.2 hp) (fun b hb => ?_)
  have hlabels : Indexed _ (b.labels p) (perKey Tally.labelOf p rs) := hb (.panel p .dataMap)
  have hperm := hlabels.entries_perm (hb.numbers p).nodup (hb.bounded p)
    (fun _ hkey => perKey_of_mem hkey)
  have hsize : (b.labels p).size = (keysOf p rs).length := by
    rw [SortedMap.size, hperm.length_eq, List.length_map]
    rfl
  exact congrArg (fun n => Except.ok (n, b (.panel p .dataMap))) hsize

theorem leads_visitorCount {p : Panel} (hp : p ∈ cat.panels) :
    Leads (Keeping cat (Tally.uniform rs).Of) (cat.visitorCount p : StoreM ε Nat)
      (fun n c => n = 0 ∧ Keeping cat (Tally.uniform rs).Of c)
      (fun x _ => ScopeViews.Fault ε x) := by
  refine leads_look (t := .panel p .uniqMap) (TableId.serves_cardinality _) Tracks.count
    (Catalog.panel_mem_tables.2 hp) (fun b hb => ?_)
  have hempty : b (.panel p .uniqMap) = .empty := hb (.panel p .uniqMap)
  rw [hempty]
  rfl

theorem leads_stat (ht : .shared .generalStats ∈ cat.tables) (name : String) :
    Leads (Keeping cat (Tally.uniform rs).Of) (cat.stat name : StoreM ε UInt64)
      (fun n c => n = ((Tally.uniform rs).stat name).getD 0 ∧ Keeping cat (Tally.uniform rs).Of c)
      (fun x _ => ScopeViews.Fault ε x) := by
  refine leads_look (t := .shared .generalStats)
    (TableId.serves_findOr _ .word 0 (.name name))
    (Tracks.findOr (k := .name) (v := .word) (0 : UInt64) name) ht
    (fun b hb => ?_)
  exact congrArg (fun n => Except.ok (Option.getD n 0, b (.shared .generalStats))) (hb.stat name)

theorem leads_ofPanels {ps : List Panel} (hps : ∀ p ∈ ps, p ∈ cat.panels) :
    Leads (Keeping cat (Tally.uniform rs).Of) (ofPanels cat ps : StoreM ε (List PanelOverview))
      (fun os c => os = ps.map (fun p => ⟨p, (keysOf p rs).length, 0⟩) ∧
        Keeping cat (Tally.uniform rs).Of c)
      (fun x _ => ScopeViews.Fault ε x) := by
  induction ps with
  | nil => exact .pure (fun c hc => ⟨rfl, hc⟩)
  | cons p ps ih =>
      have hp := hps p List.mem_cons_self
      refine (leads_labelCount hp).bind (fun items => .of_fact (fun hitems => ?_))
      refine (leads_visitorCount hp).bind (fun visitors => .of_fact (fun hvisitors => ?_))
      refine (ih (fun q hq => hps q (List.mem_cons_of_mem p hq))).bind
        (fun rest => .of_fact (fun hrest => ?_))
      subst hitems hvisitors hrest
      exact .pure (fun c hc => ⟨rfl, hc⟩)

theorem leads_take (ht : .shared .generalStats ∈ cat.tables) :
    Leads (Keeping cat (Tally.uniform rs).Of) (take cat : StoreM ε Overview)
      (fun o c => o = ofRecords cat.panels rs ∧ Keeping cat (Tally.uniform rs).Of c)
      (fun x _ => ScopeViews.Fault ε x) := by
  refine (leads_ofPanels (fun _ hp => hp)).bind (fun panels => .of_fact (fun hpanels => ?_))
  refine (leads_stat ht totalRequests).bind (fun requests => .of_fact (fun hrequests => ?_))
  refine (leads_stat ht totalBytes).bind (fun bytes => .of_fact (fun hbytes => ?_))
  refine .pure (fun c hc => ⟨?_, hc⟩)
  have hr : requests = clampWord rs.length := hrequests.trans (getD_noted rs)
  have hb : bytes = clampWord (bytesOf rs) := hbytes.trans (getD_noted rs)
  rw [hpanels, hr, hb, ofRecords]

end Overview

end TrafficStore
