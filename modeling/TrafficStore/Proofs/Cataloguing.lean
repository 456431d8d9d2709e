import Mathlib.Data.List.Dedup
import TrafficStore.Proofs.Atomicity
import TrafficStore.Proofs.Runs
import TrafficStore.Proofs.Stock

namespace TrafficStore

open ScopeViews Books

namespace Catalog

structure Lists (cat : Catalog) (ps : List Panel) : Prop where
  panels : ∀ p, p ∈ cat.panels ↔ p ∈ ps
  ordered : cat.panels.Pairwise (fun p q => p.ordinal < q.ordinal)
  size : cat.size = 5 + 14 * ps.dedup.length
  sharedTable : ∀ t, (cat.sharedTable? t).map TableId.name = some t.tableName
  panelTable : ∀ p m, (cat.panelTable? p m).map TableId.name =
    if p ∈ ps then some s!"{m.tableName}-m{p.ordinal}" else none
  require : ∀ p m, cat.require p m =
    (cat.panelTable? p m).elim (.error (.unknownTable s!"{m.tableName}-m{p.ordinal}")) .ok

theorem lists_ofPanels (ps : List Panel) : (ofPanels ps).Lists ps where
  panels _ := mem_panels_ofPanels
  ordered := List.Pairwise.filter _ (by decide)
  size := by
    have hnodup : (ofPanels ps).panels.Nodup := List.Pairwise.filter _ (by decide)
    have hperm : (ofPanels ps).panels.Perm ps.dedup := by
      rw [List.perm_ext_iff_of_nodup hnodup (List.nodup_dedup ps)]
      intro p
      rw [mem_panels_ofPanels, List.mem_dedup]
    rw [← hperm.length_eq]
    exact size_listing _
  sharedTable _ := rfl
  panelTable p m := by
    rw [panelTable?]
    simp only [mem_panels_ofPanels]
    split <;> rfl
  require p m := by
    rw [require]
    cases (ofPanels ps).panelTable? p m <;> rfl

end Catalog

structure Furnishes (ps : List Panel) (c c' : Content) : Prop where
  names : ∀ name, c'.contains name = true ↔ c.contains name = true ∨
    (∃ t : SharedTable, name = t.tableName) ∨
      ∃ p ∈ ps, ∃ m : Metric, name = s!"{m.tableName}-m{p.ordinal}"
  kept : ∀ {name table}, c.find? name = some table → c'.find? name = some table
  fresh : ∀ {name table}, c.find? name = none → c'.find? name = some table → table = .empty

theorem mem_names_ofPanels {ps : List Panel} {name : String} :
    name ∈ (TableId.ofPanels ps).map TableId.name ↔ (∃ t : SharedTable, name = t.tableName) ∨
      ∃ p ∈ ps, ∃ m : Metric, name = s!"{m.tableName}-m{p.ordinal}" := by
  rw [List.mem_map]
  constructor
  · rintro ⟨t, ht, rfl⟩
    cases t with
    | shared t => exact .inl ⟨t, rfl⟩
    | panel p m => exact .inr ⟨p, TableId.mem_ofPanels.1 ht p m rfl, m, rfl⟩
  · rintro (⟨t, rfl⟩ | ⟨p, hp, m, rfl⟩)
    · exact ⟨.shared t, TableId.mem_ofPanels.2 (fun p m he => nomatch he), rfl⟩
    · exact ⟨.panel p m, TableId.mem_ofPanels.2 (fun q n he => by cases he; exact hp), rfl⟩

theorem furnishes_withTables (ps : List Panel) (c : Content) :
    Furnishes ps c (withTables (TableId.ofPanels ps) c) := by
  have hfind : ∀ name, (withTables (TableId.ofPanels ps) c).find? name = (c.find? name).or
      (if ((TableId.ofPanels ps).map TableId.name).contains name then some .empty else none) :=
    fun name => Volatile.Writer.find?_foldl_createTable _ name c
  refine ⟨fun name => ?_, fun {name table} h => ?_, fun {name table} h h' => ?_⟩
  · rw [SortedMap.contains, hfind, Option.isSome_or, Bool.or_eq_true]
    refine or_congr_right ?_
    rw [← mem_names_ofPanels]
    by_cases hmem : name ∈ (TableId.ofPanels ps).map TableId.name
    · rw [if_pos (List.contains_iff_mem.2 hmem)]
      exact iff_of_true rfl hmem
    · rw [if_neg (fun h => hmem (List.contains_iff_mem.1 h))]
      exact iff_of_false Bool.false_ne_true hmem
  · rw [hfind, h]
    rfl
  · rw [hfind, h, Option.none_or] at h'
    split at h'
    · exact (Option.some.inj h').symm
    · cases h'

namespace Furnishes

variable {ps qs : List Panel} {c c' c'' : Content}

theorem ext_of_names (h : Furnishes ps c c') (h' : Furnishes qs c c'')
    (hnames : ∀ name, c'.contains name = true ↔ c''.contains name = true) : c' = c'' := by
  apply SortedMap.ext_find?
  intro name
  cases hc : c.find? name with
  | some table => rw [h.kept hc, h'.kept hc]
  | none =>
      cases hc' : c'.find? name with
      | some table =>
          obtain ⟨table', hc''⟩ := SortedMap.contains_iff.1
            ((hnames name).1 (SortedMap.contains_iff.2 ⟨table, hc'⟩))
          rw [hc'', h.fresh hc hc', h'.fresh hc hc'']
      | none =>
          have hno : c''.contains name = false := by
            rw [Bool.eq_false_iff, ne_eq, ← hnames, SortedMap.contains_iff, hc']
            simp
          rw [SortedMap.contains_eq_false_iff.1 hno]

theorem unique (hsame : ∀ p, p ∈ ps ↔ p ∈ qs) (h : Furnishes ps c c') (h' : Furnishes qs c c'') :
    c' = c'' := by
  refine h.ext_of_names h' (fun name => ?_)
  simp only [h.names, h'.names, hsame]

theorem self (h : Furnishes ps c c') : Furnishes ps c' c' where
  names name := (or_iff_left_of_imp (fun hname => (h.names name).2 (.inr hname))).symm
  kept := id
  fresh hnone hsome := by
    rw [hnone] at hsome
    cases hsome

theorem again (hsame : ∀ p, p ∈ ps ↔ p ∈ qs) (h : Furnishes ps c c') (h' : Furnishes qs c' c'') :
    c'' = c' :=
  (unique hsame h.self h').symm

end Furnishes

namespace Catalog

variable {ε : Type} [Engine ε]

theorem run_init_over {ps : List Panel} {env : Environment ε}
    (h : env.settings.maxTables < 5 + 14 * ps.length) :
    (init ps).run env =
      (.error (.tableLimit (5 + 14 * ps.length) env.settings.maxTables), env) := by
  rw [← TableId.length_ofPanels] at h ⊢
  simp [init, h]

example : ((init [.hosts, .hosts]).run (Environment.volatile { maxTables := 32 })).1 =
    .error (.tableLimit 33 32) := by decide

theorem run_init_within {ps : List Panel} {env : Environment ε}
    (h : 5 + 14 * ps.length ≤ env.settings.maxTables) :
    (init ps).run env = (do
      Environment.write (createTables (TableId.ofPanels ps))
      Environment.report (.catalogReady (ofPanels ps).size (ofPanels ps).panels.length)
      return ofPanels ps : StoreM ε Catalog).run env := by
  rw [← TableId.length_ofPanels] at h
  simp only [init, Work.run_bind, Work.run_state, if_neg (Nat.not_lt.2 h)]

end Catalog

structure Initializes (ε : Type) [Engine ε] [ScopeViews ε] : Prop where
  limited : ∀ {ps : List Panel} {env : Environment ε}, Sound env.engine →
    ((∃ requested limit, ((Catalog.init ps).run env).1 = .error (.tableLimit requested limit)) ↔
      env.settings.maxTables < 5 + 14 * ps.length)
  within : ∀ {ps : List Panel} {env : Environment ε}, Sound env.engine →
    5 + 14 * ps.length ≤ env.settings.maxTables →
    Faults ε ((Catalog.init ps).run env).1 ∨ ∃ cat, ((Catalog.init ps).run env).1 = .ok cat
  refused : ∀ {ps : List Panel} {env env' : Environment ε} {x : StorageError}, Sound env.engine →
    (Catalog.init ps).run env = (.error x, env') →
    Engine.committed env'.engine = Engine.committed env.engine
  made : ∀ {ps : List Panel} {env env' : Environment ε} {cat : Catalog}, Sound env.engine →
    (Catalog.init ps).run env = (.ok cat, env') →
    cat.Lists ps ∧ Furnishes ps (Engine.committed env.engine) (Engine.committed env'.engine)
  same : ∀ {ps qs : List Panel} {env env' env'' : Environment ε} {cat cat' : Catalog},
    (∀ p, p ∈ ps ↔ p ∈ qs) → Sound env.engine → (Catalog.init ps).run env = (.ok cat, env') →
    (Catalog.init qs).run env = (.ok cat', env'') →
    cat = cat' ∧ Engine.committed env'.engine = Engine.committed env''.engine
  again : ∀ {ps qs : List Panel} {env env' env'' : Environment ε} {cat cat' : Catalog},
    (∀ p, p ∈ ps ↔ p ∈ qs) → Sound env.engine → (Catalog.init ps).run env = (.ok cat, env') →
    (Catalog.init qs).run env' = (.ok cat', env'') →
    cat' = cat ∧ Engine.committed env''.engine = Engine.committed env'.engine

theorem initializes (ε : Type) [Engine ε] [IsolatedEngine ε]
    (hno : ∀ requested limit, ¬ ScopeViews.Fault ε (.tableLimit requested limit)) :
    Initializes ε where
  limited {ps env} hs := by
    constructor
    · rintro ⟨requested, limit, hlimit⟩
      by_contra hwithin
      rw [Catalog.run_init_within (Nat.not_lt.1 hwithin)] at hlimit
      obtain ⟨-, -, hfault | hx⟩ := (serves_make ps).error hs (Prod.ext hlimit rfl)
      · exact hno requested limit hfault
      · cases hx
    · intro hover
      rw [Catalog.run_init_over hover]
      exact ⟨_, _, rfl⟩
  within {ps env} hs hwithin := by
    obtain ⟨r, env', hrun, -, -, hr⟩ := serves_make ps env hs
    rw [Catalog.run_init_within hwithin, hrun]
    rcases hr with ⟨hfaults, -⟩ | hr
    · exact .inl hfaults
    · exact .inr ⟨_, (congrArg Prod.fst hr).symm⟩
  refused hs hrun := (Books.init_error hs hrun).2.1
  made hs hrun := by
    obtain ⟨rfl, -, -, -, hc⟩ := Books.init_ok hs hrun
    rw [hc]
    exact ⟨Catalog.lists_ofPanels _, furnishes_withTables _ _⟩
  same hsame hs hrun hrun' := by
    obtain ⟨rfl, -, -, -, hc⟩ := Books.init_ok hs hrun
    obtain ⟨rfl, -, -, -, hc'⟩ := Books.init_ok hs hrun'
    refine ⟨Catalog.ofPanels_congr hsame, ?_⟩
    rw [hc, hc']
    exact (furnishes_withTables _ _).unique hsame (furnishes_withTables _ _)
  again hsame hs hrun hrun' := by
    obtain ⟨rfl, -, hs', -, hc⟩ := Books.init_ok hs hrun
    obtain ⟨rfl, -, -, -, hc'⟩ := Books.init_ok hs' hrun'
    refine ⟨(Catalog.ofPanels_congr hsame).symm, ?_⟩
    rw [hc', hc]
    exact (furnishes_withTables _ _).again hsame (furnishes_withTables _ _)

namespace Volatile

theorem run_create (table : String) (w : Writer) (e : Volatile) :
    ∃ created, (create table).run (w, e) = (.ok (), ({ w with created }, e)) := by
  by_cases hhas : w.has table = true
  · exact ⟨w.created, by simp only [create, if_pos hhas]⟩
  · exact ⟨w.created ++ [table], by simp only [create, if_neg hhas]⟩

theorem run_createTables (ts : List TableId) (w : Writer) (e : Volatile) :
    ∃ created, (Catalog.createTables ts).run (w, e) = (.ok (), ({ w with created }, e)) := by
  induction ts generalizing w with
  | nil => exact ⟨w.created, rfl⟩
  | cons t ts ih =>
      obtain ⟨created, hcreate⟩ := run_create t.name w e
      obtain ⟨created', hrest⟩ := ih { w with created }
      refine ⟨created', ?_⟩
      rw [Catalog.createTables, Work.run_bind,
        show (Engine.create t.name).run (w, e) = _ from hcreate]
      exact hrest

theorem run_write_eq {α : Type} (op : ScopeM Volatile Writer α) (env : Environment Volatile) :
    (Environment.write op).run env =
      match op.run ({ base := env.engine.content }, env.engine) with
      | (.ok a, (w, e)) => (.ok a, { env with engine := { e with
          content := w.outcome, size := e.size + w.added } })
      | (.error x, (_, e)) => (.error x, { env with engine := e }) := by
  have hbegin : (Engine.beginWrite (ε := Volatile)).run env.engine =
      (.ok { base := env.engine.content }, env.engine) := rfl
  rw [Environment.write, Environment.onEngine, Work.run_within, Environment.transactionWrite,
    Work.run_bind, hbegin]
  simp only [Work.run_bind, Environment.inScope]
  cases op.run ({ base := env.engine.content }, env.engine) with
  | mk r s => cases r <;> rfl

theorem run_write {α : Type} {op : ScopeM Volatile Writer α} {env : Environment Volatile} {a : α}
    {w : Writer} (h : op.run ({ base := env.engine.content }, env.engine) =
      (.ok a, (w, env.engine))) :
    (Environment.write op).run env = (.ok a, { env with engine := { env.engine with
      content := w.outcome, size := env.engine.size + w.added } }) := by
  rw [run_write_eq, h]

theorem run_init {ps : List Panel} {env : Environment Volatile}
    (h : 5 + 14 * ps.length ≤ env.settings.maxTables) :
    (Catalog.init ps).run env = (.ok (.ofPanels ps), { env with
      engine := { env.engine with
        content := withTables (TableId.ofPanels ps) env.engine.content }
      journal := env.journal.push
        (.catalogReady (Catalog.ofPanels ps).size (Catalog.ofPanels ps).panels.length) }) := by
  obtain ⟨created, hcreate⟩ :=
    run_createTables (TableId.ofPanels ps) { base := env.engine.content } env.engine
  have hrun := Catalog.run_init_within h
  rw [Work.run_bind, run_write hcreate] at hrun
  have hcontent : ({ base := env.engine.content, created } : Writer).outcome =
      withTables (TableId.ofPanels ps) env.engine.content :=
    (Books.init_ok trivial hrun).2.2.2.2
  have hsize : env.engine.size + 0 = env.engine.size := UInt64.add_zero _
  rw [hrun, hcontent, hsize]
  rfl

theorem run_init_congr {ps qs : List Panel} (hsame : ∀ p, p ∈ ps ↔ p ∈ qs)
    {env : Environment Volatile} (hp : 5 + 14 * ps.length ≤ env.settings.maxTables)
    (hq : 5 + 14 * qs.length ≤ env.settings.maxTables) :
    (Catalog.init ps).run env = (Catalog.init qs).run env := by
  have htables : withTables (TableId.ofPanels ps) env.engine.content =
      withTables (TableId.ofPanels qs) env.engine.content :=
    (furnishes_withTables _ _).unique hsame (furnishes_withTables _ _)
  rw [run_init hp, run_init hq, Catalog.ofPanels_congr hsame, htables]

theorem engine_run_init_again {ps qs : List Panel} (hsame : ∀ p, p ∈ ps ↔ p ∈ qs)
    {env : Environment Volatile} (hp : 5 + 14 * ps.length ≤ env.settings.maxTables)
    (hq : 5 + 14 * qs.length ≤ env.settings.maxTables) :
    ((Catalog.init qs).run ((Catalog.init ps).run env).2).2.engine =
      ((Catalog.init ps).run env).2.engine := by
  have htables : withTables (TableId.ofPanels qs)
      (withTables (TableId.ofPanels ps) env.engine.content) =
        withTables (TableId.ofPanels ps) env.engine.content :=
    (furnishes_withTables _ _).again hsame (furnishes_withTables _ _)
  rw [run_init hp, run_init (by exact hq)]
  simp only [htables]

end Volatile

theorem catalog_init {δ : Type} [Database δ] [LawfulDatabase δ] :
    (∀ {ε : Type} [Engine ε] {ps : List Panel} {env : Environment ε},
      env.settings.maxTables < 5 + 14 * ps.length → (Catalog.init ps).run env =
        (.error (.tableLimit (5 + 14 * ps.length) env.settings.maxTables), env)) ∧
    Initializes Volatile ∧ Initializes (DatabaseEngine δ) ∧
    (∀ ps, RollsBack (Catalog.init ps : StoreM (Faulty Volatile) Catalog)) ∧
    ∀ {ps qs : List Panel} {env : Environment Volatile}, (∀ p, p ∈ ps ↔ p ∈ qs) →
      5 + 14 * ps.length ≤ env.settings.maxTables → 5 + 14 * qs.length ≤ env.settings.maxTables →
      (∃ cat, ((Catalog.init ps).run env).1 = .ok cat) ∧
      (Catalog.init ps).run env = (Catalog.init qs).run env ∧
      ((Catalog.init qs).run ((Catalog.init ps).run env).2).2.engine =
        ((Catalog.init ps).run env).2.engine := by
  refine ⟨Catalog.run_init_over, initializes _ ?_, initializes _ ?_, Catalog.rollsBack_init, ?_⟩
  · intro requested limit hfault
    cases hfault
  · rintro requested limit (hfull | ⟨stage, reason, he, -⟩)
    · cases hfull
    · cases he
  · intro ps qs env hsame hp hq
    refine ⟨⟨_, congrArg Prod.fst (Volatile.run_init hp)⟩, Volatile.run_init_congr hsame hp hq, ?_⟩
    exact Volatile.engine_run_init_again hsame hp hq

end TrafficStore
