import TrafficStore.Lifetime
import TrafficStore.Proofs.Calls
import TrafficStore.Proofs.Engine.Durable
import TrafficStore.Proofs.Engine.Volatile

namespace TrafficStore

open ScopeViews

def Answered.made (a : Answered) : Catalog × Call := (a.catalog, a.call)

def Opening.made (o : Opening) : List (Catalog × Call) :=
  o.calls.map (fun q => (.ofPanels o.panels, q))

namespace Environment

variable {settings : Settings} {probe : Except PathFault NodeKind} {stored : Stored}
  {env : Environment Durable}

theorem openDurable_ok (h : openDurable settings probe stored = .ok env) :
    ∃ d, Durable.load settings.filePath stored = .ok d ∧
      env = opened settings (.ofDatabase settings d) := by
  rw [openDurable] at h
  cases hpath : checkPath settings.path probe with
  | error x => rw [hpath] at h; cases h
  | ok u =>
      rw [hpath, Durable.openFile] at h
      cases hload : Durable.load settings.filePath stored with
      | error x => rw [hload] at h; cases h
      | ok d =>
          rw [hload] at h
          cases h
          exact ⟨d, rfl, rfl⟩

end Environment

namespace Opening

variable {o : Opening} {probe : Except PathFault NodeKind} {env : Environment Durable}

theorem start_of_openDurable_absent
    (h : Environment.openDurable o.settings probe .absent = .ok env) :
    Session.start env (some o.panels) = o.start ({} : TableFile) := by
  obtain ⟨d, hload, rfl⟩ := Environment.openDurable_ok h
  cases hload
  rfl

theorem start_of_openDurable_image {e : Durable}
    (h : Environment.openDurable o.settings probe (.file e.image) = .ok env) :
    Session.start env (some o.panels) = o.start (Database.reopen e.database) := by
  obtain ⟨d, hload, rfl⟩ := Environment.openDurable_ok h
  have hread : Durable.load o.settings.filePath (.file e.image) = .ok e.database := by
    have himage : DiskImage.read e.image = some e.database.content := DiskImage.read_image _
    -- An image is never empty, so the file is not taken for a new one.
    obtain ⟨x, xs, he⟩ : ∃ x xs, e.image = x :: xs := ⟨_, _, rfl⟩
    rw [he] at himage ⊢
    simp only [Durable.load, himage]
  rw [hread] at hload
  cases hload
  rfl

end Opening

namespace Books

inductive Allows (F : StorageError → Prop) : Books → Answered → Books → Prop
  | replied {b b' : Books} {cat : Catalog} {q : Call} {r : Reply}
      (h : b.answer cat q = .ok (r, b')) : Allows F b ⟨cat, q, .reply r⟩ b'
  | failed {b : Books} {cat : Catalog} {q : Call} {x : StorageError}
      (h : F x ∨ b.answer cat q = .error x) : Allows F b ⟨cat, q, .failed x⟩ b

inductive Recorded (F : StorageError → Prop) : Books → List Answered → Books → Prop
  | nil (b : Books) : Recorded F b [] b
  | cons {b b' b'' : Books} {a : Answered} {as : List Answered} (head : Allows F b a b')
      (tail : Recorded F b' as b'') : Recorded F b (a :: as) b''

theorem Recorded.append {F : StorageError → Prop} {b b' b'' : Books} {as as' : List Answered}
    (h : Recorded F b as b') (h' : Recorded F b' as' b'') : Recorded F b (as ++ as') b'' := by
  induction h with
  | nil b => exact h'
  | cons head tail ih => exact .cons head (ih h')

variable {b : Books} {c : Content}

section Creation

variable {ε : Type} [Engine ε]

def withTables (ts : List TableId) (c : Content) : Content :=
  (ts.map TableId.name).foldl Volatile.Writer.createTable c

theorem Represents.withTables (h : Represents b c) (ts : List TableId) :
    Represents b (withTables ts c) := by
  intro t
  have hfind : ((Books.withTables ts c).find? t.name).getD .empty =
      (c.find? t.name).getD .empty := by
    rw [Books.withTables, Volatile.Writer.find?_foldl_createTable]
    cases c.find? t.name with
    | some table => rfl
    | none => split <;> rfl
  rw [hfind]
  exact h t

theorem ready_withTables (ps : List Panel) (c : Content) :
    Ready (.ofPanels ps) (withTables (TableId.ofPanels ps) c) := by
  intro t ht
  have hmem : t ∈ TableId.ofPanels ps := by
    cases t with
    | shared t => exact List.mem_append_left _ (List.mem_map.2 ⟨t, t.mem_all, rfl⟩)
    | panel p m =>
        have hp : p ∈ ps := Catalog.mem_panels_ofPanels.1 (Catalog.panel_mem_tables.1 ht)
        simp [TableId.ofPanels, m.mem_all, hp]
  have hname : ((TableId.ofPanels ps).map TableId.name).contains t.name = true :=
    List.contains_iff_mem.2 (List.mem_map.2 ⟨t, hmem, rfl⟩)
  rw [SortedMap.contains, withTables, Volatile.Writer.find?_foldl_createTable, if_pos hname]
  cases c.find? t.name <;> rfl

variable [IsolatedEngine ε]

theorem follows_createTables (ts : List TableId) :
    Follows (writers ε) (Catalog.createTables ts) (fun c => .ok ((), withTables ts c)) := by
  induction ts with
  | nil => exact fun c => .pure _ _ c
  | cons t ts ih =>
      intro c
      have hcreate : Computes (writers ε) (Engine.create t.name) c (.ok ())
          (Volatile.Writer.createTable c t.name) :=
        (IsolatedEngine.create_mirrors t.takes_name).computes rfl
      exact hcreate.bind (ih (Volatile.Writer.createTable c t.name))

theorem serves_make (ps : List Panel) :
    Serves (do
      Environment.write (Catalog.createTables (TableId.ofPanels ps))
      Environment.report (.catalogReady (Catalog.ofPanels ps).size
        (Catalog.ofPanels ps).panels.length)
      return .ofPanels ps : StoreM ε Catalog)
      (fun c => .ok (.ofPanels ps, withTables (TableId.ofPanels ps) c)) :=
  (serves_write (follows_createTables (TableId.ofPanels ps))).reporting
    (g := fun _ => Catalog.ofPanels ps) (fun _ => (Reports.report _).bind (.pure _))

theorem init_ok {cat : Catalog} {ps : List Panel} {env env' : Environment ε}
    (hs : Sound env.engine)
    (h : (Catalog.init ps).run env = (.ok cat, env')) :
    cat = .ofPanels ps ∧ (TableId.ofPanels ps).length ≤ env.settings.maxTables ∧
      Sound env'.engine ∧ env'.settings = env.settings ∧
      Engine.committed env'.engine =
        withTables (TableId.ofPanels ps) (Engine.committed env.engine) := by
  by_cases hlimit : env.settings.maxTables < (TableId.ofPanels ps).length
  · simp [Catalog.init, hlimit] at h
  · simp only [Catalog.init, Work.run_bind, Work.run_state, if_neg hlimit] at h
    obtain ⟨hs', hset, hc⟩ := (serves_make ps).ok hs h
    obtain ⟨hcat, hc⟩ := Prod.mk.inj (Except.ok.inj hc)
    exact ⟨hcat.symm, Nat.le_of_not_lt hlimit, hs', hset, hc.symm⟩

theorem init_error {x : StorageError} {ps : List Panel} {env env' : Environment ε}
    (hs : Sound env.engine)
    (h : (Catalog.init ps).run env = (.error x, env')) :
    Sound env'.engine ∧ Engine.committed env'.engine = Engine.committed env.engine ∧
      (ScopeViews.Fault ε x ∨
        x = .tableLimit (TableId.ofPanels ps).length env.settings.maxTables) := by
  by_cases hlimit : env.settings.maxTables < (TableId.ofPanels ps).length
  · simp only [Catalog.init, Work.run_bind, Work.run_state, if_pos hlimit, Work.run_fail] at h
    cases h
    exact ⟨hs, rfl, .inr rfl⟩
  · simp only [Catalog.init, Work.run_bind, Work.run_state, if_neg hlimit] at h
    obtain ⟨hs', hc, hx⟩ := (serves_make ps).error hs h
    refine ⟨hs', hc, hx.imp_right (fun he => ?_)⟩
    cases he

end Creation

section Sessions

variable {ε : Type} [Engine ε] {s : Session ε}

theorem step_call (h : s.scopes = []) (q : Call) :
    s.step (.call q) = s.perform (q.run s.catalog) .reply := by
  have hfree : s.desk.hasWriter = false := by
    rw [Desk.hasWriter, Session.desk, h]
    rfl
  rw [Session.step, Session.performWriting, hfree, Bool.and_false]
  rfl

theorem answered_cons (s : Session ε) (q : Call) (qs : List Call)
    (h : (s.step (.call q)).2.catalog = s.catalog) :
    s.answered (q :: qs) =
      (⟨s.catalog, q, (s.step (.call q)).1⟩ :: ((s.step (.call q)).2.answered qs).1,
        ((s.step (.call q)).2.answered qs).2) := by
  rw [Session.answered, Session.answered, h]
  rfl

variable [IsolatedEngine ε]

structure KeptBy (b : Books) (s : Session ε) : Prop where
  sound : Sound s.environment.engine
  represents : Represents b (Engine.committed s.environment.engine)
  ready : Ready s.catalog (Engine.committed s.environment.engine)
  alone : s.scopes = []

theorem keptBy_start {env : Environment ε} (hs : Sound env.engine)
    (hb : Represents b (Engine.committed env.engine)) {ps : List Panel}
    (h : Session.start env (some ps) = .ok s) : b.KeptBy s ∧ s.catalog = .ofPanels ps := by
  cases hrun : (Catalog.init ps).run env with
  | mk r env' =>
      rw [Session.start, hrun] at h
      cases r with
      | error x => cases h
      | ok cat =>
          obtain ⟨rfl, -, hs', -, hc⟩ := init_ok hs hrun
          have hb' : Represents b (Engine.committed env'.engine) := by
            rw [hc]
            exact hb.withTables _
          have hready : Ready (.ofPanels ps) (Engine.committed env'.engine) := by
            rw [hc]
            exact ready_withTables ps _
          cases h
          exact ⟨⟨hs', hb', hready, rfl⟩, rfl⟩

theorem KeptBy.step (h : b.KeptBy s) (q : Call) :
    ∃ b', Allows (ScopeViews.Fault ε) b ⟨s.catalog, q, (s.step (.call q)).1⟩ b' ∧
      b'.KeptBy (s.step (.call q)).2 ∧ (s.step (.call q)).2.catalog = s.catalog := by
  obtain ⟨r, env', hrun, hs', hready, hr⟩ :=
    keeps_run s.catalog q b s.environment h.sound h.represents h.ready
  rw [step_call h.alone, Session.perform, hrun]
  rcases hr with ⟨x, rfl, hx, hb⟩ | ⟨a, b', rfl, ha, hb⟩
  · exact ⟨b, .failed hx, ⟨hs', hb, hready, h.alone⟩, rfl⟩
  · exact ⟨b', .replied ha, ⟨hs', hb, hready, h.alone⟩, rfl⟩

theorem KeptBy.answered (h : b.KeptBy s) (qs : List Call) :
    ∃ b', Recorded (ScopeViews.Fault ε) b (s.answered qs).1 b' ∧ b'.KeptBy (s.answered qs).2 ∧
      (s.answered qs).1.map Answered.made = qs.map (fun q => (s.catalog, q)) := by
  induction qs generalizing b s with
  | nil => exact ⟨b, .nil b, h, rfl⟩
  | cons q qs ih =>
      obtain ⟨b₁, hallows, hkept, hcat⟩ := h.step q
      obtain ⟨b₂, hrecorded, hkept', hmade⟩ := ih hkept
      rw [answered_cons s q qs hcat]
      refine ⟨b₂, .cons hallows hrecorded, hkept', ?_⟩
      rw [List.map_cons, List.map_cons, hmade, hcat]
      rfl

end Sessions

theorem recorded_volatile {o : Opening} {s : Session Volatile} (h : o.volatile = .ok s) :
    ∃ b, Recorded (ScopeViews.Fault Volatile) empty (s.answered o.calls).1 b ∧
      b.Represents (s.answered o.calls).2.environment.engine.content ∧
      (s.answered o.calls).1.map Answered.made = o.made := by
  obtain ⟨hkept, hcat⟩ := keptBy_start trivial represents_empty h
  obtain ⟨b, hrecorded, hkept', hmade⟩ := hkept.answered o.calls
  rw [hcat] at hmade
  exact ⟨b, hrecorded, hkept'.represents, hmade⟩

section Lives

variable {δ : Type} [Database δ] [LawfulDatabase δ]

theorem keptBy_opened {d : δ} (hb : b.Represents (Database.content d)) {o : Opening}
    {s : Session (DatabaseEngine δ)} (h : o.start d = .ok s) :
    b.KeptBy s ∧ s.catalog = .ofPanels o.panels := by
  refine keptBy_start ?_ hb h
  intro name hn
  exact DatabaseEngine.sound_ofDatabase o.settings d hn

theorem recorded_life {d : δ} (hb : b.Represents (Database.content d)) (os : List Opening) :
    ∃ b', Recorded (ScopeViews.Fault (DatabaseEngine δ)) b (life d os).1 b' ∧
      b'.Represents (Database.content (life d os).2) ∧
      (life d os).1.map Answered.made <+: os.flatMap Opening.made := by
  induction os generalizing b d with
  | nil => exact ⟨b, .nil b, hb, List.nil_prefix⟩
  | cons o os ih =>
      rw [life]
      cases hstart : o.start d with
      | error x => exact ⟨b, .nil b, hb, List.nil_prefix⟩
      | ok s =>
          obtain ⟨hkept, hcat⟩ := keptBy_opened hb hstart
          obtain ⟨b₁, hnow, hkept', hmade⟩ := hkept.answered o.calls
          have hreopened : b₁.Represents (Database.content
              (Database.reopen (s.answered o.calls).2.environment.engine.database)) := by
            rw [LawfulDatabase.content_reopen]
            exact hkept'.represents
          obtain ⟨b₂, hlater, hb₂, hmade'⟩ := ih hreopened
          refine ⟨b₂, hnow.append hlater, hb₂, ?_⟩
          rw [hcat] at hmade
          rw [List.map_append, List.flatMap_cons, hmade]
          exact (List.prefix_append_right_inj o.made).2 hmade'

theorem recorded_from_empty {d : δ} (hd : Database.content d = .empty) (os : List Opening)
    (o : Opening) :
    (∃ b, Recorded (fun x => x.isFull = true ∨ ∃ stage reason, x = .engine stage reason ∧
        DatabaseViews.Fails δ reason) empty (life d os).1 b ∧
      b.Represents (Database.content (life d os).2) ∧
      (life d os).1.map Answered.made <+: os.flatMap Opening.made) ∧
    ∀ s, o.volatile = .ok s →
      ∃ b, Recorded (fun x => x.isFull = true) empty (s.answered o.calls).1 b ∧
        b.Represents (s.answered o.calls).2.environment.engine.content ∧
        (s.answered o.calls).1.map Answered.made = o.made := by
  refine ⟨recorded_life ?_ os, fun s hs => recorded_volatile hs⟩
  rw [hd]
  exact represents_empty

def threeOpenings : List Opening :=
  [{ settings := {}, panels := [.browsers],
      calls := [.assignKey .browsers "Firefox", .putLabel .browsers 1 "Fire\x00fox",
        .addHits .browsers 1 2147483647] },
    { settings := {}, panels := [.hosts],
      calls := [.assignKey .browsers "Chrome", .assignAgentKey "Chrome"] },
    { settings := {}, panels := [.hosts, .browsers],
      calls := [.assignKey .browsers "Chrome", .findKey .browsers "Firefox", .label .browsers 1,
        .addHits .browsers 1 1, .dump .browsers, .assignAgentKey "Chrome"] }]

theorem recorded_from_empty_threeOpenings :
    Database.content ({} : TableFile) = .empty ∧
    (∃ b, Recorded (fun x => x.isFull = true ∨ ∃ stage reason, x = .engine stage reason ∧
        DatabaseViews.Fails TableFile reason) empty (life ({} : TableFile) threeOpenings).1 b ∧
      b.Represents (Database.content (life ({} : TableFile) threeOpenings).2) ∧
      (life ({} : TableFile) threeOpenings).1.map Answered.made <+:
        threeOpenings.flatMap Opening.made) ∧
    (life ({} : TableFile) threeOpenings).1.map Answered.answer =
      [.reply (.maybeInt (some 1)), .reply .done, .reply (.int 2147483647),
        .reply (.maybeInt none), .reply (.maybeInt (some 1)),
        .reply (.maybeInt (some 2)), .reply (.maybeInt (some 1)), .reply (.maybeText (some "Fire")),
        .reply (.int 2147483647),
        .reply (.maybeDump (some ⟨.browsers, .integer, [⟨1, .int 2147483647⟩]⟩)),
        .reply (.maybeInt (some 1))] :=
  ⟨rfl, (recorded_from_empty (d := ({} : TableFile)) rfl threeOpenings
    { settings := {} }).1, by decide +kernel⟩

end Lives

end Books

end TrafficStore
