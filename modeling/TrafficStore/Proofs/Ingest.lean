import TrafficStore.Proofs.Counting
import TrafficStore.Proofs.Runs

namespace TrafficStore

open ScopeViews Books LogRecord Allocator

def TableId.Lists (t : TableId) (c : Content) (es : List (t.Index × t.Cell)) : Prop :=
  (((c.find? t.name).getD .empty).entries.map
    (fun r => (r.1, t.cellKind.format.decode r.2))).Perm
      (es.map (fun e => (t.keyKind.bytes e.1, .ok e.2)))

theorem Holds.lists {k : KeyKind} {v : CellKind} {m : SortedMap k.Carrier v.Carrier} {table : Table}
    (h : Holds k v m table) {es : List (k.Carrier × v.Carrier)} (hes : m.entries.Perm es) :
    (table.entries.map (fun r => (r.1, v.format.decode r.2))).Perm
      (es.map (fun e => (k.bytes e.1, .ok e.2))) := by
  refine List.Perm.trans ?_ (hes.map _)
  have hrecords : (table.entries.map (fun r => (r.1, v.format.decode r.2))).Nodup :=
    List.pairwise_map.2 (List.Pairwise.imp (fun hne he => hne (Prod.mk.inj he).1)
      (List.pairwise_map.1 table.nodup_keys))
  have hcells : (m.entries.map
      (fun e => (k.bytes e.1, (.ok e.2 : Except FormatFault v.Carrier)))).Nodup :=
    List.pairwise_map.2 (List.Pairwise.imp
      (fun hne he => hne (KeyKind.bytes_injective (Prod.mk.inj he).1))
      (List.pairwise_map.1 m.nodup_keys))
  rw [List.perm_ext_iff_of_nodup hrecords hcells]
  intro x
  rw [List.mem_map, List.mem_map]
  constructor
  · rintro ⟨r, hr, rfl⟩
    obtain ⟨a, c, ha, hc, hd⟩ := h.cell_of_mem hr
    exact ⟨(a, c), SortedMap.find?_eq_some_iff.1 hc, by rw [ha, hd]⟩
  · rintro ⟨⟨a, c⟩, he, rfl⟩
    obtain ⟨bs, hbs, hd⟩ := h.mem_of_find? (SortedMap.find?_eq_some_iff.2 he)
    exact ⟨(k.bytes a, bs), hbs, by rw [hd]⟩

namespace Ingest

def entries (rs : List LogRecord) : (t : TableId) → List (t.Index × t.Cell)
  | .panel p .keyMap => (keysOf p rs).map (fun key => (key, idOf (keysOf p rs) key))
  | .panel p .dataMap => (keysOf p rs).map (fun key => (idOf (keysOf p rs) key, beforeNul key))
  | .panel p .hits => (keysOf p rs).map (fun key =>
      (idOf (keysOf p rs) key, clampInt (occurrences p key rs).length))
  | .panel p .bandwidth => (keysOf p rs).map (fun key =>
      (idOf (keysOf p rs) key, clampWord (bytesOf (occurrences p key rs))))
  | .shared .generalStats =>
      if rs = [] then []
      else [(totalRequests, clampWord rs.length), (totalBytes, clampWord (bytesOf rs))]
  | _ => []

structure Counted (cat : Catalog) (rs : List LogRecord) (c : Content) : Prop where
  bounded : ∀ p, (keysOf p rs).length ≤ maxId
  stocked : Stocked cat.tables c
  lists : ∀ t : TableId, t.Lists c (entries rs t)

theorem numbers_perm {m : SortedMap String Int32} {keys : List String} (h : Numbers m keys) :
    m.entries.Perm (keys.map (fun key => (key, idOf keys key))) := by
  have hes : (keys.map (fun key => (key, idOf keys key))).Nodup :=
    List.pairwise_map.2 (h.nodup.imp (fun hne he => hne (Prod.mk.inj he).1))
  rw [List.perm_ext_iff_of_nodup m.nodup_entries hes]
  rintro ⟨key, id⟩
  rw [← SortedMap.find?_eq_some_iff, h.find, List.mem_map]
  constructor
  · intro hid
    split at hid
    · next hkey => exact ⟨key, hkey, by rw [Option.some.inj hid]⟩
    · cases hid
  · rintro ⟨k, hk, he⟩
    obtain ⟨rfl, rfl⟩ := Prod.mk.inj he
    rw [if_pos hk]

theorem stats_perm {rs : List LogRecord} {m : SortedMap String UInt64}
    (h : ∀ name, m.find? name = (Tally.uniform rs).stat name) :
    m.entries.Perm (if rs = [] then []
      else [(totalRequests, clampWord rs.length), (totalBytes, clampWord (bytesOf rs))]) := by
  by_cases hrs : rs = []
  · subst hrs
    have hm : m = .empty :=
      SortedMap.ext_find? (fun name =>
        (h name).trans (Tally.of_empty (.shared .generalStats) name).symm)
    rw [hm]
    exact .nil
  · have hne : totalRequests ≠ totalBytes := by decide
    rw [if_neg hrs, List.perm_ext_iff_of_nodup m.nodup_entries (by simp [hne])]
    rintro ⟨name, n⟩
    rw [← SortedMap.find?_eq_some_iff, h name, Tally.stat, Tally.uniform, noted, noted,
      if_neg hrs, if_neg hrs]
    simp only [List.mem_cons, Prod.mk.injEq, List.not_mem_nil, or_false]
    by_cases hr : name = totalRequests
    · simp [hr, hne, Tally.requestsOf, eq_comm]
    · by_cases hb : name = totalBytes
      · simp [hb, hne.symm, Tally.totalOf, eq_comm]
      · simp [hr, hb]

theorem entries_perm {rs : List LogRecord} {b : Books} (h : (Tally.uniform rs).Of b) (t : TableId) :
    (b t).entries.Perm (entries rs t) := by
  have ht := h t
  have hempty : ∀ {κ ν} [Ordered κ] {m : SortedMap κ ν}, m = .empty → m.entries.Perm [] :=
    fun hm => hm ▸ .nil
  have hindexed : ∀ {ν p} {m : SortedMap Int32 ν} {g : String → List LogRecord → ν},
      Indexed (keysOf p rs) m (perKey g p rs) →
      m.entries.Perm ((keysOf p rs).map
        (fun key => (idOf (keysOf p rs) key, g key (occurrences p key rs)))) :=
    fun {_ p _ _} hm => hm.entries_perm (h.numbers p).nodup (h.bounded p)
      (fun _ hkey => perKey_of_mem hkey)
  cases t with
  | shared t =>
      cases t with
      | generalStats => exact stats_perm ht
      | _ => exact hempty ht
  | panel p metric =>
      cases metric with
      | keyMap => exact numbers_perm ht
      | dataMap | hits | bandwidth => exact hindexed ht
      | _ => exact hempty ht

theorem counted_of_keeping {cat : Catalog} {rs : List LogRecord} {c : Content}
    (h : Keeping cat (Tally.uniform rs).Of c) : Counted cat rs c := by
  obtain ⟨hstocked, b, hb, hof⟩ := h
  exact ⟨hof.bounded, hstocked, fun t => (hb t).lists (entries_perm hof t)⟩

theorem recordsOf_ofPanels (ps : List Panel) (text : String) :
    recordsOf (Catalog.ofPanels ps).panels text = recordsOf ps text :=
  List.filter_congr (fun r _ => by simp only [Catalog.mem_panels_ofPanels])

theorem length_recordsOf_le (ps : List Panel) (text : String) :
    (recordsOf ps text).length ≤ (Text.textLines text.toList).length :=
  Nat.le_trans (List.length_filter_le _ _) (List.length_filterMap_le _ _)

structure Feeds {ε : Type} [Engine ε] (F : StorageError → Prop) (s : Session ε) (ps : List Panel)
    (text : String) : Prop where
  catalog : s.catalog = .ofPanels ps
  counts : ∃ r env, (run s.catalog (Text.Utf8.encode text)).run s.environment = (r, env) ∧
    ((∃ x, r = .error (.storage x) ∧
        (F x ∨ ∃ p ∈ ps, x = .idsExhausted (TableId.panel p .keyMap).name ∧
          maxId < (keysOf p (recordsOf ps text)).length)) ∨
      r = .ok (recordsOf ps text).length ∧
        Counted s.catalog (recordsOf ps text) (Engine.committed env.engine) ∧
        ∃ o env', (Overview.take s.catalog).run env = (o, env') ∧
          ((∃ x, o = .error x ∧ F x) ∨
            o = .ok (.ofRecords s.catalog.panels (recordsOf ps text))))
  fits : (clampWord (recordsOf ps text).length).toNat = (recordsOf ps text).length
  others : ∀ text' : String, (∀ l ∈ Text.textLines text'.toList, Readable l) →
    recordsOf ps text' = recordsOf ps text →
    ((run s.catalog (Text.Utf8.encode text')).run s.environment).1 =
        ((run s.catalog (Text.Utf8.encode text)).run s.environment).1 ∧
      ((run s.catalog (Text.Utf8.encode text')).run s.environment).2.engine =
        ((run s.catalog (Text.Utf8.encode text)).run s.environment).2.engine

section Start

variable {ε : Type} [Engine ε] [IsolatedEngine ε] {env : Environment ε} {s : Session ε}
  {ps : List Panel} {text : String}

theorem keeping_start (hs : Sound env.engine) (hempty : Engine.committed env.engine = .empty)
    (hstart : Session.start env (some ps) = .ok s) :
    s.catalog = .ofPanels ps ∧ Sound s.environment.engine ∧
      Keeping s.catalog (Tally.uniform []).Of (Engine.committed s.environment.engine) := by
  have hrep : Books.empty.Represents (Engine.committed env.engine) := by
    rw [hempty]
    exact represents_empty
  obtain ⟨_, hcat⟩ := keptBy_start hs hrep hstart
  have hmade : Keeping (.ofPanels ps) (Tally.uniform []).Of
      (withTables (TableId.ofPanels ps) (Engine.committed env.engine)) := by
    refine ⟨?_, .empty, hrep.withTables _, Tally.of_empty⟩
    rw [hempty]
    refine (Stocked.empty.withTables (TableId.ofPanels ps)).congr (fun t => ?_)
    rw [List.nil_append, TableId.mem_ofPanels, Catalog.mem_tables_ofPanels]
  have hhas := Session.has_start hs hmade hstart
  rw [hcat]
  exact ⟨rfl, hhas.sound, hhas.holds⟩

theorem feeds_start (hs : Sound env.engine) (hempty : Engine.committed env.engine = .empty)
    (hstart : Session.start env (some ps) = .ok s)
    (hlines : (Text.textLines text.toList).length ≤ wordMax)
    (hread : ∀ l ∈ Text.textLines text.toList, Readable l) :
    Feeds (ScopeViews.Fault ε) s ps text := by
  obtain ⟨hcat, hs', hkeeping⟩ := keeping_start hs hempty hstart
  have hrecords : ∀ text, recordsOf s.catalog.panels text = recordsOf ps text := fun text => by
    rw [hcat, recordsOf_ofPanels]
  have hlength := Nat.le_trans (length_recordsOf_le ps text) hlines
  refine ⟨hcat, ?_, by rw [toNat_clampWord, Nat.min_eq_left hlength], ?_⟩
  · obtain ⟨r, env', hrun, hs₁, hr⟩ := leads_run hread s.environment hs' hkeeping
    refine ⟨r, env', hrun, ?_⟩
    rw [hrecords, Tally.foldl_add_uniform, List.nil_append] at hr
    cases r with
    | error x =>
        obtain ⟨y, rfl, hy⟩ := hr
        refine .inl ⟨y, rfl, hy.imp_right ?_⟩
        rintro ⟨p, hp, rfl, hlt⟩
        rw [hcat] at hp
        exact ⟨p, Catalog.mem_panels_ofPanels.1 hp, rfl, hlt⟩
    | ok n =>
        obtain ⟨rfl, hkept⟩ := hr
        refine .inr ⟨rfl, counted_of_keeping hkept, ?_⟩
        have ht : .shared .generalStats ∈ s.catalog.tables := by
          rw [hcat]
          exact Catalog.mem_tables_ofPanels.2 (fun _ _ he => nomatch he)
        obtain ⟨o, env₂, htake, _, ho⟩ := Overview.leads_take ht env' hs₁ hkept
        refine ⟨o, env₂, htake, ?_⟩
        cases o with
        | error x => exact .inl ⟨x, rfl, ho⟩
        | ok o => exact .inr (congrArg Except.ok ho.1)
  · intro text' hread' he
    have halike := alike_run (ε := ε) s.catalog hread
    have halike' := alike_run (ε := ε) s.catalog hread'
    rw [hrecords] at halike halike'
    rw [he] at halike'
    exact halike'.unique halike s.environment

end Start

theorem feeds_from_empty {δ : Type} [Database δ] [LawfulDatabase δ] {d : δ}
    (hd : Database.content d = .empty) (o : Opening) {text : String}
    (hlines : (Text.textLines text.toList).length ≤ wordMax)
    (hread : ∀ l ∈ Text.textLines text.toList, Readable l) :
    (∀ s, o.volatile = .ok s → Feeds (fun x => x.isFull = true) s o.panels text) ∧
    ∀ s, o.start d = .ok s →
      Feeds (fun x => x.isFull = true ∨ ∃ stage reason, x = .engine stage reason ∧
        DatabaseViews.Fails δ reason) s o.panels text := by
  have hs := @sound_opened δ _ _ o.settings d
  exact ⟨fun s hstart => feeds_start trivial rfl hstart hlines hread,
    fun s hstart => feeds_start (@hs) hd hstart hlines hread⟩

def hostsOnly : Opening where
  settings := {}
  panels := [.hosts]

def mixedLog : String :=
  "HOSTS\tlocal\t100\r\n \r\nREQUESTS\t/a\t7\nhosts\tlocal\x00host\nHOSTS\tlocal\t5"

theorem feeds_from_empty_mixedLog :
    Database.content ({} : TableFile) = .empty ∧
    (Text.textLines mixedLog.toList).length = 5 ∧
    (∀ l ∈ Text.textLines mixedLog.toList, Readable l) ∧
    recordsOf [.hosts] mixedLog =
      [⟨.hosts, "local", 100⟩, ⟨.hosts, "local\x00host", 0⟩, ⟨.hosts, "local", 5⟩] ∧
    (∀ s, hostsOnly.start ({} : TableFile) = .ok s →
      Feeds (fun x => x.isFull = true ∨ ∃ stage reason, x = .engine stage reason ∧
        DatabaseViews.Fails TableFile reason) s [.hosts] mixedLog) ∧
    (hostsOnly.start ({} : TableFile)).toOption.map (fun s =>
      let r := (run s.catalog (Text.Utf8.encode mixedLog)).run s.environment
      (r.1.toOption, ((Overview.take s.catalog).run r.2).1.toOption)) =
        some (some 3, some ⟨3, 105, [⟨.hosts, 2, 0⟩]⟩) := by
  have hread : ∀ l ∈ Text.textLines mixedLog.toList, Readable l := by decide +kernel
  exact ⟨rfl, by decide +kernel, hread, by decide +kernel,
    (feeds_from_empty (d := ({} : TableFile)) rfl hostsOnly (by decide +kernel) hread).2,
    by decide +kernel⟩

end Ingest

end TrafficStore
