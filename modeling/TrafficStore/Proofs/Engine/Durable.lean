import TrafficStore.Engine.Durable
import TrafficStore.Proofs.Engine.Isolation

namespace TrafficStore

class DatabaseViews (δ : Type) [Database δ] where
  seen : Database.ReadTxn δ → Content
  draft : Database.WriteTxn δ → Content
  named : Database.Handle δ → String
  rows : Database.Handle δ → Table
  Fails : String → Prop

namespace DatabaseViews

variable {δ α : Type} [Database δ] [DatabaseViews δ]

def Yields (m : Work δ String α) (d : δ) (good : α → δ → Prop) : Prop :=
  match m.run d with
  | (.ok a, d') => good a d'
  | (.error x, d') => Fails δ x ∧ Database.content d' = Database.content d

end DatabaseViews

open DatabaseViews in
/-- Snapshot reads, one writer's draft, commits that publish the draft or nothing, tables made by
opening them for writing, records in the order of their keys, files that keep what was committed. -/
class LawfulDatabase (δ : Type) [Database δ] extends DatabaseViews δ where
  mem_tableNames : ∀ (d : δ) {name}, name ≠ "" →
    (name ∈ Database.tableNames d ↔ (Database.content d).contains name = true)
  content_reopen : ∀ d : δ, Database.content (Database.reopen d) = Database.content d
  yields_fileSize : ∀ d : δ,
    Yields Database.fileSize d (fun _ d' => Database.content d' = Database.content d)
  yields_beginRead : ∀ d : δ, Yields Database.beginRead d
    (fun s d' => Database.content d' = Database.content d ∧ seen s = Database.content d)
  yields_beginWrite : ∀ deferred (d : δ), Yields (Database.beginWrite deferred) d
    (fun w d' => Database.content d' = Database.content d ∧ draft w = Database.content d)
  openRead_eq : ∀ {name}, name ≠ "" → ∀ s (d : δ),
    match (Database.openRead name).run (s, d) with
    | (.ok h, (s', d')) => Database.content d' = Database.content d ∧ seen s' = seen s ∧
        (seen s).find? name = some (rows h)
    | (.error (.missing n), (s', d')) => Database.content d' = Database.content d ∧
        seen s' = seen s ∧ n = name ∧ (seen s).find? name = none
    | (.error (.broken x), (_, d')) => Database.content d' = Database.content d ∧ Fails x
  openWrite_eq : ∀ {name}, name ≠ "" → ∀ w (d : δ),
    match (Database.openWrite name).run (w, d) with
    | (.ok h, (w', d')) => Database.content d' = Database.content d ∧ named h = name ∧
        rows h = ((draft w).find? name).getD .empty ∧
        draft w' = if (draft w).contains name then draft w else (draft w).insert name .empty
    | (.error (.missing _), _) => False
    | (.error (.broken x), (_, d')) => Database.content d' = Database.content d ∧ Fails x
  yields_find : ∀ h key (d : δ), Yields (Database.find h key) d
    (fun v d' => Database.content d' = Database.content d ∧ v = (rows h).find? key)
  yields_count : ∀ h (d : δ), Yields (Database.count h) d
    (fun n d' => Database.content d' = Database.content d ∧ n = (rows h).size)
  yields_records : ∀ h (d : δ), Yields (Database.records h) d
    (fun rs d' => Database.content d' = Database.content d ∧ rs = (rows h).entries)
  insert_eq : ∀ h key value w (d : δ), (draft w).find? (named h) = some (rows h) →
    match (Database.insert h key value).run (w, d) with
    | (.ok (), (w', d')) => Database.content d' = Database.content d ∧
        draft w' = (draft w).insert (named h) ((rows h).insert key value)
    | (.error x, (_, d')) => Database.content d' = Database.content d ∧ Fails x
  yields_commit : ∀ w (d : δ),
    Yields (Database.commit w) d (fun _ d' => Database.content d' = draft w)

instance : LawfulDatabase TableFile where
  seen c := c
  draft c := c
  named h := h.1
  rows h := h.2
  Fails _ := False
  mem_tableNames _ _ _ := SortedMap.mem_keys_iff
  content_reopen _ := rfl
  yields_fileSize _ := rfl
  yields_beginRead _ := ⟨rfl, rfl⟩
  yields_beginWrite _ _ := ⟨rfl, rfl⟩
  openRead_eq {name} _ c d := by
    cases h : c.find? name with
    | some t =>
        simp [Database.openRead, TableFile.openRead, h]
    | none =>
        simp [Database.openRead, TableFile.openRead, h]
  openWrite_eq {name} _ c d := by
    cases h : c.find? name with
    | some t =>
        simp [Database.openWrite, TableFile.openWrite, SortedMap.contains, h]
    | none =>
        simp [Database.openWrite, TableFile.openWrite, SortedMap.contains, h]
  yields_find _ _ _ := ⟨rfl, rfl⟩
  yields_count _ _ := ⟨rfl, rfl⟩
  yields_records _ _ := ⟨rfl, rfl⟩
  insert_eq _ _ _ _ _ _ := ⟨rfl, rfl⟩
  yields_commit _ _ := rfl

namespace DatabaseEngine

open DatabaseViews LawfulDatabase

variable {δ τ α β ξ : Type} [Database δ] [LawfulDatabase δ]

instance : ScopeViews (DatabaseEngine δ) where
  seen := seen
  draft w := draft w.txn
  Sound e := ∀ {name}, name ≠ "" →
    (name ∈ e.known ↔ (Database.content e.database).contains name = true)
  Owns e w := ∀ {name}, name ≠ "" →
    (e.isKnown w name = true ↔ (draft w.txn).contains name = true)
  Fault x := x.isFull = true ∨ ∃ stage reason, x = .engine stage reason ∧ Fails δ reason
  Takes name := name ≠ ""

open ScopeViews

theorem keeps_database {e : DatabaseEngine δ} {d : δ}
    (h : Database.content d = Database.content e.database) :
    Keeps e { e with database := d } where
  sound hs _ hn := (hs hn).trans (by rw [h])
  committed := h
  owns _ := id

theorem faults_engine {stage : Stage} {reason : String} (h : Fails δ reason) :
    Faults (DatabaseEngine δ) (.error (.engine stage reason) : Except StorageError α) :=
  ⟨_, rfl, .inr ⟨stage, reason, rfl, h⟩⟩

theorem onDatabase_eq {m : Work δ String α} {e : DatabaseEngine δ} {good : α → δ → Prop}
    (stage : Stage) (h : Yields m e.database good) :
    ∃ r d, (onDatabase stage m).run e = (r, { e with database := d }) ∧
      (Faults (DatabaseEngine δ) r ∧ Database.content d = Database.content e.database ∨
        ∃ a, r = .ok a ∧ good a d) := by
  refine ⟨(m.run e.database).1.mapError (.engine stage), (m.run e.database).2, rfl, ?_⟩
  unfold Yields at h
  cases hm : m.run e.database with
  | mk r d =>
      rw [hm] at h
      cases r with
      | ok a => exact .inr ⟨a, rfl, h⟩
      | error x => exact .inl ⟨faults_engine h.1, h.2⟩

theorem mirrors_onHandle {v : Window (DatabaseEngine δ) τ} {m : Work δ String α} {a : α}
    (stage : Stage) (hvalid : ∀ {e : DatabaseEngine δ} {d s}, v.valid e s →
      v.valid { e with database := d } s)
    (h : ∀ d : δ, Yields m d (fun b d' => Database.content d' = Database.content d ∧ b = a)) :
    Mirrors v (onHandle stage m) (pure a) := by
  intro s e _ hv
  obtain ⟨r, d, hrun, hr⟩ := onDatabase_eq stage (h e.database)
  refine ⟨r, s, { e with database := d }, ?_, ?_⟩
  · rw [onHandle, Work.run_within, hrun]
  · rcases hr with ⟨hf, hc⟩ | ⟨b, rfl, hc, rfl⟩
    · exact ⟨keeps_database hc, .inl hf⟩
    · exact ⟨keeps_database hc, .inr ⟨rfl, hvalid hv⟩⟩

theorem mirrors_openRead {table : String} (ht : table ≠ "") (stage : Stage)
    {f : Database.Handle δ → ScopeM (DatabaseEngine δ) (Database.ReadTxn δ) α} {g : Table → α}
    (hf : ∀ h, Mirrors (readers (DatabaseEngine δ)) (f h) (pure (g (rows h)))) :
    Mirrors (readers (DatabaseEngine δ)) (openRead stage table >>= f) (g <$> Copy.table table) := by
  intro s e hs _
  have hopen := openRead_eq ht s e.database
  cases hrun : (Database.openRead table).run (s, e.database) with
  | mk r p =>
      obtain ⟨s₁, d₁⟩ := p
      rw [hrun] at hopen
      have hopened : (openRead stage table).run (s, e) =
          (r.mapError (tableFault stage), (s₁, { e with database := d₁ })) := by
        rw [openRead, inTxn, Work.run_within, Work.run_mapFault, hrun]
      cases r with
      | ok h =>
          obtain ⟨hc, hseen, hrows⟩ := hopen
          have hk := keeps_database hc
          obtain ⟨r₂, s₂, e₂, hrun₂, hk₂, h₂⟩ := hf h s₁ _ (hk.sound hs) trivial
          refine ⟨r₂, s₂, e₂, by rw [Work.run_bind, hopened]; exact hrun₂, hk.trans hk₂, ?_⟩
          rcases h₂ with h₂ | ⟨h₂, _⟩
          · exact .inl h₂
          · refine .inr ⟨?_, trivial⟩
            change (Except.ok (g (rows h)), seen s₁) = _ at h₂
            change (g <$> Copy.table table).run (DatabaseViews.seen s) = _
            rw [Work.run_map, Copy.run_table_some hrows, ← h₂, hseen]
      | error x =>
          refine ⟨.error (tableFault stage x), s₁, { e with database := d₁ },
            by rw [Work.run_bind, hopened]; rfl, ?_⟩
          cases x with
          | missing n =>
              obtain ⟨hc, hseen, rfl, hnone⟩ := hopen
              refine ⟨keeps_database hc, .inr ⟨?_, trivial⟩⟩
              change (g <$> Copy.table _).run (DatabaseViews.seen s) = _
              rw [Work.run_map, Copy.run_table_none hnone]
              exact congrArg (Prod.mk _) hseen.symm
          | broken x =>
              obtain ⟨hc, hx⟩ := hopen
              exact ⟨keeps_database hc, .inl (faults_engine hx)⟩

theorem readsAs_reading : ReadsAs (readers (DatabaseEngine δ)) reading where
  find ht key := mirrors_openRead ht .read
    (fun h => mirrors_onHandle .read (fun _ => trivial) (yields_find h key))
  count ht := mirrors_openRead ht .stat
    (fun h => mirrors_onHandle .stat (fun _ => trivial) (yields_count h))
  scan ht := mirrors_openRead ht .scan
    (fun h => mirrors_onHandle .scan (fun _ => trivial) (yields_records h))

theorem openWrite_cases {table : String} (ht : table ≠ "") (stage : Stage) (w : Writer δ)
    (e : DatabaseEngine δ) :
    ∃ r txn d, (openWrite stage table).run (w, e) =
        (r, ({ w with txn }, { e with database := d })) ∧
      Database.content d = Database.content e.database ∧
      (Faults (DatabaseEngine δ) r ∨ ∃ h, r = .ok h ∧ named h = table ∧
        rows h = ((draft w.txn).find? table).getD .empty ∧
        draft txn = if (draft w.txn).contains table then draft w.txn
          else (draft w.txn).insert table .empty) := by
  have hopen := openWrite_eq ht w.txn e.database
  cases hrun : (Database.openWrite table).run (w.txn, e.database) with
  | mk r p =>
      obtain ⟨txn, d⟩ := p
      rw [hrun] at hopen
      refine ⟨r.mapError (tableFault stage), txn, d, ?_, ?_⟩
      · rw [openWrite, Writer.inTxn, Work.run_within, inTxn, Work.run_within, Work.run_mapFault,
          hrun]
      · cases r with
        | ok h =>
            obtain ⟨hc, hnamed, hrows, hdraft⟩ := hopen
            exact ⟨hc, .inr ⟨h, rfl, hnamed, hrows, hdraft⟩⟩
        | error x =>
            cases x with
            | missing n => exact hopen.elim
            | broken x => exact ⟨hopen.1, .inl (faults_engine hopen.2)⟩

theorem mirrors_openKnown {table : String} (ht : table ≠ "") (stage : Stage)
    {f : Database.Handle δ → ScopeM (DatabaseEngine δ) (Writer δ) α} {g : Table → CopyM α}
    (hf : ∀ h w (e : DatabaseEngine δ), Sound e → Owns e w → named h = table →
      (draft w.txn).find? table = some (rows h) →
      ∃ r w' e', (f h).run (w, e) = (r, (w', e')) ∧ Keeps e e' ∧ (Faults (DatabaseEngine δ) r ∨
        (g (rows h)).run (draft w.txn) = (r, draft w'.txn) ∧ Owns e' w')) :
    Mirrors (writers (DatabaseEngine δ)) (openKnown stage table >>= f)
      (Copy.table table >>= g) := by
  intro w e hs hw
  have hw : Owns e w := hw
  change ∃ r w' e', _ ∧ _ ∧ (_ ∨ (Copy.table table >>= g).run (DatabaseViews.draft w.txn) = _ ∧ _)
  by_cases hknown : e.isKnown w table = true
  · obtain ⟨t, hfind⟩ := SortedMap.contains_iff.1 ((hw ht).1 hknown)
    obtain ⟨r, txn, d, hrun, hc, hr⟩ := openWrite_cases ht stage w e
    have hopened : (openKnown stage table).run (w, e) =
        (r, ({ w with txn }, { e with database := d })) := by
      rw [openKnown, Work.run_bind, Work.run_state]
      simp only [if_pos hknown]
      exact hrun
    rcases hr with ⟨x, rfl, hx⟩ | ⟨h, rfl, hnamed, hrows, hdraft⟩
    · exact ⟨.error x, _, _, by rw [Work.run_bind, hopened], keeps_database hc, .inl ⟨x, rfl, hx⟩⟩
    · rw [if_pos ((hw ht).1 hknown)] at hdraft
      rw [hfind, Option.getD_some] at hrows
      have hk := keeps_database hc
      have how : Owns { e with database := d } ({ w with txn } : Writer δ) := by
        intro name hn
        rw [hdraft]
        exact hw hn
      obtain ⟨r₂, w₂, e₂, hrun₂, hk₂, h₂⟩ := hf h { w with txn } { e with database := d }
        (hk.sound hs) how hnamed (by rw [hdraft, hfind, hrows])
      refine ⟨r₂, w₂, e₂, by rw [Work.run_bind, hopened]; exact hrun₂, hk.trans hk₂, ?_⟩
      rcases h₂ with h₂ | ⟨h₂, how₂⟩
      · exact .inl h₂
      · refine .inr ⟨?_, how₂⟩
        rw [Work.run_bind, Copy.run_table_some hfind, ← hrows, ← hdraft]
        exact h₂
  · have hnone : (draft w.txn).find? table = none := by
      rw [← SortedMap.contains_eq_false_iff, Bool.eq_false_iff]
      exact fun h => hknown ((hw ht).2 h)
    refine ⟨.error (.unknownTable table), w, e, ?_, .refl e, .inr ⟨?_, hw⟩⟩
    · rw [Work.run_bind, openKnown, Work.run_bind, Work.run_state]
      simp only [if_neg hknown, Work.run_fail]
    · rw [Work.run_bind, Copy.run_table_none hnone]
      rfl

theorem mirrors_openKnown_read {table : String} (ht : table ≠ "") (stage : Stage)
    {m : Database.Handle δ → Work δ String α} {g : Table → α}
    (hm : ∀ h (d : δ), Yields (m h) d
      (fun a d' => Database.content d' = Database.content d ∧ a = g (rows h))) :
    Mirrors (writers (DatabaseEngine δ))
      (openKnown stage table >>= fun h => onHandle stage (m h)) (g <$> Copy.table table) := by
  rw [← bind_pure_comp]
  refine mirrors_openKnown ht stage ?_
  intro h w e hs hw _ _
  exact mirrors_onHandle (v := writers (DatabaseEngine δ)) stage id (hm h) w e hs hw

theorem readsAs_rereading : ReadsAs (writers (DatabaseEngine δ)) rereading where
  find ht key := mirrors_openKnown_read ht .read (fun h => yields_find h key)
  count ht := mirrors_openKnown_read ht .stat yields_count
  scan ht := mirrors_openKnown_read ht .scan yields_records

theorem mirrors_put {table : String} (ht : table ≠ "") (key value : Bytes) :
    Mirrors (writers (DatabaseEngine δ)) (put table key value) (Copy.put table key value) := by
  refine mirrors_openKnown ht .write ?_
  intro h w e hs hw hnamed hfind
  have hins := insert_eq h key value w.txn e.database (hnamed ▸ hfind)
  cases hrun : (Database.insert h key value).run (w.txn, e.database) with
  | mk r p =>
      obtain ⟨txn, d⟩ := p
      rw [hrun] at hins
      refine ⟨r.mapError (.engine .write), { w with txn }, { e with database := d }, ?_, ?_⟩
      · rw [Writer.inTxn, Work.run_within, inTxn, Work.run_within, Work.run_mapFault, hrun]
      · cases r with
        | error x => exact ⟨keeps_database hins.1, .inl (faults_engine hins.2)⟩
        | ok u =>
            obtain ⟨hc, hdraft⟩ := hins
            rw [hnamed] at hdraft
            refine ⟨keeps_database hc, .inr ⟨?_, ?_⟩⟩
            · rw [hdraft]
              rfl
            · intro name hn
              rw [hdraft, SortedMap.contains_insert]
              by_cases he : name = table
              · subst he
                simp only [decide_true, Bool.true_or, iff_true]
                exact (hw hn).2 (SortedMap.contains_iff.2 ⟨_, hfind⟩)
              · rw [decide_eq_false he, Bool.false_or]
                exact hw hn

omit [LawfulDatabase δ] in
theorem isKnown_noteCreated (e : DatabaseEngine δ) (w : Writer δ) (table name : String) :
    e.isKnown (w.noteCreated table) name = (decide (name = table) || e.isKnown w name) := by
  rw [isKnown, isKnown, Writer.noteCreated]
  by_cases h : name = table <;> simp [h, List.contains_eq_mem]

theorem mirrors_create {table : String} (ht : table ≠ "") :
    Mirrors (writers (DatabaseEngine δ)) (create table) (Copy.create table) := by
  intro w e _ hw
  have hw : Owns e w := hw
  obtain ⟨r, txn, d, hrun, hc, hr⟩ := openWrite_cases ht .createTable w e
  rcases hr with ⟨x, rfl, hx⟩ | ⟨h, rfl, _, _, hdraft⟩
  · exact ⟨.error x, _, _, by rw [create, Work.run_bind, hrun], keeps_database hc,
      .inl ⟨x, rfl, hx⟩⟩
  · have hrun' : (create table).run (w, e) = (.ok (),
        if e.isKnown w table then (({ w with txn } : Writer δ), { e with database := d })
        else (({ w with txn } : Writer δ).noteCreated table, { e with database := d })) := by
      rw [create, Work.run_bind, hrun]
      rfl
    by_cases hknown : e.isKnown w table = true
    · rw [if_pos hknown] at hrun'
      rw [if_pos ((hw ht).1 hknown)] at hdraft
      refine ⟨.ok (), _, _, hrun', keeps_database hc, .inr ⟨?_, ?_⟩⟩
      · change (Except.ok (), if (draft w.txn).contains table then _ else _) = (_, draft txn)
        rw [if_pos ((hw ht).1 hknown), hdraft]
        rfl
      · intro name hn
        change _ ↔ (draft txn).contains name = true
        rw [hdraft]
        exact hw hn
    · have hno : ¬ (draft w.txn).contains table = true := fun h => hknown ((hw ht).2 h)
      rw [if_neg hknown] at hrun'
      rw [if_neg hno] at hdraft
      refine ⟨.ok (), _, _, hrun', keeps_database hc, .inr ⟨?_, ?_⟩⟩
      · change (Except.ok (), if (draft w.txn).contains table then _ else _) = (_, draft txn)
        rw [if_neg hno, hdraft]
        rfl
      · intro name hn
        change isKnown _ (({ w with txn } : Writer δ).noteCreated table) name = true ↔
          (draft txn).contains name = true
        rw [isKnown_noteCreated, hdraft, SortedMap.contains_insert]
        by_cases he : name = table
        · simp [he]
        · rw [decide_eq_false he, Bool.false_or, Bool.false_or]
          exact hw hn

theorem beginWrite_cases (e : DatabaseEngine δ) :
    ∃ r e', beginWrite.run e = (r, e') ∧ Keeps e e' ∧ (Faults (DatabaseEngine δ) r ∨
      ∃ w, r = .ok w ∧ draft w.txn = Database.content e.database ∧ (Sound e → Owns e' w)) := by
  obtain ⟨r, d, hrun, hr⟩ := onDatabase_eq .start (yields_fileSize e.database)
  rcases hr with ⟨⟨x, rfl, hx⟩, hc⟩ | ⟨size, rfl, hc⟩
  · exact ⟨.error x, _, by rw [beginWrite, Work.run_bind, hrun], keeps_database hc,
      .inl ⟨x, rfl, hx⟩⟩
  · by_cases hfull : e.maxSize.toNat ≤ size
    · refine ⟨.error (.full size e.maxSize.toNat), { e with database := d }, ?_,
        keeps_database hc, .inl ⟨_, rfl, .inl rfl⟩⟩
      rw [beginWrite, Work.run_bind, hrun]
      simp only [Work.run_bind, Work.run_state, if_pos hfull, Work.run_fail]
    · obtain ⟨r₂, d₂, hrun₂, hr₂⟩ := onDatabase_eq (e := { e with database := d }) .start
        (yields_beginWrite e.deferredSync d)
      have hrun' : beginWrite.run e =
          (r₂.map (fun txn => ({ txn } : Writer δ)), { e with database := d₂ }) := by
        rw [beginWrite, Work.run_bind, hrun]
        simp only [Work.run_bind, Work.run_state, if_neg hfull, hrun₂]
        cases r₂ <;> rfl
      rcases hr₂ with ⟨⟨x, rfl, hx⟩, hc₂⟩ | ⟨txn, rfl, hc₂, hdraft⟩
      · exact ⟨.error x, _, hrun', keeps_database (hc₂.trans hc), .inl ⟨x, rfl, hx⟩⟩
      · refine ⟨.ok { txn }, _, hrun', keeps_database (hc₂.trans hc), .inr ⟨_, rfl,
          hdraft.trans hc, ?_⟩⟩
        intro hs name hn
        change isKnown _ ({ txn } : Writer δ) name = true ↔ (draft txn).contains name = true
        rw [hdraft, hc, ← hs hn]
        simp [isKnown]

theorem commit_cases (w : Writer δ) (e : DatabaseEngine δ) (hw : Owns e w) :
    ∃ r e', (commit w).run e = (r, e') ∧ (Faults (DatabaseEngine δ) r ∧ Keeps e e' ∨
      r = .ok () ∧ Sound e' ∧ Database.content e'.database = draft w.txn) := by
  obtain ⟨r, d, hrun, hr⟩ := onDatabase_eq .commit (yields_commit w.txn e.database)
  rcases hr with ⟨⟨x, rfl, hx⟩, hc⟩ | ⟨u, rfl, hc⟩
  · exact ⟨.error x, _, by rw [commit, Work.run_bind, hrun], .inl ⟨⟨x, rfl, hx⟩, keeps_database hc⟩⟩
  · refine ⟨.ok (), _, by rw [commit, Work.run_bind, hrun]; rfl, .inr ⟨rfl, ?_, hc⟩⟩
    intro name hn
    change name ∈ e.known ++ w.created ↔ (Database.content d).contains name = true
    rw [hc, ← hw hn]
    simp [isKnown]

theorem yields_flush (d : δ) :
    Yields flush d (fun _ d' => Database.content d' = Database.content d) := by
  have hb := yields_beginWrite false d
  unfold Yields at hb ⊢
  rw [flush, Work.run_bind]
  cases hrun : (Database.beginWrite false).run d with
  | mk r d₁ =>
      rw [hrun] at hb
      cases r with
      | error x => exact hb
      | ok txn =>
          have hcommit := yields_commit txn d₁
          unfold Yields at hcommit
          simp only
          cases hrun₂ : (Database.commit txn).run d₁ with
          | mk r₂ d₂ =>
              rw [hrun₂] at hcommit
              cases r₂ with
              | ok u => exact hcommit.trans hb.2
              | error x => exact ⟨hcommit.1, hcommit.2.trans hb.1⟩

theorem sync_cases (force : Bool) (e : DatabaseEngine δ) :
    ∃ r e', (sync force).run e = (r, e') ∧ Keeps e e' ∧
      (Faults (DatabaseEngine δ) r ∨ ∃ v, r = .ok v) := by
  by_cases hflush : (force || e.unflushed) = true
  · obtain ⟨r, d, hrun, hr⟩ := onDatabase_eq .sync (yields_flush e.database)
    rcases hr with ⟨⟨x, rfl, hx⟩, hc⟩ | ⟨u, rfl, hc⟩
    · refine ⟨.error x, _, ?_, keeps_database hc, .inl ⟨x, rfl, hx⟩⟩
      rw [sync, Work.run_bind, Work.run_state]
      simp only [if_pos hflush, Work.run_bind, hrun]
    · refine ⟨.ok (some (.synced e.path force)), { e with database := d, unflushed := false }, ?_,
        ⟨fun hs _ hn => (hs hn).trans (by rw [hc]), hc, fun _ => id⟩, .inr ⟨_, rfl⟩⟩
      rw [sync, Work.run_bind, Work.run_state]
      simp only [if_pos hflush, Work.run_bind, hrun, Work.run_update, Work.run_pure]
  · refine ⟨.ok none, e, ?_, .refl e, .inr ⟨none, rfl⟩⟩
    rw [sync, Work.run_bind, Work.run_state]
    simp only [if_neg hflush, Work.run_pure]

theorem sound_ofDatabase (settings : Settings) (d : δ) : Sound (ofDatabase settings d) :=
  fun hn => mem_tableNames d hn

instance : IsolatedEngine (DatabaseEngine δ) where
  takes_of_ne_empty := id
  beginRead_eq e _ := by
    obtain ⟨r, d, hrun, hr⟩ := onDatabase_eq .start (yields_beginRead e.database)
    rcases hr with ⟨hf, hc⟩ | ⟨s, rfl, hc, hseen⟩
    · exact ⟨r, _, hrun, keeps_database hc, .inl hf⟩
    · exact ⟨.ok s, _, hrun, keeps_database hc, .inr ⟨s, rfl, hseen⟩⟩
  reading_readsAs := readsAs_reading
  endRead_eq _ e := ⟨.ok (), e, rfl, .refl e, .inr rfl⟩
  beginWrite_eq e hs := by
    obtain ⟨r, e', hrun, hk, hr⟩ := beginWrite_cases e
    refine ⟨r, e', hrun, hk, hr.imp_right ?_⟩
    rintro ⟨w, hw, hdraft, howns⟩
    exact ⟨w, hw, hdraft, howns hs⟩
  rereading_readsAs := readsAs_rereading
  create_mirrors := mirrors_create
  put_mirrors ht := mirrors_put ht
  commit_eq w e _ hw := commit_cases w e hw
  sync_eq force e _ := sync_cases force e
  sound_restart e _ _ hn := mem_tableNames (Database.reopen e.database) hn
  committed_restart e := content_reopen e.database

end DatabaseEngine

end TrafficStore
