import TrafficStore.Engine.Faulty
import TrafficStore.Proofs.Engine.Durable
import TrafficStore.Proofs.Engine.Volatile
import TrafficStore.Proofs.Work

namespace TrafficStore

class Ledger (ε : Type) [Engine ε] where
  Account : Type
  account : ε → Account
  outcome : Engine.Writer ε → Content

namespace Ledger

variable {ε σ α : Type} [Engine ε] [Ledger ε]

def standing (e : ε) : Content × Account ε := (Engine.committed e, account e)

def Quiet (m : EngineM ε α) : Prop := m.Preserves standing

def QuietIn (m : ScopeM ε σ α) : Prop := m.Preserves (fun s => standing s.2)

structure QuietReading (r : Reading ε σ) : Prop where
  find : ∀ {table}, table ≠ "" → ∀ key, QuietIn (r.find table key)
  count : ∀ {table}, table ≠ "" → QuietIn (r.count table)
  scan : ∀ {table}, table ≠ "" → QuietIn (r.scan table)

end Ledger

open Ledger in
class AtomicEngine (ε : Type) [Engine ε] extends Ledger ε where
  beginRead_quiet : Quiet (Engine.beginRead : EngineM ε _)
  reading_quiet : QuietReading (Engine.reading : Reading ε _)
  endRead_quiet : ∀ r : Engine.Reader ε, Quiet (Engine.endRead r)
  beginWrite_quiet : Quiet (Engine.beginWrite : EngineM ε _)
  rereading_quiet : QuietReading (Engine.rereading : Reading ε _)
  create_quiet : ∀ {table}, table ≠ "" → QuietIn (Engine.create table : ScopeM ε _ _)
  put_quiet : ∀ {table}, table ≠ "" → ∀ key value,
    QuietIn (Engine.put table key value : ScopeM ε _ _)
  sync_quiet : ∀ force, Quiet (Engine.sync force : EngineM ε _)
  outcome_begin : ∀ {e e' : ε} {w}, Engine.beginWrite.run e = (.ok w, e') →
    outcome w = Engine.committed e
  commit_ok : ∀ {w} {e e' : ε}, (Engine.commit w).run e = (.ok (), e') →
    Engine.committed e' = outcome w
  commit_error : ∀ {w} {e e' : ε} {x}, (Engine.commit w).run e = (.error x, e') →
    standing e' = standing e

open Ledger

namespace Volatile

instance : Ledger Volatile where
  Account := UInt64
  account := size
  outcome := Writer.outcome

theorem quietIn_of_same {σ α : Type} {m : ScopeM Volatile σ α}
    (h : ∀ s, (m.run s).2.2 = s.2 ∨ ∃ table, (m.run s).2.2 = s.2.countLookup table) :
    QuietIn m := by
  intro s
  change standing (m.run s).2.2 = standing s.2
  rcases h s with h | ⟨table, h⟩
  · rw [h]
  · rw [h]
    rfl

theorem quietReading_reading : QuietReading reading where
  find _ _ := quietIn_of_same (fun s => by
    simp only [reading]
    split
    · exact .inr ⟨_, rfl⟩
    · exact .inl rfl)
  count _ := quietIn_of_same (fun s => by
    simp only [reading]
    split <;> exact .inl rfl)
  scan _ := quietIn_of_same (fun s => by
    simp only [reading]
    split <;> exact .inl rfl)

theorem quietReading_rereading : QuietReading rereading where
  find _ _ := quietIn_of_same (fun s => by
    simp only [rereading]
    split
    · exact .inr ⟨_, rfl⟩
    · exact .inl rfl)
  count _ := quietIn_of_same (fun s => by
    simp only [rereading]
    split <;> exact .inl rfl)
  scan _ := quietIn_of_same (fun s => by
    simp only [rereading]
    split <;> exact .inl rfl)

theorem quietIn_create (table : String) : QuietIn (create table) :=
  quietIn_of_same (fun s => by
    simp only [create]
    split <;> exact .inl rfl)

theorem quietIn_put (table : String) (key value : Bytes) : QuietIn (put table key value) :=
  quietIn_of_same (fun s => by
    simp only [put]
    split
    · split <;> exact .inl rfl
    · exact .inl rfl)

instance : AtomicEngine Volatile where
  beginRead_quiet _ := rfl
  reading_quiet := quietReading_reading
  endRead_quiet _ _ := rfl
  beginWrite_quiet _ := rfl
  rereading_quiet := quietReading_rereading
  create_quiet _ := quietIn_create _
  put_quiet _ := quietIn_put _
  sync_quiet _ _ := rfl
  outcome_begin h := by cases h; rfl
  commit_ok h := by cases h; rfl
  commit_error h := nomatch h

end Volatile

namespace DatabaseEngine

open DatabaseViews LawfulDatabase

variable {δ τ α : Type} [Database δ] [LawfulDatabase δ]

instance : Ledger (DatabaseEngine δ) where
  Account := List String
  account := known
  outcome w := draft w.txn

theorem content_of_yields {m : Work δ String α} {d : δ} {good : α → δ → Prop}
    (h : Yields m d good)
    (hgood : ∀ a d', good a d' → Database.content d' = Database.content d) :
    Database.content (m.run d).2 = Database.content d := by
  unfold Yields at h
  cases hrun : m.run d with
  | mk r d' =>
      rw [hrun] at h
      cases r with
      | ok a => exact hgood a d' h
      | error x => exact h.2

theorem quiet_onDatabase (stage : Stage) {m : Work δ String α}
    (h : m.Preserves Database.content) : Quiet (onDatabase stage m) :=
  fun e => Prod.ext (h e.database) rfl

theorem quietIn_onHandle (stage : Stage) {m : Work δ String α}
    (h : m.Preserves Database.content) :
    QuietIn (onHandle stage m : ScopeM (DatabaseEngine δ) τ α) :=
  fun s => quiet_onDatabase stage h s.2

theorem preserves_find (h : Database.Handle δ) (key : Bytes) :
    (Database.find h key).Preserves Database.content :=
  fun d => content_of_yields (yields_find h key d) (fun _ _ hgood => hgood.1)

theorem preserves_count (h : Database.Handle δ) :
    (Database.count h).Preserves Database.content :=
  fun d => content_of_yields (yields_count h d) (fun _ _ hgood => hgood.1)

theorem preserves_records (h : Database.Handle δ) :
    (Database.records h).Preserves Database.content :=
  fun d => content_of_yields (yields_records h d) (fun _ _ hgood => hgood.1)

theorem quietIn_openRead {table : String} (ht : table ≠ "") (stage : Stage) :
    QuietIn (openRead stage table :
      ScopeM (DatabaseEngine δ) (Database.ReadTxn δ) (Database.Handle δ)) := by
  intro s
  have hopen := openRead_eq ht s.1 s.2.database
  have hc : Database.content ((Database.openRead table).run (s.1, s.2.database)).2.2 =
      Database.content s.2.database := by
    cases hrun : (Database.openRead table).run (s.1, s.2.database) with
    | mk r p =>
        rw [hrun] at hopen
        cases r with
        | ok h => exact hopen.1
        | error x =>
            cases x with
            | missing n => exact hopen.1
            | broken x => exact hopen.1
  exact Prod.ext hc rfl

theorem quietReading_reading : QuietReading (reading : Reading (DatabaseEngine δ) _) where
  find ht key := (quietIn_openRead ht .read).bind (fun h =>
    quietIn_onHandle .read (preserves_find h key))
  count ht := (quietIn_openRead ht .stat).bind (fun h =>
    quietIn_onHandle .stat (preserves_count h))
  scan ht := (quietIn_openRead ht .scan).bind (fun h =>
    quietIn_onHandle .scan (preserves_records h))

theorem quietIn_openWrite {table : String} (ht : table ≠ "") (stage : Stage) :
    QuietIn (openWrite stage table :
      ScopeM (DatabaseEngine δ) (Writer δ) (Database.Handle δ)) := by
  rintro ⟨w, e⟩
  obtain ⟨r, txn, d, hrun, hc, _⟩ := openWrite_cases ht stage w e
  rw [hrun]
  exact Prod.ext hc rfl

theorem quietIn_openKnown {table : String} (ht : table ≠ "") (stage : Stage) :
    QuietIn (openKnown stage table :
      ScopeM (DatabaseEngine δ) (Writer δ) (Database.Handle δ)) := by
  refine .bind .state (fun s => ?_)
  by_cases hknown : s.2.isKnown s.1 table = true
  · rw [if_pos hknown]
    exact quietIn_openWrite ht stage
  · rw [if_neg hknown]
    exact .fail _

theorem quietReading_rereading : QuietReading (rereading : Reading (DatabaseEngine δ) _) where
  find ht key := (quietIn_openKnown ht .read).bind (fun h =>
    quietIn_onHandle .read (preserves_find h key))
  count ht := (quietIn_openKnown ht .stat).bind (fun h =>
    quietIn_onHandle .stat (preserves_count h))
  scan ht := (quietIn_openKnown ht .scan).bind (fun h =>
    quietIn_onHandle .scan (preserves_records h))

theorem quietIn_create {table : String} (ht : table ≠ "") :
    QuietIn (create table : ScopeM (DatabaseEngine δ) (Writer δ) Unit) := by
  refine (quietIn_openWrite ht .createTable).bind (fun _ s => ?_)
  rw [Work.run_update]
  split <;> rfl

theorem find?_openWrite {c c' : Content} {table : String} {t : Table}
    (ht : t = (c.find? table).getD .empty)
    (hc : c' = if c.contains table then c else c.insert table .empty) :
    c'.find? table = some t := by
  by_cases h : c.contains table = true
  · obtain ⟨u, hu⟩ := SortedMap.contains_iff.1 h
    rw [hc, if_pos h, ht, hu]
    rfl
  · rw [hc, if_neg h, SortedMap.find?_insert, if_pos rfl, ht,
      SortedMap.contains_eq_false_iff.1 (Bool.eq_false_iff.2 h)]
    rfl

theorem quietIn_put {table : String} (ht : table ≠ "") (key value : Bytes) :
    QuietIn (put table key value : ScopeM (DatabaseEngine δ) (Writer δ) Unit) := by
  rintro ⟨w, e⟩
  rw [put, Work.run_bind, openKnown, Work.run_bind, Work.run_state]
  by_cases hknown : e.isKnown w table = true
  · obtain ⟨r, txn, d, hrun, hc, hr⟩ := openWrite_cases ht .write w e
    simp only [if_pos hknown, hrun]
    rcases hr with ⟨x, rfl, _⟩ | ⟨h, rfl, hnamed, hrows, hdraft⟩
    · exact Prod.ext hc rfl
    · have hfind : (draft txn).find? (named h) = some (rows h) := by
        rw [hnamed]
        exact find?_openWrite hrows hdraft
      have hins := insert_eq h key value txn d hfind
      have hc' : Database.content ((Database.insert h key value).run (txn, d)).2.2 =
          Database.content d := by
        cases hrun' : (Database.insert h key value).run (txn, d) with
        | mk r' p =>
            rw [hrun'] at hins
            cases r' with
            | ok u => exact hins.1
            | error x => exact hins.1
      exact Prod.ext (hc'.trans hc) rfl
  · simp only [if_neg hknown, Work.run_fail]

theorem quiet_beginWrite : Quiet (beginWrite : EngineM (DatabaseEngine δ) (Writer δ)) := by
  refine (quiet_onDatabase .start (fun d => content_of_yields (yields_fileSize d)
    (fun _ _ hc => hc))).bind (fun size => .bind .state (fun e => ?_))
  by_cases hfull : e.maxSize.toNat ≤ size
  · rw [if_pos hfull]
    exact .fail _
  · rw [if_neg hfull]
    exact (quiet_onDatabase .start (fun d => content_of_yields (yields_beginWrite _ d)
      (fun _ _ hc => hc.1))).bind (fun txn => .pure _)

theorem quiet_sync (force : Bool) :
    Quiet (sync force : EngineM (DatabaseEngine δ) (Option Event)) := by
  refine .bind .state (fun e => ?_)
  by_cases hflush : (force || e.unflushed) = true
  · rw [if_pos hflush]
    exact (quiet_onDatabase .sync (fun d => content_of_yields (yields_flush d)
      (fun _ _ hc => hc))).bind (fun _ => .bind (fun _ => rfl) (fun _ => .pure _))
  · rw [if_neg hflush]
    exact .pure _

theorem draft_of_beginWrite {e e' : DatabaseEngine δ} {w : Writer δ}
    (h : beginWrite.run e = (.ok w, e')) : draft w.txn = Database.content e.database := by
  obtain ⟨r, e₁, hrun, _, hr⟩ := beginWrite_cases e
  obtain ⟨rfl, rfl⟩ := Prod.mk.inj (h.symm.trans hrun)
  rcases hr with ⟨x, hx, _⟩ | ⟨v, hv, hdraft, _⟩
  · cases hx
  · cases hv
    exact hdraft

theorem commit_outcome (w : Writer δ) (e : DatabaseEngine δ) :
    match (commit w).run e with
    | (.ok _, e') => Database.content e'.database = draft w.txn
    | (.error _, e') => standing e' = standing e := by
  obtain ⟨r, d, hrun, hr⟩ := onDatabase_eq .commit (yields_commit w.txn e.database)
  rw [commit, Work.run_bind, hrun]
  rcases hr with ⟨⟨x, rfl, _⟩, hc⟩ | ⟨u, rfl, hc⟩
  · exact Prod.ext hc rfl
  · exact hc

instance : AtomicEngine (DatabaseEngine δ) where
  beginRead_quiet := quiet_onDatabase .start (fun d => content_of_yields (yields_beginRead d)
    (fun _ _ hc => hc.1))
  reading_quiet := quietReading_reading
  endRead_quiet _ _ := rfl
  beginWrite_quiet := quiet_beginWrite
  rereading_quiet := quietReading_rereading
  create_quiet := quietIn_create
  put_quiet := quietIn_put
  sync_quiet := quiet_sync
  outcome_begin := draft_of_beginWrite
  commit_ok {w e e'} h := by
    have hcommit := commit_outcome w e
    rw [show (commit w).run e = _ from h] at hcommit
    exact hcommit
  commit_error {w e e' x} h := by
    have hcommit := commit_outcome w e
    rw [show (commit w).run e = _ from h] at hcommit
    exact hcommit

end DatabaseEngine

namespace Faulty

variable {ε σ α : Type}

theorem inner_of_letThrough {e e' : Faulty ε} {point : FaultPoint}
    (h : e.letThrough point = .ok e') : e'.inner = e.inner := by
  rw [letThrough] at h
  split at h
  · cases h
    rfl
  · split at h
    · split at h <;> cases h
      rfl
    · cases h
      rfl

theorem guarded_cases (point : FaultPoint) (m : EngineM ε α) (e : Faulty ε) :
    (∃ x, (guarded point m).run e = (.error x, e)) ∨
      ∃ e', (guarded point m).run e = ((m.run e.inner).1, e') ∧ e'.inner = (m.run e.inner).2 := by
  rw [guarded]
  cases hpass : e.letThrough point with
  | error x => exact .inl ⟨x, by simp only [hpass]⟩
  | ok e₁ =>
      refine .inr ⟨{ e₁ with inner := (m.run e.inner).2 }, ?_, rfl⟩
      simp only [hpass, inner_of_letThrough hpass]

theorem run_of_guarded_ok {point : FaultPoint} {m : EngineM ε α} {e e' : Faulty ε} {a : α}
    (h : (guarded point m).run e = (.ok a, e')) : m.run e.inner = (.ok a, e'.inner) := by
  rcases guarded_cases point m e with ⟨x, hrun⟩ | ⟨e₁, hrun, he₁⟩
  · rw [hrun] at h
    cases h
  · rw [hrun] at h
    obtain ⟨ha, rfl⟩ := Prod.mk.inj h
    rw [← ha, he₁]

variable [Engine ε] [AtomicEngine ε]

instance : Ledger (Faulty ε) where
  Account := Account ε
  account e := account e.inner
  outcome := Ledger.outcome (ε := ε)

theorem quiet_guarded (point : FaultPoint) {m : EngineM ε α} (h : Quiet m) :
    Quiet (guarded point m) := by
  intro e
  rcases guarded_cases point m e with ⟨x, hrun⟩ | ⟨e', hrun, he'⟩
  · rw [hrun]
  · rw [hrun]
    change standing e'.inner = standing e.inner
    rw [he']
    exact h e.inner

theorem quietIn_guardedIn (point : FaultPoint) {m : ScopeM ε σ α} (h : QuietIn m) :
    QuietIn (guardedIn point m) := by
  rintro ⟨s, e⟩
  cases hpass : e.letThrough point with
  | error x => simp only [guardedIn, hpass]
  | ok e₁ =>
      simp only [guardedIn, hpass]
      change standing (m.run (s, e₁.inner)).2.2 = standing e.inner
      rw [← inner_of_letThrough hpass]
      exact h (s, e₁.inner)

theorem quietReading_guardReading {r : Reading ε σ} (h : QuietReading r) :
    QuietReading (guardReading r) where
  find ht key := quietIn_guardedIn .find (h.find ht key)
  count ht := (quietIn_guardedIn .count (h.count ht)).bind (fun _ =>
    .bind .state (fun _ => .pure _))
  scan ht := quietIn_guardedIn .scan (h.scan ht)

theorem standing_of_commit_error {e e' : Faulty ε} {w : Engine.Writer ε} {x : StorageError}
    (h : (guarded .commit (Engine.commit w)).run e = (.error x, e')) :
    standing e' = standing e := by
  rcases guarded_cases .commit (Engine.commit w) e with ⟨y, hrun⟩ | ⟨e₁, hrun, he₁⟩
  · rw [hrun] at h
    rw [(Prod.mk.inj h).2]
  · rw [hrun] at h
    obtain ⟨hx, rfl⟩ := Prod.mk.inj h
    have hrun' : (Engine.commit w).run e.inner = (.error x, e₁.inner) := Prod.ext hx he₁.symm
    exact AtomicEngine.commit_error hrun'

instance : AtomicEngine (Faulty ε) where
  beginRead_quiet := quiet_guarded .beginRead AtomicEngine.beginRead_quiet
  reading_quiet := quietReading_guardReading AtomicEngine.reading_quiet
  endRead_quiet r := quiet_guarded .endRead (AtomicEngine.endRead_quiet (ε := ε) r)
  beginWrite_quiet := quiet_guarded .beginWrite AtomicEngine.beginWrite_quiet
  rereading_quiet := quietReading_guardReading AtomicEngine.rereading_quiet
  create_quiet ht := quietIn_guardedIn .create (AtomicEngine.create_quiet ht)
  put_quiet ht key value := quietIn_guardedIn .put (AtomicEngine.put_quiet ht key value)
  sync_quiet force := quiet_guarded .sync (AtomicEngine.sync_quiet force)
  outcome_begin h := AtomicEngine.outcome_begin (ε := ε) (run_of_guarded_ok h)
  commit_ok h := AtomicEngine.commit_ok (ε := ε) (run_of_guarded_ok h)
  commit_error := standing_of_commit_error

end Faulty

end TrafficStore
