import TrafficStore.Engine

namespace TrafficStore

abbrev CopyM (α : Type) := Work Content StorageError α

namespace Copy

def table (name : String) : CopyM Table := ⟨fun c =>
  match c.find? name with
  | some t => (.ok t, c)
  | none => (.error (.unknownTable name), c)⟩

def find (name : String) (key : Bytes) : CopyM (Option Bytes) :=
  (fun t => t.find? key) <$> table name

def count (name : String) : CopyM Nat := SortedMap.size <$> table name

def scan (name : String) : CopyM (List (Bytes × Bytes)) := SortedMap.entries <$> table name

def create (name : String) : CopyM Unit :=
  Work.update (fun c => if c.contains name then c else c.insert name .empty)

def put (name : String) (key value : Bytes) : CopyM Unit := do
  let t ← table name
  Work.update (fun c => c.insert name (t.insert key value))

variable {c : Content} {name : String}

theorem run_table_some {t : Table} (h : c.find? name = some t) :
    (table name).run c = (.ok t, c) := by
  simp only [table, h]

theorem run_table_none (h : c.find? name = none) :
    (table name).run c = (.error (.unknownTable name), c) := by
  simp only [table, h]

theorem run_find_some {t : Table} (h : c.find? name = some t) (key : Bytes) :
    (find name key).run c = (.ok (t.find? key), c) := by
  rw [find, Work.run_map, run_table_some h]

theorem run_find_none (h : c.find? name = none) (key : Bytes) :
    (find name key).run c = (.error (.unknownTable name), c) := by
  rw [find, Work.run_map, run_table_none h]

theorem run_count_some {t : Table} (h : c.find? name = some t) :
    (count name).run c = (.ok t.size, c) := by
  rw [count, Work.run_map, run_table_some h]

theorem run_count_none (h : c.find? name = none) :
    (count name).run c = (.error (.unknownTable name), c) := by
  rw [count, Work.run_map, run_table_none h]

theorem run_scan_some {t : Table} (h : c.find? name = some t) :
    (scan name).run c = (.ok t.entries, c) := by
  rw [scan, Work.run_map, run_table_some h]

theorem run_scan_none (h : c.find? name = none) :
    (scan name).run c = (.error (.unknownTable name), c) := by
  rw [scan, Work.run_map, run_table_none h]

theorem run_put_some {t : Table} (h : c.find? name = some t) (key value : Bytes) :
    (put name key value).run c = (.ok (), c.insert name (t.insert key value)) := by
  rw [put, Work.run_bind, run_table_some h]
  rfl

theorem run_put_none (h : c.find? name = none) (key value : Bytes) :
    (put name key value).run c = (.error (.unknownTable name), c) := by
  rw [put, Work.run_bind, run_table_none h]

end Copy

class ScopeViews (ε : Type) [Engine ε] where
  seen : Engine.Reader ε → Content
  draft : Engine.Writer ε → Content
  Sound : ε → Prop
  Owns : ε → Engine.Writer ε → Prop
  /-- The failures that are the engine's own and not its caller's. -/
  Fault : StorageError → Prop
  Takes : String → Prop

namespace ScopeViews

variable {ε σ α β : Type} [Engine ε] [ScopeViews ε]

structure Keeps (e e' : ε) : Prop where
  sound : Sound e → Sound e'
  committed : Engine.committed e' = Engine.committed e
  owns : ∀ w, Owns e w → Owns e' w

theorem Keeps.refl (e : ε) : Keeps e e := ⟨id, rfl, fun _ => id⟩

theorem Keeps.trans {e e' e'' : ε} (h : Keeps e e') (h' : Keeps e' e'') : Keeps e e'' :=
  ⟨h'.sound ∘ h.sound, h'.committed.trans h.committed, fun w hw => h'.owns w (h.owns w hw)⟩

variable (ε) in
def Faults (r : Except StorageError α) : Prop := ∃ x, r = .error x ∧ Fault ε x

theorem Faults.map {x : StorageError} (h : Faults ε (.error x : Except StorageError α)) :
    Faults ε (.error x : Except StorageError β) := by
  obtain ⟨y, hy, hf⟩ := h
  cases hy
  exact ⟨x, rfl, hf⟩

structure Window (ε σ : Type) where
  view : σ → Content
  valid : ε → σ → Prop

variable (ε) in
def readers : Window ε (Engine.Reader ε) := ⟨seen, fun _ _ => True⟩

variable (ε) in
def writers : Window ε (Engine.Writer ε) := ⟨draft, Owns⟩

def Mirrors (v : Window ε σ) (m : ScopeM ε σ α) (ref : CopyM α) : Prop :=
  ∀ s e, Sound e → v.valid e s → ∃ r s' e', m.run (s, e) = (r, (s', e')) ∧ Keeps e e' ∧
    (Faults ε r ∨ ref.run (v.view s) = (r, v.view s') ∧ v.valid e' s')

structure ReadsAs (v : Window ε σ) (r : Reading ε σ) : Prop where
  find : ∀ {table}, Takes ε table → ∀ key, Mirrors v (r.find table key) (Copy.find table key)
  count : ∀ {table}, Takes ε table → Mirrors v (r.count table) (Copy.count table)
  scan : ∀ {table}, Takes ε table → Mirrors v (r.scan table) (Copy.scan table)

end ScopeViews

open ScopeViews in
class IsolatedEngine (ε : Type) [Engine ε] extends ScopeViews ε where
  takes_of_ne_empty : ∀ {table}, table ≠ "" → Takes table
  beginRead_eq : ∀ e : ε, Sound e → ∃ r e', Engine.beginRead.run e = (r, e') ∧ Keeps e e' ∧
    (Faults ε r ∨ ∃ s, r = .ok s ∧ seen s = Engine.committed e)
  reading_readsAs : ReadsAs (readers ε) Engine.reading
  endRead_eq : ∀ s (e : ε), ∃ r e', (Engine.endRead s).run e = (r, e') ∧ Keeps e e' ∧
    (Faults ε r ∨ r = .ok ())
  beginWrite_eq : ∀ e : ε, Sound e → ∃ r e', Engine.beginWrite.run e = (r, e') ∧ Keeps e e' ∧
    (Faults ε r ∨ ∃ w, r = .ok w ∧ draft w = Engine.committed e ∧ Owns e' w)
  rereading_readsAs : ReadsAs (writers ε) Engine.rereading
  create_mirrors : ∀ {table}, Takes table →
    Mirrors (writers ε) (Engine.create table) (Copy.create table)
  put_mirrors : ∀ {table}, Takes table → ∀ key value,
    Mirrors (writers ε) (Engine.put table key value) (Copy.put table key value)
  commit_eq : ∀ w (e : ε), Sound e → Owns e w → ∃ r e', (Engine.commit w).run e = (r, e') ∧
    (Faults ε r ∧ Keeps e e' ∨ r = .ok () ∧ Sound e' ∧ Engine.committed e' = draft w)
  sync_eq : ∀ force (e : ε), Sound e → ∃ r e', (Engine.sync force).run e = (r, e') ∧ Keeps e e' ∧
    (Faults ε r ∨ ∃ v, r = .ok v)
  sound_restart : ∀ e : ε, Sound e → Sound (Engine.restart e)
  committed_restart : ∀ e : ε, Engine.committed (Engine.restart e) = Engine.committed e

end TrafficStore
