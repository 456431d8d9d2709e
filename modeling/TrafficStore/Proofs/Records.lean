import TrafficStore.Access
import TrafficStore.Proofs.Outcomes
import TrafficStore.Proofs.TableName
import TrafficStore.Proofs.Transaction

namespace TrafficStore

open ScopeViews

abbrev Rewrite (α : Type) := Table → Except StorageError (α × Table)

namespace Rewrite

variable {α β : Type}

def map (g : α → β) (w : Rewrite α) : Rewrite β := fun t => (w t).map (fun p => (g p.1, p.2))

theorem map_map {γ : Type} (h : β → γ) (g : α → β) (w : Rewrite α) :
    (w.map g).map h = w.map (fun a => h (g a)) := by
  funext t
  rw [map, map, map]
  cases w t <;> rfl

def field (f : Format α) (k : Key) (t : Table) : Except StorageError (Option α) :=
  f.read (t.find? k.bytes)

def find (f : Format α) (k : Key) : Rewrite (Option α) := fun t =>
  (field f k t).map (fun v => (v, t))

def count : Rewrite Nat := fun t => .ok (t.size, t)

def put (f : Format α) (k : Key) (a : α) : Rewrite Unit := fun t =>
  .ok ((), t.insert k.bytes (f.encode a))

def accumulate (f : Format α) (zero : α) (add : α → α → α) (k : Key) (delta : α) : Rewrite α :=
  fun t => (field f k t).map (fun v =>
    (add (v.getD zero) delta, t.insert k.bytes (f.encode (add (v.getD zero) delta))))

def raise (k : Key) (candidate : UInt64) : Rewrite Bool := fun t =>
  (field .word k t).map (fun v =>
    if v.getD 0 < candidate then (true, t.insert k.bytes (Format.word.encode candidate))
    else (false, t))

def allocate (table : String) (name : String) : Rewrite Allocation := fun t =>
  match field .int (.name name) t with
  | .error x => .error x
  | .ok (some id) => .ok (.existing id, t)
  | .ok none =>
      match TableId.nextId? t.size with
      | none => .error (.idsExhausted table)
      | some id =>
          .ok (.inserted id, t.insert (Key.name name).bytes (Format.int.encode id))

def dump (kind : ValueKind) : Rewrite (List Item) := fun t =>
  ((Dump.decodeItems kind t.entries).mapError .corrupt).map (fun items => (items, t))

variable {table table' : Table}

theorem map_ok {w : Rewrite α} {g : α → β} {b : β} (h : w.map g table = .ok (b, table')) :
    ∃ a, w table = .ok (a, table') ∧ g a = b := by
  obtain ⟨p, hw, he⟩ := map_eq_ok h
  cases he
  exact ⟨p.1, hw, rfl⟩

theorem raise_of_field {k : Key} {candidate : UInt64} {v : Option UInt64}
    (hv : field .word k table = .ok v) : raise k candidate table =
      .ok (if v.getD 0 < candidate then
        (true, table.insert k.bytes (Format.word.encode candidate)) else (false, table)) := by
  rw [raise, hv]
  rfl

theorem accumulate_of_field {f : Format α} {zero : α} {add : α → α → α} {k : Key} {v : Option α}
    (hv : field f k table = .ok v) (delta : α) : accumulate f zero add k delta table =
      .ok (add (v.getD zero) delta, table.insert k.bytes (f.encode (add (v.getD zero) delta))) := by
  rw [accumulate, hv]
  rfl

theorem accumulate_ok {f : Format α} {zero : α} {add : α → α → α} {k : Key} {delta sum : α}
    (h : accumulate f zero add k delta table = .ok (sum, table')) :
    table' = table.insert k.bytes (f.encode sum) := by
  rw [accumulate] at h
  cases hv : field f k table with
  | error x => rw [hv] at h; cases h
  | ok v => rw [hv] at h; cases h; rfl

theorem raise_ok {k : Key} {candidate : UInt64} {raised : Bool}
    (h : raise k candidate table = .ok (raised, table')) : table' =
      if raised then table.insert k.bytes (Format.word.encode candidate) else table := by
  cases hv : field .word k table with
  | error x => rw [raise, hv] at h; cases h
  | ok v =>
      rw [raise_of_field hv] at h
      split at h <;> cases h <;> rfl

theorem allocate_ok {name key : String} {a : Allocation}
    (h : allocate name key table = .ok (a, table')) : table' =
      if a.isNew then table.insert (Key.name key).bytes (Format.int.encode a.id) else table := by
  rw [allocate] at h
  cases hv : field .int (.name key) table with
  | error x => rw [hv] at h; cases h
  | ok v =>
      rw [hv] at h
      cases v with
      | some id => cases h; rfl
      | none =>
          cases hid : TableId.nextId? table.size with
          | none => simp only [hid] at h; cases h
          | some id => simp only [hid] at h; cases h; rfl

theorem allocate_of_found {name key : String} {a : Allocation} {v : Bytes}
    (hfound : table.find? (Key.name key).bytes = some v)
    (h : allocate name key table = .ok (a, table')) : table' = table := by
  rw [allocate, field, hfound] at h
  cases hd : Format.int.decode v with
  | error x =>
      rw [Format.read, hd] at h
      cases h
  | ok id =>
      rw [Format.read, hd] at h
      cases h
      rfl

def answer (w : Rewrite α) (table : Table) : Except StorageError α := (w table).map Prod.fst

theorem answer_map (g : α → β) (w : Rewrite α) (table : Table) :
    (w.map g).answer table = (w.answer table).map g := by
  rw [answer, answer, map]
  cases w table <;> rfl

theorem answer_find (f : Format α) (k : Key) (table : Table) :
    (find f k).answer table = field f k table := by
  rw [answer, find]
  cases field f k table <;> rfl

theorem answer_accumulate (f : Format α) (zero : α) (add : α → α → α) (k : Key) (delta : α)
    (table : Table) : (accumulate f zero add k delta).answer table =
      (field f k table).map (fun v => add (v.getD zero) delta) := by
  rw [answer, accumulate]
  cases field f k table <;> rfl

theorem answer_raise (k : Key) (candidate : UInt64) (table : Table) :
    (raise k candidate).answer table =
      (field .word k table).map (fun v => decide (v.getD 0 < candidate)) := by
  cases hv : field .word k table with
  | error x => rw [answer, raise, hv]; rfl
  | ok v =>
      rw [answer, raise_of_field hv]
      by_cases hlt : v.getD 0 < candidate
      · rw [if_pos hlt]
        exact congrArg Except.ok (decide_eq_true hlt).symm
      · rw [if_neg hlt]
        exact congrArg Except.ok (decide_eq_false hlt).symm

end Rewrite

namespace TableId

variable {ε σ α β : Type}

def onRecords (t : TableId) (w : Rewrite α) : Change α := fun c =>
  match c.find? t.name with
  | none => .error (.unknownTable t.name)
  | some table => (w table).map (fun p => (p.1, c.insert t.name p.2))

def lookUp (t : TableId) (f : Format α) (k : Key) (c : Content) :
    Except StorageError (Option α) :=
  match c.find? t.name with
  | none => .error (.unknownTable t.name)
  | some table => Rewrite.field f k table

section

variable {t : TableId} {w : Rewrite α} {c : Content} {table : Table}

theorem onRecords_none (h : c.find? t.name = none) :
    t.onRecords w c = .error (.unknownTable t.name) := by
  rw [onRecords, h]

theorem onRecords_some (h : c.find? t.name = some table) :
    t.onRecords w c = (w table).map (fun p => (p.1, c.insert t.name p.2)) := by
  rw [onRecords, h]

theorem onRecords_ok {a : α} {c' : Content} (h : t.onRecords w c = .ok (a, c')) :
    ∃ table table', c.find? t.name = some table ∧ w table = .ok (a, table') ∧
      c' = c.insert t.name table' := by
  cases hc : c.find? t.name with
  | none => rw [onRecords_none hc] at h; cases h
  | some table =>
      rw [onRecords_some hc] at h
      cases hw : w table with
      | error x => rw [hw] at h; cases h
      | ok p =>
          rw [hw] at h
          cases h
          exact ⟨table, p.2, rfl, hw, rfl⟩

theorem lookUp_some {f : Format α} {k : Key} (h : c.find? t.name = some table) :
    t.lookUp f k c = Rewrite.field f k table := by
  rw [lookUp, h]

theorem lookUp_eq_ok {f : Format α} {k : Key} {v : Option α} (h : t.lookUp f k c = .ok v) :
    ∃ table, c.find? t.name = some table ∧ Rewrite.field f k table = .ok v := by
  rw [lookUp] at h
  cases hc : c.find? t.name with
  | none => rw [hc] at h; cases h
  | some table => rw [hc] at h; exact ⟨table, rfl, h⟩

theorem map_onRecords (g : α → β) (t : TableId) (w : Rewrite α) :
    (t.onRecords w).map g = t.onRecords (w.map g) := by
  funext c
  rw [Change.map]
  cases h : c.find? t.name with
  | none => rw [onRecords_none h, onRecords_none h]; rfl
  | some table =>
      rw [onRecords_some h, onRecords_some h, Rewrite.map]
      cases w table <;> rfl

theorem onRecords_eq_self (hw : ∀ table a table', w table = .ok (a, table') → table' = table)
    (c : Content) (a : α) (c' : Content) (h : t.onRecords w c = .ok (a, c')) : c' = c := by
  cases hc : c.find? t.name with
  | none => rw [onRecords_none hc] at h; cases h
  | some table =>
      rw [onRecords_some hc] at h
      cases hr : w table with
      | error x => rw [hr] at h; cases h
      | ok p =>
          rw [hr] at h
          cases h
          rw [hw table p.1 p.2 hr]
          exact SortedMap.insert_eq_self hc

theorem follows_onRecords [Engine ε] [ScopeViews ε] {v : Window ε σ} {op : ScopeM ε σ α}
    (hnone : ∀ c, c.find? t.name = none → Computes v op c (.error (.unknownTable t.name)) c)
    (hsome : ∀ c table, c.find? t.name = some table → match w table with
      | .ok (a, table') => Computes v op c (.ok a) (c.insert t.name table')
      | .error x => ∃ c', Computes v op c (.error x) c') :
    Follows v op (t.onRecords w) := by
  intro c
  cases hc : c.find? t.name with
  | none => rw [onRecords_none hc]; exact ⟨c, hnone c hc⟩
  | some table =>
      have h := hsome c table hc
      rw [onRecords_some hc]
      cases hr : w table with
      | error x => rw [hr] at h; exact h
      | ok p => rw [hr] at h; exact h

end

variable [Engine ε] [IsolatedEngine ε]

theorem takes_name (t : TableId) : Takes ε t.name :=
  IsolatedEngine.takes_of_ne_empty t.name_ne_empty

section Field

variable {v : Window ε σ} {r : Reading ε σ} {t : TableId} {c : Content} {table : Table}

theorem computes_field (hr : ReadsAs v r) (h : c.find? t.name = some table) (f : Format α)
    (k : Key) : Computes v (t.field r f k) c (Rewrite.field f k table) c :=
  ((hr.find t.takes_name k.bytes).computes (Copy.run_find_some h k.bytes)).bind
    (.ofExcept v (f.read (table.find? k.bytes)) c)

theorem computes_field_none (hr : ReadsAs v r) (h : c.find? t.name = none) (f : Format α)
    (k : Key) : Computes v (t.field r f k) c (.error (.unknownTable t.name)) c :=
  ((hr.find t.takes_name k.bytes).computes (Copy.run_find_none h k.bytes)).bind_error

theorem computes_lookUp (hr : ReadsAs v r) (t : TableId) (f : Format α) (k : Key) (c : Content) :
    Computes v (t.field r f k) c (t.lookUp f k c) c := by
  rw [lookUp]
  cases hc : c.find? t.name with
  | none => exact computes_field_none hr hc f k
  | some table => exact computes_field hr hc f k

end Field

theorem computes_put {t : TableId} {c : Content} {table : Table} (h : c.find? t.name = some table)
    (key value : Bytes) : Computes (writers ε) (Engine.put t.name key value) c (.ok ())
      (c.insert t.name (table.insert key value)) :=
  (IsolatedEngine.put_mirrors t.takes_name key value).computes (Copy.run_put_some h key value)

theorem computes_put_none {t : TableId} {c : Content} (h : c.find? t.name = none)
    (key value : Bytes) : Computes (writers ε) (Engine.put t.name key value) c
      (.error (.unknownTable t.name)) c :=
  (IsolatedEngine.put_mirrors t.takes_name key value).computes (Copy.run_put_none h key value)

theorem serves_find (t : TableId) (f : Format α) (k : Key) :
    Serves (t.find f k : StoreM ε (Option α)) (t.onRecords (.find f k)) := by
  refine serves_read (follows_onRecords ?_ ?_) (onRecords_eq_self ?_)
  · intro c hc
    exact computes_field_none IsolatedEngine.reading_readsAs hc f k
  · intro c table hc
    have hfield := computes_field (ε := ε) IsolatedEngine.reading_readsAs hc f k
    rw [Rewrite.find]
    cases hv : Rewrite.field f k table with
    | error x => rw [hv] at hfield; exact ⟨c, hfield⟩
    | ok v =>
        rw [hv] at hfield
        simp only [Except.map, SortedMap.insert_eq_self hc]
        exact hfield
  · intro table a table' h
    rw [Rewrite.find] at h
    cases hv : Rewrite.field f k table with
    | error x => rw [hv] at h; cases h
    | ok v => rw [hv] at h; cases h; rfl

theorem serves_findOr (t : TableId) (f : Format α) (missing : α) (k : Key) :
    Serves (do return (← t.find f k).getD missing : StoreM ε α)
      (t.onRecords ((Rewrite.find f k).map (fun v => v.getD missing))) := by
  rw [← map_onRecords]
  exact (t.serves_find f k).reporting (fun _ => .pure _)

theorem serves_cardinality (t : TableId) :
    Serves (t.cardinality : StoreM ε Nat) (t.onRecords .count) := by
  refine serves_read (follows_onRecords ?_ ?_) (onRecords_eq_self ?_)
  · intro c hc
    exact (IsolatedEngine.reading_readsAs.count t.takes_name).computes (Copy.run_count_none hc)
  · intro c table hc
    simp only [Rewrite.count, SortedMap.insert_eq_self hc]
    exact (IsolatedEngine.reading_readsAs.count t.takes_name).computes (Copy.run_count_some hc)
  · intro table a table' h
    cases h
    rfl

theorem serves_put (t : TableId) (f : Format α) (k : Key) (a : α) :
    Serves (t.put f k a : StoreM ε Unit) (t.onRecords (.put f k a)) := by
  refine serves_write (follows_onRecords ?_ ?_)
  · intro c hc
    exact computes_put_none hc k.bytes (f.encode a)
  · intro c table hc
    exact computes_put hc k.bytes (f.encode a)

theorem serves_accumulate (t : TableId) (f : Format α) (zero : α) (add : α → α → α) (k : Key)
    (delta : α) : Serves (t.accumulate f zero add k delta : StoreM ε α)
      (t.onRecords (.accumulate f zero add k delta)) := by
  refine serves_write (follows_onRecords ?_ ?_)
  · intro c hc
    exact (computes_field_none IsolatedEngine.rereading_readsAs hc f k).bind_error
  · intro c table hc
    have hfield := computes_field (ε := ε) IsolatedEngine.rereading_readsAs hc f k
    rw [Rewrite.accumulate]
    cases hv : Rewrite.field f k table with
    | error x => rw [hv] at hfield; exact ⟨c, hfield.bind_error⟩
    | ok v =>
        rw [hv] at hfield
        exact hfield.bind ((computes_put hc k.bytes _).bind (.pure _ _ _))

theorem serves_raise (t : TableId) (k : Key) (candidate : UInt64) :
    Serves (t.raise k candidate : StoreM ε Bool) (t.onRecords (.raise k candidate)) := by
  refine serves_write (follows_onRecords ?_ ?_)
  · intro c hc
    exact (computes_field_none IsolatedEngine.rereading_readsAs hc .word k).bind_error
  · intro c table hc
    have hfield := computes_field (ε := ε) IsolatedEngine.rereading_readsAs hc .word k
    rw [Rewrite.raise]
    cases hv : Rewrite.field .word k table with
    | error x => rw [hv] at hfield; exact ⟨c, hfield.bind_error⟩
    | ok v =>
        rw [hv] at hfield
        by_cases hlt : v.getD 0 < candidate
        · simp only [Except.map, if_pos hlt]
          refine hfield.bind ?_
          rw [if_pos hlt]
          exact (computes_put hc k.bytes _).bind (.pure _ _ _)
        · simp only [Except.map, if_neg hlt, SortedMap.insert_eq_self hc]
          refine hfield.bind ?_
          rw [if_neg hlt]
          exact .pure _ _ _

theorem follows_allocateIn (t : TableId) (name : String) :
    Follows (writers ε) (t.allocateIn name) (t.onRecords (.allocate t.name name)) := by
  refine follows_onRecords ?_ ?_
  · intro c hc
    exact (computes_field_none IsolatedEngine.rereading_readsAs hc .int (.name name)).bind_error
  · intro c table hc
    have hfield := computes_field (ε := ε) IsolatedEngine.rereading_readsAs hc .int (.name name)
    have hcount : Computes (writers ε) (Engine.rereading.count t.name) c (.ok table.size) c :=
      (IsolatedEngine.rereading_readsAs.count t.takes_name).computes (Copy.run_count_some hc)
    rw [Rewrite.allocate]
    cases hv : Rewrite.field .int (.name name) table with
    | error x => rw [hv] at hfield; exact ⟨c, hfield.bind_error⟩
    | ok v =>
        rw [hv] at hfield
        cases v with
        | some id =>
            simp only [SortedMap.insert_eq_self hc]
            exact hfield.bind (.pure _ _ _)
        | none =>
            cases hid : nextId? table.size with
            | none =>
                refine ⟨c, hfield.bind (hcount.bind ?_)⟩
                rw [hid]
                exact .ofExcept _ _ _
            | some id =>
                refine hfield.bind (hcount.bind ?_)
                rw [hid]
                exact (computes_put hc _ _).bind (.pure _ _ _)

theorem serves_allocate (t : TableId) (name : String) :
    Serves (t.allocate name : StoreM ε Allocation) (t.onRecords (.allocate t.name name)) := by
  have hreports : ∀ a : Allocation, Reports (do
      if a.isNew then Environment.report (.idAllocated t.name a.id)
      return a : StoreM ε Allocation) a := by
    intro a
    cases a with
    | existing id => exact .pure _
    | inserted id => exact (Reports.report _).bind (.pure _)
  have hserves := (serves_write (t.follows_allocateIn name)).reporting hreports
  rw [Change.map_id] at hserves
  exact hserves

theorem follows_dumpIn (t : TableId) (kind : ValueKind) :
    Follows (readers ε) (t.dumpIn kind) (t.onRecords (.dump kind)) := by
  refine follows_onRecords ?_ ?_
  · intro c hc
    exact ((IsolatedEngine.reading_readsAs.count t.takes_name).computes
      (Copy.run_count_none hc)).bind_error
  · intro c table hc
    have hcount : Computes (readers ε) (Engine.reading.count t.name) c (.ok table.size) c :=
      (IsolatedEngine.reading_readsAs.count t.takes_name).computes (Copy.run_count_some hc)
    have hscan : Computes (readers ε) (Engine.reading.scan t.name) c (.ok table.entries) c :=
      (IsolatedEngine.reading_readsAs.scan t.takes_name).computes (Copy.run_scan_some hc)
    rw [Rewrite.dump]
    cases hitems : (Dump.decodeItems kind table.entries).mapError StorageError.corrupt with
    | error x =>
        refine ⟨c, hcount.bind (hscan.bind ?_)⟩
        rw [hitems]
        exact .ofExcept _ _ _
    | ok items =>
        simp only [Except.map, SortedMap.insert_eq_self hc]
        refine hcount.bind (hscan.bind ?_)
        rw [hitems]
        exact .ofExcept _ _ _

theorem serves_dump (t : TableId) (panel : Panel) (kind : ValueKind) (order : SortOrder) :
    Serves (t.dump panel kind order : StoreM ε Dump)
      (t.onRecords ((Rewrite.dump kind).map (fun items =>
        (⟨panel, kind, items⟩ : Dump).sort order))) := by
  rw [← map_onRecords]
  refine (serves_read (t.follows_dumpIn kind) (onRecords_eq_self ?_)).reporting (fun _ => .pure _)
  intro table a table' h
  rw [Rewrite.dump] at h
  cases hitems : (Dump.decodeItems kind table.entries).mapError StorageError.corrupt with
  | error x => rw [hitems] at h; cases h
  | ok items => rw [hitems] at h; cases h; rfl

end TableId

end TrafficStore
