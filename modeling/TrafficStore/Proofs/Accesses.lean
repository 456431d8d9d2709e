import TrafficStore.Call
import TrafficStore.Proofs.Records
import TrafficStore.Proofs.Work

namespace TrafficStore

open ScopeViews

namespace Access

def key? : Access → Option Key
  | putInt k _ | putWord k _ | putText k _ | addInt k _ | addWord k _ | raise k _ => some k
  | allocate name => some (.name name)
  | findInt _ | findText _ | intOrZero _ | wordOrZero _ | cardinality | dump .. => none

def allocates : Access → Bool
  | allocate _ => true
  | _ => false

theorem writes_of_allocates {a : Access} (h : a.allocates = true) : a.writes = true := by
  cases a with
  | allocate name => rfl
  | _ => cases h

theorem key?_eq_none {a : Access} (h : a.writes = false) : a.key? = none := by
  cases a <;> first | rfl | cases h

def notFound : Access → Reply
  | findInt _ | allocate _ => .maybeInt none
  | findText _ => .maybeText none
  | intOrZero _ | addInt .. => .int 0
  | wordOrZero _ | addWord .. => .word 0
  | cardinality => .size 0
  | putInt .. | putWord .. | putText .. => .done
  | raise .. => .flag false
  | dump .. => .maybeDump none

def rewrite (t : TableId) : Access → Rewrite Reply
  | findInt k => (Rewrite.find .int k).map .maybeInt
  | findText k => (Rewrite.find .text k).map .maybeText
  | intOrZero k => (Rewrite.find .int k).map (fun n => .int (n.getD 0))
  | wordOrZero k => (Rewrite.find .word k).map (fun n => .word (n.getD 0))
  | cardinality => Rewrite.count.map .size
  | putInt k n => (Rewrite.put .int k n).map (fun _ => .done)
  | putWord k n => (Rewrite.put .word k n).map (fun _ => .done)
  | putText k s => (Rewrite.put .text k s).map (fun _ => .done)
  | addInt k delta => (Rewrite.accumulate .int 0 TrafficStore.addInt k delta).map .int
  | addWord k delta => (Rewrite.accumulate .word 0 TrafficStore.addWord k delta).map .word
  | raise k candidate => (Rewrite.raise k candidate).map .flag
  | allocate name => (Rewrite.allocate t.name name).map .allocation
  | dump panel kind order =>
      (Rewrite.dump kind).map (fun items => .dump ((⟨panel, kind, items⟩ : Dump).sort order))

theorem serves {ε : Type} [Engine ε] [IsolatedEngine ε] (t : TableId) (a : Access) :
    Serves (a.run t : StoreM ε Reply) (t.onRecords (a.rewrite t)) := by
  have hmap : ∀ {α : Type} {m : StoreM ε α} {w : Rewrite α}, Serves m (t.onRecords w) →
      ∀ g : α → Reply, Serves (g <$> m) (t.onRecords (w.map g)) := by
    intro α m w h g
    rw [← TableId.map_onRecords]
    exact h.map g
  cases a with
  | findInt k => exact hmap (t.serves_find .int k) _
  | findText k => exact hmap (t.serves_find .text k) _
  | intOrZero k =>
      have h := hmap (t.serves_findOr .int 0 k) Reply.int
      rw [Rewrite.map_map] at h
      exact h
  | wordOrZero k =>
      have h := hmap (t.serves_findOr .word 0 k) Reply.word
      rw [Rewrite.map_map] at h
      exact h
  | cardinality => exact hmap t.serves_cardinality _
  | putInt k n => exact hmap (t.serves_put .int k n) _
  | putWord k n => exact hmap (t.serves_put .word k n) _
  | putText k s => exact hmap (t.serves_put .text k s) _
  | addInt k delta => exact hmap (t.serves_accumulate .int 0 TrafficStore.addInt k delta) _
  | addWord k delta => exact hmap (t.serves_accumulate .word 0 TrafficStore.addWord k delta) _
  | raise k candidate => exact hmap (t.serves_raise k candidate) _
  | allocate name => exact hmap (t.serves_allocate name) _
  | dump panel kind order =>
      have h := hmap (t.serves_dump panel kind order) Reply.dump
      rw [Rewrite.map_map] at h
      exact h

end Access

namespace Catalog

variable {ε α β : Type}

theorem map_onTable (g : α → β) (cat : Catalog) (t : TableId) (missing : α)
    (op : TableId → StoreM ε α) :
    g <$> cat.onTable t missing op = cat.onTable t (g missing) (fun u => g <$> op u) := by
  rw [onTable, onTable]
  cases cat.table? t with
  | none => simp only [map_bind, map_pure]
  | some u => rfl

end Catalog

def TableId.panel? : TableId → Option Panel
  | .shared _ => none
  | .panel p _ => some p

namespace Call

variable {q : Call} {t : TableId} {a : Access}

def notFound : Call → Reply
  | .markVisitor .. => .flag false
  | .rootLabel .. => .maybeText none
  | q =>
      match q.access? with
      | some (_, a) => a.notFound
      | none => .done

def answered : Call → Reply → Reply
  | .assignKey .., .allocation a | .assignVisitorKey _, .allocation a
  | .assignAgentKey _, .allocation a => .maybeInt (some a.id)
  | .markVisitor .., .allocation a => .flag a.isNew
  | .dump _, .dump d => .maybeDump (some d)
  | _, r => r

def target? (q : Call) : Option TableId :=
  q.access?.bind (fun a => if a.2.writes then some a.1 else none)

def place? (q : Call) : Option (TableId × Key) :=
  q.access?.bind (fun a => a.2.key?.map (fun k => (a.1, k)))

def allocates (q : Call) : Bool :=
  match q.access? with
  | some (_, a) => a.allocates
  | none => false

def panel? : Call → Option Panel
  | .rootLabel p _ => some p
  | q => q.access?.bind (fun a => a.1.panel?)

def tables : Call → List TableId
  | .rootLabel p _ => [.panel p .root, .panel p .rootMap]
  | q => (q.access?.map Prod.fst).toList

theorem tables_eq (hq : q.access? = some (t, a)) : q.tables = [t] := by
  cases q <;> cases hq <;> rfl

theorem panel?_of_access {a : TableId × Access} (ha : q.access? = some a) :
    q.panel? = a.1.panel? := by
  cases q <;> cases ha <;> rfl

theorem writes_eq (hq : q.access? = some (t, a)) : q.writes = a.writes := by rw [writes, hq]

theorem place?_eq_none (h : q.writes = false) : q.place? = none := by
  rw [place?]
  cases hq : q.access? with
  | none => rfl
  | some ta =>
      rw [writes_eq hq] at h
      rw [Option.bind_some, Access.key?_eq_none h]
      rfl

theorem allocates_eq (hq : q.access? = some (t, a)) : q.allocates = a.allocates := by
  rw [allocates, hq]

theorem writes_of_allocates (h : q.allocates = true) : q.writes = true := by
  cases hq : q.access? with
  | none => rw [allocates, hq] at h; cases h
  | some ta =>
      rw [allocates_eq hq] at h
      exact (writes_eq hq).trans (Access.writes_of_allocates h)

theorem cases_of_access_none (hq : q.access? = none) :
    (∃ p id, q = .rootLabel p id) ∨ ∃ force, q = .sync force := by
  cases q with
  | rootLabel p id => exact .inl ⟨p, id, rfl⟩
  | sync force => exact .inr ⟨force, rfl⟩
  | _ => cases hq

/-- A call is its access on its table, answered in its own way. Only a dump flushes before. -/
theorem run_cases (ε : Type) [Engine ε] (q : Call) :
    (∃ t a, q.access? = some (t, a) ∧ ∀ cat : Catalog, (q.run cat : StoreM ε Reply) =
        cat.onTable t q.notFound (fun u => q.answered <$> a.run u)) ∨
      (∃ p, q = .dump p) ∨ (∃ p id, q = .rootLabel p id) ∨ ∃ force, q = .sync force := by
  cases q with
  | dump p => exact .inr (.inl ⟨p, rfl⟩)
  | rootLabel p id => exact .inr (.inr (.inl ⟨p, id, rfl⟩))
  | sync force => exact .inr (.inr (.inr ⟨force, rfl⟩))
  | _ =>
      refine .inl ⟨_, _, rfl, fun cat => (Catalog.map_onTable _ cat _ _ _).trans
        (congrArg _ (funext (fun u => ?_)))⟩
      simp only [Access.run, Functor.map_map]
      rfl

end Call

end TrafficStore
