import TrafficStore.Proofs.Accesses

namespace TrafficStore

abbrev Roomless {ς α : Type} (m : Work ς StorageError α) : Prop :=
  m.FailsOnly (fun x => x.isFull = false)

namespace Roomless

variable {α : Type}

theorem report {ε : Type} (x : Event) : Roomless (Environment.report x : StoreM ε Unit) :=
  .update _

theorem inScope {σ : Type} {op : ScopeM Volatile σ α} (h : Roomless op) (s : σ) :
    Roomless (Environment.inScope s op) := by
  intro e x hx
  cases hrun : op.run (s, e) with
  | mk r s' =>
      simp only [Environment.inScope, hrun] at hx
      cases r with
      | ok a => cases hx
      | error y =>
          cases hx
          exact h (s, e) x (by rw [hrun])

theorem onEngine {ε : Type} {m : EngineM ε α} (h : Roomless m) :
    Roomless (Environment.onEngine m) := by
  rw [Environment.onEngine]
  exact h.within _ _

theorem read {op : ScopeM Volatile Content α} (h : Roomless op) :
    Roomless (Environment.read op : StoreM Volatile α) :=
  onEngine (.bind (fun _ _ hx => nomatch hx) (fun c => .bind (inScope h c) (fun o =>
    .bind (.pure ()) (fun _ => .pure o.1))))

theorem find (table : String) (key : Bytes) : Roomless (Volatile.reading.find table key) := by
  intro s x h
  simp only [Volatile.reading] at h
  split at h <;> cases h
  rfl

theorem count (table : String) : Roomless (Volatile.reading.count table) := by
  intro s x h
  simp only [Volatile.reading] at h
  split at h <;> cases h
  rfl

theorem scan (table : String) : Roomless (Volatile.reading.scan table) := by
  intro s x h
  simp only [Volatile.reading] at h
  split at h <;> cases h
  rfl

theorem isFull_of_corrupt {r : Except FormatFault α} {x : StorageError}
    (h : r.mapError .corrupt = .error x) : x.isFull = false := by
  cases r with
  | ok a => cases h
  | error y => cases h; rfl

theorem field (t : TableId) (f : Format α) (k : Key) : Roomless (t.field Volatile.reading f k) := by
  refine .bind (find t.name k.bytes) (fun raw => .ofExcept ?_)
  intro x h
  cases raw with
  | none => cases h
  | some bs => exact isFull_of_corrupt h

theorem dumpIn (t : TableId) (kind : ValueKind) : Roomless (t.dumpIn kind : ScopeM Volatile _ _) :=
  .bind (count t.name) fun _ =>
    .bind (scan t.name) fun _ => .ofExcept (fun _ => isFull_of_corrupt)

theorem lookUp (t : TableId) (f : Format α) (k : Key) :
    Roomless (t.find f k : StoreM Volatile (Option α)) := read (field t f k)

theorem onTable (cat : Catalog) (t : TableId) (missing : α) {op : TableId → StoreM Volatile α}
    (h : ∀ t, Roomless (op t)) : Roomless (cat.onTable t missing op) := by
  rw [Catalog.onTable]
  cases cat.table? t with
  | some t => exact h t
  | none =>
      refine .bind ?_ (fun _ => .pure missing)
      cases t with
      | shared t => exact .pure ()
      | panel p m => exact report _

theorem sync (force : Bool) : Roomless (Environment.sync force : StoreM Volatile Unit) :=
  .bind (onEngine (fun _ _ hx => nomatch hx)) (fun e => by
    cases e with
    | none => exact .pure ()
    | some x => exact report x)

theorem rootLabel (cat : Catalog) (p : Panel) (id : Int32) :
    Roomless (cat.rootLabel p id : StoreM Volatile (Option String)) := by
  rw [Catalog.rootLabel]
  cases cat.panelTable? p .root with
  | none => exact .pure none
  | some root =>
      cases cat.panelTable? p .rootMap with
      | none => exact .pure none
      | some labels =>
          refine read (.bind (field root .int (.id id)) (fun r => ?_))
          cases r with
          | none => exact .pure none
          | some r =>
              by_cases h0 : r = 0
              · simp only [if_pos h0]
                exact .pure none
              · simp only [if_neg h0]
                exact field labels .text (.id r)

theorem dump (cat : Catalog) (p : Panel) :
    Roomless (cat.dump p : StoreM Volatile (Option Dump)) := by
  rw [Catalog.dump]
  cases cat.panelTable? p p.dumpPolicy.metric with
  | none => exact .bind (report _) (fun _ => .pure none)
  | some t =>
      exact .bind (sync true) (fun _ => .bind (.bind (read (dumpIn t _)) (fun _ => .pure _))
        (fun _ => .bind (report _) (fun _ => .pure _)))

end Roomless

namespace Access

theorem roomless_run {a : Access} (h : a.writes = false) (t : TableId) :
    Roomless (a.run t : StoreM Volatile Reply) := by
  cases a with
  | findInt | findText => exact .map (Roomless.lookUp t _ _) _
  | intOrZero | wordOrZero => exact .map (.bind (Roomless.lookUp t _ _) (fun _ => .pure _)) _
  | cardinality => exact .map (Roomless.read (Roomless.count t.name)) _
  | dump panel kind order =>
      exact .map (.bind (Roomless.read (Roomless.dumpIn t kind)) (fun _ => .pure _)) _
  | _ => cases h

end Access

namespace Call

theorem roomless_run (cat : Catalog) {q : Call} (hq : q.writes = false) :
    Roomless (q.run cat : StoreM Volatile Reply) := by
  rcases q.run_cases Volatile with ⟨t, a, ha, hrun⟩ | ⟨p, rfl⟩ | ⟨p, id, rfl⟩ | ⟨force, rfl⟩
  · rw [hrun]
    rw [writes_eq ha] at hq
    exact Roomless.onTable cat t _ (fun u => (Access.roomless_run hq u).map _)
  · exact .map (Roomless.dump cat p) _
  · exact .map (Roomless.rootLabel cat p id) _
  · exact .map (Roomless.sync force) _

end Call

end TrafficStore
