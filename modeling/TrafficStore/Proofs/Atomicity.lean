import TrafficStore.Procedure
import TrafficStore.Proofs.Accesses
import TrafficStore.Proofs.Engine.Atomic

namespace TrafficStore

open Ledger

variable {ε σ α β : Type} [Engine ε]

section Scopes

variable [AtomicEngine ε]

theorem Look.quietIn {r : Reading ε σ} (h : QuietReading r) :
    ∀ {β : Type} (l : Look β), QuietIn (l.through r)
  | _, .find t key => h.find t.name_ne_empty key
  | _, .count t => h.count t.name_ne_empty
  | _, .scan t => h.scan t.name_ne_empty

theorem Deed.quietIn : ∀ {β : Type} (d : Deed β), QuietIn (d.inWriter : ScopeM ε _ β)
  | _, .look l => l.quietIn AtomicEngine.rereading_quiet
  | _, .create t => AtomicEngine.create_quiet t.name_ne_empty
  | _, .put t key value => AtomicEngine.put_quiet t.name_ne_empty key value

end Scopes

namespace Procedure

variable {Op : Type → Type 1} {ς : Type}

theorem invariant {handle : ∀ {β : Type}, Op β → Work ς StorageError β} {I : ς → Prop}
    (h : ∀ {β : Type} (op : Op β) s, I s → I ((handle op).run s).2) (p : Procedure Op α) :
    ∀ s, I s → I ((p.run handle).run s).2 := by
  induction p with
  | done r => exact fun s hs => hs
  -- a failure is an answer like any other, so `ih` takes the work on from there too
  | ask op next ih => exact fun s hs => ih _ _ (h op s hs)

variable [AtomicEngine ε]

theorem quietIn {handle : ∀ {β : Type}, Op β → ScopeM ε σ β}
    (h : ∀ {β : Type} (op : Op β), QuietIn (handle op)) (p : Procedure Op α) :
    QuietIn (p.run handle) := fun s =>
  p.invariant (I := fun s' => standing s'.2 = standing s.2) (fun op s' hs' => (h op s').trans hs')
    s rfl

theorem quietIn_inReader (p : Procedure Look α) : QuietIn (p.inReader : ScopeM ε _ α) :=
  p.quietIn (fun l => l.quietIn AtomicEngine.reading_quiet)

theorem quietIn_inWriter (p : Procedure Deed α) : QuietIn (p.inWriter : ScopeM ε _ α) :=
  p.quietIn Deed.quietIn

end Procedure

omit [Engine ε] in
theorem run_onEngine {m : EngineM ε α} {r : Except StorageError α} {env env' : Environment ε}
    (h : (Environment.onEngine m).run env = (r, env')) :
    ∃ e, m.run env.engine = (r, e) ∧ { env with engine := e } = env' := by
  rw [Environment.onEngine, Work.run_within] at h
  obtain ⟨hr, henv⟩ := Prod.mk.inj h
  exact ⟨(m.run env.engine).2, Prod.ext hr rfl, henv⟩

section Transactions

variable [AtomicEngine ε]

theorem quiet_inScope {op : ScopeM ε σ α} (h : QuietIn op) (s : σ) :
    Quiet (Environment.inScope s op) := by
  intro e
  have h := h (s, e)
  cases hrun : op.run (s, e) with
  | mk r s' =>
      rw [hrun] at h
      cases r with
      | ok a => simp only [Environment.inScope, hrun]; exact h
      | error x => simp only [Environment.inScope, hrun]; exact h

theorem quiet_transactionRead {op : ScopeM ε (Engine.Reader ε) α} (h : QuietIn op) :
    Quiet (Environment.transactionRead op) :=
  AtomicEngine.beginRead_quiet.bind (fun r => (quiet_inScope h r).bind (fun o =>
    (AtomicEngine.endRead_quiet o.2).bind (fun _ => .pure o.1)))

theorem transactionWrite_cases {op : ScopeM ε (Engine.Writer ε) α} (h : QuietIn op) (e : ε) :
    match (Environment.transactionWrite op).run e with
    | (.ok a, e') => ∃ w₀ e₀ w e₁, Engine.beginWrite.run e = (.ok w₀, e₀) ∧
        outcome w₀ = Engine.committed e ∧ op.run (w₀, e₀) = (.ok a, (w, e₁)) ∧
        Engine.committed e' = outcome w
    | (.error _, e') => standing e' = standing e := by
  rw [Environment.transactionWrite, Work.run_bind]
  have hbegin := AtomicEngine.beginWrite_quiet e
  cases hrun₀ : Engine.beginWrite.run e with
  | mk r₀ e₀ =>
      rw [hrun₀] at hbegin
      cases r₀ with
      | error x => exact hbegin
      | ok w₀ =>
          have hop := h (w₀, e₀)
          simp only [Work.run_bind, Environment.inScope]
          cases hrun₁ : op.run (w₀, e₀) with
          | mk r₁ p =>
              obtain ⟨w, e₁⟩ := p
              rw [hrun₁] at hop
              have hstanding : standing e₁ = standing e := hop.trans hbegin
              cases r₁ with
              | error x => exact hstanding
              | ok a =>
                  cases hrun₂ : (Engine.commit w).run e₁ with
                  | mk r₂ e₂ =>
                      cases r₂ with
                      | error x =>
                          simp only [hrun₂]
                          exact (AtomicEngine.commit_error hrun₂).trans hstanding
                      | ok u =>
                          simp only [hrun₂, Work.run_pure]
                          exact ⟨w₀, e₀, w, e₁, rfl, AtomicEngine.outcome_begin hrun₀, hrun₁,
                            AtomicEngine.commit_ok hrun₂⟩

end Transactions

def RollsBack [Ledger ε] (m : StoreM ε α) : Prop :=
  ∀ env x env', m.run env = (.error x, env') → standing env'.engine = standing env.engine

abbrev Looks [Ledger ε] (m : StoreM ε α) : Prop :=
  m.Preserves (fun env => standing env.engine)

namespace RollsBack

section

variable [Ledger ε] {m : StoreM ε α}

theorem of_looks (h : Looks m) : RollsBack m := by
  intro env x env' hrun
  have h := h env
  rw [hrun] at h
  exact h

-- `n` must not fail: what `m` has changed by then stands
theorem bind {n : α → StoreM ε β} (hm : RollsBack m)
    (hn : ∀ a, (n a).FailsOnly (fun _ => False)) : RollsBack (m >>= n) := by
  intro env x env' hrun
  rw [Work.run_bind] at hrun
  cases hrun₁ : m.run env with
  | mk r env₁ =>
      rw [hrun₁] at hrun
      cases r with
      | error y =>
          cases hrun
          exact hm env x env' hrun₁
      | ok a => exact (hn a env₁ x (congrArg Prod.fst hrun)).elim

theorem after {n : α → StoreM ε β} (hm : Looks m) (hn : ∀ a, RollsBack (n a)) :
    RollsBack (m >>= n) := by
  intro env x env' hrun
  have hm := hm env
  rw [Work.run_bind] at hrun
  cases hrun₁ : m.run env with
  | mk r env₁ =>
      rw [hrun₁] at hrun hm
      cases r with
      | error y =>
          cases hrun
          exact hm
      | ok a => exact (hn a env₁ x env' hrun).trans hm

theorem map (hm : RollsBack m) (f : α → β) : RollsBack (f <$> m) := by
  rw [← bind_pure_comp]
  exact hm.bind (fun a => .pure (f a))

theorem report (x : Event) : Looks (Environment.report x : StoreM ε Unit) := fun _ => rfl

end

variable [AtomicEngine ε]

theorem looks_read {op : ScopeM ε (Engine.Reader ε) α} (h : QuietIn op) :
    Looks (Environment.read op) := fun env => quiet_transactionRead h env.engine

theorem write {op : ScopeM ε (Engine.Writer ε) α} (h : QuietIn op) :
    RollsBack (Environment.write op) := by
  intro env x env' hrun
  obtain ⟨e', hrun', rfl⟩ := run_onEngine hrun
  have hcases := transactionWrite_cases h env.engine
  rw [hrun'] at hcases
  exact hcases

theorem looks_sync (force : Bool) : Looks (Environment.sync force : StoreM ε Unit) := by
  refine .bind (fun env => AtomicEngine.sync_quiet force env.engine) (fun e => ?_)
  cases e with
  | none => exact .pure ()
  | some x => exact report x

end RollsBack

namespace TableId

variable [AtomicEngine ε] (t : TableId)

theorem quietIn_field {r : Reading ε σ} (h : QuietReading r) (f : Format α) (k : Key) :
    QuietIn (t.field r f k) :=
  (h.find t.name_ne_empty k.bytes).bind (fun _ => .ofExcept _)

theorem quietIn_put (key value : Bytes) : QuietIn (Engine.put t.name key value : ScopeM ε _ Unit) :=
  AtomicEngine.put_quiet t.name_ne_empty key value

theorem looks_find (f : Format α) (k : Key) : Looks (t.find f k : StoreM ε (Option α)) :=
  RollsBack.looks_read (t.quietIn_field AtomicEngine.reading_quiet f k)

theorem looks_findOr (f : Format α) (missing : α) (k : Key) :
    Looks (do return (← t.find f k).getD missing : StoreM ε α) :=
  (t.looks_find f k).bind (fun _ => .pure _)

theorem looks_cardinality : Looks (t.cardinality : StoreM ε Nat) :=
  RollsBack.looks_read (AtomicEngine.reading_quiet.count t.name_ne_empty)

theorem rollsBack_put (f : Format α) (k : Key) (a : α) : RollsBack (t.put f k a : StoreM ε Unit) :=
  .write (t.quietIn_put k.bytes (f.encode a))

theorem rollsBack_accumulate (f : Format α) (zero : α) (add : α → α → α) (k : Key) (delta : α) :
    RollsBack (t.accumulate f zero add k delta : StoreM ε α) :=
  .write ((t.quietIn_field AtomicEngine.rereading_quiet f k).bind (fun _ =>
    (t.quietIn_put k.bytes _).bind (fun _ => .pure _)))

theorem rollsBack_raise (k : Key) (candidate : UInt64) :
    RollsBack (t.raise k candidate : StoreM ε Bool) := by
  refine .write ((t.quietIn_field AtomicEngine.rereading_quiet .word k).bind (fun current => ?_))
  by_cases hlt : current.getD 0 < candidate
  · rw [if_pos hlt]
    exact (t.quietIn_put k.bytes _).bind (fun _ => .pure _)
  · rw [if_neg hlt]
    exact .pure _

theorem quietIn_allocateIn (name : String) :
    QuietIn (t.allocateIn name : ScopeM ε (Engine.Writer ε) Allocation) := by
  refine (t.quietIn_field AtomicEngine.rereading_quiet .int (.name name)).bind (fun found => ?_)
  cases found with
  | some id => exact .pure _
  | none =>
      refine (AtomicEngine.rereading_quiet.count t.name_ne_empty).bind (fun n => ?_)
      cases nextId? n with
      | none => exact .fail _
      | some id => exact (t.quietIn_put _ _).bind (fun _ => .pure _)

theorem rollsBack_allocate (name : String) :
    RollsBack (t.allocate name : StoreM ε Allocation) := by
  refine .bind (.write (t.quietIn_allocateIn name)) (fun a => ?_)
  cases a with
  | existing id => exact .pure _
  | inserted id => exact .bind (.update _) (fun _ => .pure _)

theorem looks_dump (panel : Panel) (kind : ValueKind) (order : SortOrder) :
    Looks (t.dump panel kind order : StoreM ε Dump) := by
  refine .bind (RollsBack.looks_read ?_) (fun _ => .pure _)
  exact (AtomicEngine.reading_quiet.count t.name_ne_empty).bind (fun _ =>
    (AtomicEngine.reading_quiet.scan t.name_ne_empty).bind (fun _ => .ofExcept _))

end TableId

theorem Access.rollsBack_run [AtomicEngine ε] (t : TableId) (a : Access) :
    RollsBack (a.run t : StoreM ε Reply) := by
  cases a with
  | findInt | findText => exact (RollsBack.of_looks (t.looks_find _ _)).map _
  | intOrZero | wordOrZero => exact (RollsBack.of_looks (t.looks_findOr _ _ _)).map _
  | cardinality => exact (RollsBack.of_looks t.looks_cardinality).map _
  | putInt | putWord | putText => exact (t.rollsBack_put _ _ _).map _
  | addInt | addWord => exact (t.rollsBack_accumulate _ _ _ _ _).map _
  | raise => exact (t.rollsBack_raise _ _).map _
  | allocate => exact (t.rollsBack_allocate _).map _
  | dump => exact (RollsBack.of_looks (t.looks_dump _ _ _)).map _

namespace Catalog

variable [AtomicEngine ε]

theorem quietIn_createTables (ts : List TableId) :
    QuietIn (createTables ts : ScopeM ε (Engine.Writer ε) Unit) := by
  induction ts with
  | nil => exact .pure ()
  | cons t ts ih => exact (AtomicEngine.create_quiet t.name_ne_empty).bind (fun _ => ih)

theorem rollsBack_init (ps : List Panel) : RollsBack (init ps : StoreM ε Catalog) := by
  refine .after .state (fun env => ?_)
  by_cases hlimit : env.settings.maxTables < (TableId.ofPanels ps).length
  · simp only [if_pos hlimit]
    exact .of_looks (.fail _)
  · simp only [if_neg hlimit]
    exact .bind (.write (quietIn_createTables _)) (fun _ => .bind (.update _) (fun _ => .pure _))

theorem rollsBack_onTable (cat : Catalog) (t : TableId) (missing : α) {op : TableId → StoreM ε α}
    (h : ∀ t, RollsBack (op t)) : RollsBack (cat.onTable t missing op) := by
  rw [onTable]
  cases cat.table? t with
  | some t => exact h t
  | none =>
      refine .of_looks (.bind ?_ (fun _ => .pure missing))
      cases t with
      | shared t => exact .pure ()
      | panel p m => exact RollsBack.report _

theorem looks_rootLabel (cat : Catalog) (p : Panel) (id : Int32) :
    Looks (cat.rootLabel p id : StoreM ε (Option String)) := by
  rw [rootLabel]
  cases cat.panelTable? p .root with
  | none => exact .pure none
  | some root =>
      cases cat.panelTable? p .rootMap with
      | none => exact .pure none
      | some labels =>
          refine RollsBack.looks_read
            ((root.quietIn_field AtomicEngine.reading_quiet .int (.id id)).bind (fun r => ?_))
          cases r with
          | none => exact .pure none
          | some r =>
              by_cases h0 : r = 0
              · simp only [if_pos h0]
                exact .pure none
              · simp only [if_neg h0]
                exact labels.quietIn_field AtomicEngine.reading_quiet .text (.id r)

theorem looks_dump (cat : Catalog) (p : Panel) :
    Looks (cat.dump p : StoreM ε (Option Dump)) := by
  rw [dump]
  cases cat.panelTable? p p.dumpPolicy.metric with
  | none => exact .bind (RollsBack.report _) (fun _ => .pure _)
  | some t =>
      exact .bind (RollsBack.looks_sync true) (fun _ => .bind (t.looks_dump _ _ _) (fun _ =>
        .bind (RollsBack.report _) (fun _ => .pure _)))

end Catalog

theorem Call.rollsBack_run [AtomicEngine ε] (cat : Catalog) (q : Call) :
    RollsBack (q.run cat : StoreM ε Reply) := by
  rcases q.run_cases ε with ⟨t, a, -, hrun⟩ | ⟨p, rfl⟩ | ⟨p, id, rfl⟩ | ⟨force, rfl⟩
  · rw [hrun]
    exact cat.rollsBack_onTable t _ (fun u => (a.rollsBack_run u).map _)
  · exact .map (.of_looks (cat.looks_dump p)) _
  · exact .map (.of_looks (cat.looks_rootLabel p id)) _
  · exact .map (.of_looks (RollsBack.looks_sync force)) _

structure AllOrNothing (ε : Type) [Engine ε] [Ledger ε] : Prop where
  write_ok : ∀ {α : Type} {p : Procedure Deed α} {env env' : Environment ε} {a : α},
    (Environment.write p.inWriter).run env = (.ok a, env') →
    ∃ w₀ e₀ w e₁, Engine.beginWrite.run env.engine = (.ok w₀, e₀) ∧
      outcome w₀ = Engine.committed env.engine ∧ p.inWriter.run (w₀, e₀) = (.ok a, (w, e₁)) ∧
      Engine.committed env'.engine = outcome w
  write_error : ∀ {α : Type} (p : Procedure Deed α),
    RollsBack (Environment.write p.inWriter : StoreM ε α)
  read : ∀ {α : Type} (p : Procedure Look α), Looks (Environment.read p.inReader : StoreM ε α)
  access : ∀ t (a : Access), RollsBack (a.run t : StoreM ε Reply)
  init : ∀ ps, RollsBack (Catalog.init ps : StoreM ε Catalog)
  call : ∀ cat (q : Call), RollsBack (q.run cat : StoreM ε Reply)

theorem allOrNothing (ε : Type) [Engine ε] [AtomicEngine ε] : AllOrNothing ε where
  write_ok {α p env env' a} hrun := by
    obtain ⟨e', hrun', rfl⟩ := run_onEngine hrun
    have hcases := transactionWrite_cases (ε := ε) p.quietIn_inWriter env.engine
    rw [hrun'] at hcases
    exact hcases
  write_error p := .write p.quietIn_inWriter
  read p := RollsBack.looks_read p.quietIn_inReader
  access t a := a.rollsBack_run t
  init := Catalog.rollsBack_init
  call cat q := q.rollsBack_run cat

section Views

open ScopeViews

def Look.onCopy {β : Type} : Look β → CopyM β
  | find t key => Copy.find t.name key
  | count t => Copy.count t.name
  | scan t => Copy.scan t.name

def Deed.onCopy {β : Type} : Deed β → CopyM β
  | look l => l.onCopy
  | create t => Copy.create t.name
  | put t key value => Copy.put t.name key value

namespace Procedure

def onCopy (p : Procedure Deed α) : CopyM α := p.run Deed.onCopy

def Faultless [ScopeViews ε] : Procedure Deed α → Engine.Writer ε × ε → Prop
  | done _, _ => True
  | ask op next, s =>
      ¬ Faults ε (op.inWriter.run s).1 ∧
        (next (op.inWriter.run s).1).Faultless (op.inWriter.run s).2

end Procedure

variable [IsolatedEngine ε]

theorem Look.mirrors {v : Window ε σ} {r : Reading ε σ} (h : ReadsAs v r) :
    ∀ {β : Type} (l : Look β), Mirrors v (l.through r) l.onCopy
  | _, .find t key => h.find t.takes_name key
  | _, .count t => h.count t.takes_name
  | _, .scan t => h.scan t.takes_name

theorem Deed.mirrors : ∀ {β : Type} (d : Deed β), Mirrors (writers ε) d.inWriter d.onCopy
  | _, .look l => l.mirrors IsolatedEngine.rereading_readsAs
  | _, .create t => IsolatedEngine.create_mirrors t.takes_name
  | _, .put t key value => IsolatedEngine.put_mirrors t.takes_name key value

theorem Procedure.run_onCopy (p : Procedure Deed α) : ∀ {w : Engine.Writer ε} {e : ε}, Sound e →
    Owns e w → p.Faultless (w, e) → ∃ r w' e', p.inWriter.run (w, e) = (r, (w', e')) ∧
      Keeps e e' ∧ p.onCopy.run (draft w) = (r, draft w') ∧ Owns e' w' := by
  induction p with
  | done r => exact fun _ hw _ => ⟨r, _, _, rfl, .refl _, rfl, hw⟩
  | ask op next ih =>
      intro w e hs hw hfree
      -- a fault has no counterpart on the copy, so it is ruled out before the work goes on
      obtain ⟨hno, hrest⟩ := hfree
      obtain ⟨r, w₁, e₁, hrun, hk, hr⟩ := op.mirrors w e hs hw
      rw [hrun] at hno hrest
      obtain ⟨hcopy, hw₁⟩ := hr.resolve_left hno
      obtain ⟨r', w₂, e₂, hrun', hk', hcopy', hw₂⟩ := ih r (hk.sound hs) hw₁ hrest
      refine ⟨r', w₂, e₂, ?_, hk.trans hk', ?_, hw₂⟩
      · change ((next (op.inWriter.run (w, e)).1).inWriter).run (op.inWriter.run (w, e)).2 = _
        rw [hrun]
        exact hrun'
      · change ((next (op.onCopy.run (draft w)).1).onCopy).run (op.onCopy.run (draft w)).2 = _
        rw [show op.onCopy.run (draft w) = (r, draft w₁) from hcopy]
        exact hcopy'

theorem transactionWrite_onCopy {p : Procedure Deed α} {e e' : ε} {a : α} (hs : Sound e)
    (hfree : ∀ w e₀, Engine.beginWrite.run e = (.ok w, e₀) → p.Faultless (w, e₀))
    (hrun : (Environment.transactionWrite p.inWriter).run e = (.ok a, e')) :
    p.onCopy.run (Engine.committed e) = (.ok a, Engine.committed e') := by
  obtain ⟨r₀, e₀, hrun₀, hk₀, hr₀⟩ := IsolatedEngine.beginWrite_eq e hs
  rw [Environment.transactionWrite, Work.run_bind, hrun₀] at hrun
  rcases hr₀ with ⟨x, rfl, _⟩ | ⟨w₀, rfl, hdraft, hw₀⟩
  · cases hrun
  · obtain ⟨r₁, w, e₁, hrun₁, hk₁, hcopy, hw⟩ :=
      p.run_onCopy (hk₀.sound hs) hw₀ (hfree w₀ e₀ hrun₀)
    rw [hdraft] at hcopy
    simp only [Work.run_bind, Environment.inScope, hrun₁] at hrun
    cases r₁ with
    | error x => cases hrun
    | ok b =>
        obtain ⟨r₂, e₂, hrun₂, hr₂⟩ :=
          IsolatedEngine.commit_eq w e₁ (hk₁.sound (hk₀.sound hs)) hw
        simp only [hrun₂] at hrun
        rcases hr₂ with ⟨⟨x, rfl, _⟩, _⟩ | ⟨rfl, _, hc⟩
        · cases hrun
        · cases hrun
          rw [hcopy, ← hc]

def PublishesCopy (ε : Type) [Engine ε] [ScopeViews ε] : Prop :=
  ∀ {α : Type} {p : Procedure Deed α} {env env' : Environment ε} {a : α}, Sound env.engine →
    (∀ w e, Engine.beginWrite.run env.engine = (.ok w, e) → p.Faultless (w, e)) →
    (Environment.write p.inWriter).run env = (.ok a, env') →
    p.onCopy.run (Engine.committed env.engine) = (.ok a, Engine.committed env'.engine)

theorem publishesCopy (ε : Type) [Engine ε] [IsolatedEngine ε] : PublishesCopy ε := by
  intro α p env env' a hs hfree hrun
  obtain ⟨e', hrun', rfl⟩ := run_onEngine hrun
  exact transactionWrite_onCopy hs hfree hrun'

end Views

namespace Volatile

open ScopeViews

theorem valid_look {s : Writer × Volatile} (hs : s.1.Valid) (l : Look β) :
    ((l.through rereading).run s).2.1.Valid := by
  have hsame : ((l.through rereading).run s).2.1 = s.1 := by
    cases l <;> simp only [Look.through, rereading] <;> split <;> rfl
  exact hsame ▸ hs

theorem valid_create {s : Writer × Volatile} (hs : s.1.Valid) (table : String) :
    ((create table).run s).2.1.Valid := by
  simp only [create]
  split
  · exact hs
  · exact Writer.valid_noteCreated hs table

theorem valid_put {s : Writer × Volatile} (hs : s.1.Valid) (table : String) (key value : Bytes) :
    ((put table key value).run s).2.1.Valid := by
  simp only [put]
  split
  · next hhas =>
      split
      · exact hs
      · exact Writer.valid_stage hs hhas key value
  · exact hs

theorem valid_inWriter (p : Procedure Deed α) {s : Writer × Volatile} (hs : s.1.Valid) :
    ((p.inWriter : ScopeM Volatile Writer α).run s).2.1.Valid := by
  refine p.invariant (I := fun s : Writer × Volatile => s.1.Valid) ?_ s hs
  intro β d s hs
  cases d with
  | look l => exact valid_look hs l
  | create t => exact valid_create hs t.name
  | put t key value => exact valid_put hs t.name key value

theorem not_isFull_of_look {l : Look β} {s : Writer × Volatile} {x : StorageError}
    (h : ((l.through rereading).run s).1 = .error x) : x.isFull = false := by
  cases l <;> simp only [Look.through, rereading] at h <;> split at h <;> cases h <;> rfl

theorem look_eq_onCopy {w : Writer} {e : Volatile} (hw : w.Valid) (l : Look β) :
    ((l.through rereading).run (w, e)).1 = (l.onCopy.run w.outcome).1 := by
  obtain ⟨r, w', e', hrun, _, hr⟩ := l.mirrors readsAs_rereading w e trivial hw
  rw [hrun]
  rcases hr with ⟨x, rfl, hx⟩ | ⟨hcopy, _⟩
  · have hno := not_isFull_of_look (congrArg Prod.fst hrun)
    rw [show x.isFull = true from hx] at hno
    cases hno
  · exact (congrArg Prod.fst hcopy).symm

end Volatile

theorem transactions_atomic {δ : Type} [Database δ] [LawfulDatabase δ] :
    AllOrNothing Volatile ∧ AllOrNothing (Faulty Volatile) ∧ AllOrNothing (DatabaseEngine δ) ∧
    PublishesCopy Volatile ∧ PublishesCopy (DatabaseEngine δ) ∧
    ∀ {α : Type} {p : Procedure Deed α} {env env' : Environment Volatile} {a : α},
      (Environment.write p.inWriter).run env = (.ok a, env') →
      ∃ w₀ : Volatile.Writer, ∃ w e, w₀ = { base := env.engine.content } ∧
        p.inWriter.run (w₀, env.engine) = (.ok a, (w, e)) ∧
        ∀ {β : Type} (l : Look β), ((l.through Volatile.rereading).run (w, e)).1 =
          (l.onCopy.run env'.engine.content).1 := by
  refine ⟨allOrNothing _, allOrNothing _, allOrNothing _, publishesCopy _, publishesCopy _, ?_⟩
  intro α p env env' a hrun
  obtain ⟨w₀, e₀, w, e, hbegin, _, hop, hc⟩ := (allOrNothing Volatile).write_ok hrun
  cases hbegin
  refine ⟨_, w, e, rfl, hop, fun l => ?_⟩
  have hvalid := Volatile.valid_inWriter p (s := ({ base := env.engine.content }, env.engine))
    (Volatile.Writer.valid_begin _)
  rw [hop] at hvalid
  rw [show env'.engine.content = w.outcome from hc]
  exact Volatile.look_eq_onCopy hvalid l

def withRoom (bytes : UInt64) : Environment Volatile := .volatile { maxSize := bytes }

def writeTwice : Procedure Deed Unit :=
  .ask (.create (.shared .hostnames)) fun _ => .ask (.put (.shared .hostnames) [1] [2]) fun _ =>
    .ask (.put (.shared .hostnames) [3] [4, 5, 6]) .done

theorem transactions_atomic_writeTwice :
    (∃ (w : Volatile.Writer) (e : Volatile),
      writeTwice.inWriter.run (({ base := .empty } : Volatile.Writer), (withRoom 64).engine) =
        (.ok (), (w, e)) ∧
      ∀ {β : Type} (l : Look β), ((l.through Volatile.rereading).run (w, e)).1 =
        (l.onCopy.run ((Environment.write writeTwice.inWriter).run
          (withRoom 64)).2.engine.content).1) ∧
    ((Environment.write writeTwice.inWriter).run (withRoom 64)).2.engine.content =
      SortedMap.empty.insert "db_hostnames"
        ((SortedMap.empty.insert [1] [2]).insert [3] [4, 5, 6]) ∧
    ((Environment.write writeTwice.inWriter).run (withRoom 5)).1 = .error (.full 2 5) ∧
    standing ((Environment.write writeTwice.inWriter).run (withRoom 5)).2.engine =
      standing (withRoom 5).engine := by
  have hrun : ((Environment.write writeTwice.inWriter).run (withRoom 64)).1 = .ok () := rfl
  have hfull : ((Environment.write writeTwice.inWriter).run (withRoom 5)).1 =
      .error (.full 2 5) := rfl
  obtain ⟨⟨-, herror, -⟩, -, -, -, -, hok⟩ := transactions_atomic (δ := TableFile)
  obtain ⟨w₀, w, e, rfl, hw, hlook⟩ := hok (Prod.ext hrun rfl)
  exact ⟨⟨w, e, hw, hlook⟩, by decide +kernel, hfull, herror _ _ _ _ (Prod.ext hfull rfl)⟩

end TrafficStore
