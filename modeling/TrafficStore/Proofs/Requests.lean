import TrafficStore.Proofs.LastWrite
import TrafficStore.Proofs.Uncataloged

namespace TrafficStore

open ScopeViews

inductive Request where
  | call (cat : Catalog) (q : Call)
  | access (t : TableId) (a : Access)

namespace Request

def run {ε : Type} [Engine ε] : Request → StoreM ε Reply
  | call cat q => q.run cat
  | access t a => a.run t

def effect : Request → Change Reply
  | call cat q => q.effect cat
  | access t a => t.onRecords (a.rewrite t)

def access? : Request → Option (TableId × Access)
  | call _ q => q.access?
  | access t a => some (t, a)

def tables : Request → List TableId
  | call cat q => q.tables.filter (· ∈ cat.tables)
  | access t _ => [t]

theorem effect_cases {r : Request} {t : TableId} {a : Access} (h : r.access? = some (t, a)) :
    (r.tables = [] ∧ ∃ x, r.effect = fun c => .ok (x, c)) ∨
      r.tables = [t] ∧ ∃ g, r.effect = (t.onRecords (a.rewrite t)).map g := by
  cases r with
  | access u b =>
      cases h
      exact .inr ⟨rfl, fun x => x, (Change.map_id _).symm⟩
  | call cat q =>
      rw [effect, Call.effect_eq h, tables, Call.tables_eq h]
      by_cases ht : t ∈ cat.tables
      · refine .inr ⟨by simp [ht], q.answered, ?_⟩
        rw [TableId.map_onRecords]
        exact funext (fun _ => Catalog.onRecords_mem ht)
      · exact .inl ⟨by simp [ht], q.notFound, funext (fun _ => Catalog.onRecords_not_mem ht)⟩

section Run

variable {ε : Type} [Engine ε] [IsolatedEngine ε] {env : Environment ε}

theorem serves (r : Request) : Serves (r.run : StoreM ε Reply) r.effect := by
  cases r with
  | call cat q => exact q.serves cat
  | access t a => exact a.serves t

theorem sound_run (r : Request) (hs : Sound env.engine) : Sound (r.run.run env).2.engine :=
  (r.serves.moved hs rfl).1

theorem settle_run (r : Request) (hs : Sound env.engine) (hfree : ¬ Faults ε (r.run.run env).1) :
    r.effect.settle (Engine.committed env.engine) =
      ((r.run.run env).1, Engine.committed (r.run.run env).2.engine) := by
  obtain ⟨x, env', hrun, -, -, hx⟩ := r.serves env hs
  rw [hrun] at hfree ⊢
  exact hx.resolve_left (fun hfault => hfree hfault.1)

end Run

end Request

end TrafficStore
