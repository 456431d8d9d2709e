import TrafficStore.Proofs.Stock

namespace TrafficStore

open ScopeViews Books

section Leads

variable {ε ξ ζ α β : Type} [Engine ε] [ScopeViews ε] {P : Content → Prop}
  {Q Q' : α → Content → Prop} {R : β → Content → Prop} {E E' : ξ → Content → Prop}
  {m : Work (Environment ε) ξ α} {f : α → Work (Environment ε) ξ β}

def Leads (P : Content → Prop) (m : Work (Environment ε) ξ α) (Q : α → Content → Prop)
    (E : ξ → Content → Prop) : Prop :=
  ∀ env, Sound env.engine → P (Engine.committed env.engine) →
    ∃ r env', m.run env = (r, env') ∧ Sound env'.engine ∧ match r with
      | .ok a => Q a (Engine.committed env'.engine)
      | .error x => E x (Engine.committed env'.engine)

namespace Leads

theorem pure {a : α} (h : ∀ c, P c → Q a c) :
    Leads P (Pure.pure a : Work (Environment ε) ξ α) Q E :=
  fun env hs hc => ⟨.ok a, env, rfl, hs, h _ hc⟩

theorem ofExcept (r : Except ξ α) : Leads P (Work.ofExcept r : Work (Environment ε) ξ α)
    (fun a c => r = .ok a ∧ P c) (fun x c => r = .error x ∧ P c) := by
  intro env hs hc
  refine ⟨r, env, rfl, hs, ?_⟩
  cases r with
  | error x => exact ⟨rfl, hc⟩
  | ok a => exact ⟨rfl, hc⟩

theorem bind (hm : Leads P m Q E) (hf : ∀ a, Leads (Q a) (f a) R E) : Leads P (m >>= f) R E := by
  intro env hs hc
  obtain ⟨r, env₁, hrun, hs₁, hr⟩ := hm env hs hc
  rw [Work.run_bind, hrun]
  cases r with
  | error x => exact ⟨.error x, env₁, rfl, hs₁, hr⟩
  | ok a => exact hf a env₁ hs₁ hr

theorem mono (hm : Leads P m Q E) (hQ : ∀ a c, Q a c → Q' a c) (hE : ∀ x c, E x c → E' x c) :
    Leads P m Q' E' := by
  intro env hs hc
  obtain ⟨r, env', hrun, hs', hr⟩ := hm env hs hc
  refine ⟨r, env', hrun, hs', ?_⟩
  cases r with
  | error x => exact hE x _ hr
  | ok a => exact hQ a _ hr

theorem mapFault {E' : ζ → Content → Prop} {g : ξ → ζ} (hm : Leads P m Q E)
    (hE : ∀ x c, E x c → E' (g x) c) : Leads P (m.mapFault g) Q E' := by
  intro env hs hc
  obtain ⟨r, env', hrun, hs', hr⟩ := hm env hs hc
  rw [Work.run_mapFault, hrun]
  refine ⟨r.mapError g, env', rfl, hs', ?_⟩
  cases r with
  | error x => exact hE x _ hr
  | ok a => exact hr

theorem of_fact {p : Prop} {P' : Content → Prop} (h : p → Leads P' m Q E) :
    Leads (fun c => p ∧ P' c) m Q E :=
  fun env hs hc => h hc.1 env hs hc.2

theorem of_serves {op : StoreM ε α} {g : Change α} {E : StorageError → Content → Prop}
    (h : Serves op g) (hg : ∀ c, P c → match g c with
      | .ok (a, c') => Q a c'
      | .error x => E x c)
    (hfault : ∀ x c, ScopeViews.Fault ε x → P c → E x c) : Leads P op Q E := by
  intro env hs hc
  have hg := hg _ hc
  cases hrun : op.run env with
  | mk r env' =>
      refine ⟨r, env', rfl, ?_⟩
      cases r with
      | ok a =>
          obtain ⟨hs', _, he⟩ := h.ok hs hrun
          rw [he] at hg
          exact ⟨hs', hg⟩
      | error x =>
          obtain ⟨hs', hcommitted, hx⟩ := h.error hs hrun
          refine ⟨hs', ?_⟩
          rw [hcommitted]
          rcases hx with hx | he
          · exact hfault x _ hx hc
          · rw [he] at hg
            exact hg

end Leads

end Leads

def Keeping (cat : Catalog) (P : Books → Prop) (c : Content) : Prop :=
  Stocked cat.tables c ∧ ∃ b, Represents b c ∧ P b

theorem Keeping.of_and {cat : Catalog} {p : Prop} {P : Books → Prop} {c : Content}
    (h : Keeping cat (fun b => p ∧ P b) c) : p ∧ Keeping cat P c := by
  obtain ⟨hstocked, b, hb, hp, hP⟩ := h
  exact ⟨hp, hstocked, b, hb, hP⟩

def Turn.Yields {κ ν α : Type} [Ordered κ] (turn : Turn κ ν α) (m : SortedMap κ ν)
    (Q : α → SortedMap κ ν → Prop) (F : StorageError → Prop) : Prop :=
  match turn m with
  | .ok (a, m') => Q a m'
  | .error x => F x

theorem Turn.Yields.turn {t : TableId} {α : Type} {w : Turn t.Index t.Cell α} {b b' : Books}
    {cat : Catalog} {Q : α → Books → Prop} {F : StorageError → Prop} {reply : α → Reply}
    {missing r : Reply} (h : w.Yields (b t) (fun a m => Q a (b.set t m)) F)
    (ht : t ∈ cat.tables) (hr : b.turn cat t missing (w.map reply) = .ok (r, b')) :
    ∃ a, r = reply a ∧ Q a b' := by
  rw [Books.turn, if_pos ht, turnOf, Turn.map] at hr
  rw [Turn.Yields] at h
  cases hw : w (b t) with
  | error x =>
      rw [hw] at hr
      cases hr
  | ok q =>
      rw [hw] at hr h
      cases hr
      exact ⟨q.1, rfl, h⟩

section OnTable

variable {ε α : Type} [Engine ε] [ScopeViews ε] {cat : Catalog} {t : TableId}
  {op : TableId → StoreM ε α} {w : Rewrite α} {turn : Turn t.Index t.Cell α} {missing : α}
  {P : Books → Prop}

theorem leads_onTable {Q : α → Books → Prop} {F : StorageError → Prop}
    (hserves : Serves (op t) (t.onRecords w)) (htracks : Tracks t.keyKind t.cellKind w turn)
    (ht : t ∈ cat.tables) (hturn : ∀ b, P b → turn.Yields (b t) (fun a m => Q a (b.set t m)) F)
    (hfault : ∀ x, ScopeViews.Fault ε x → F x) :
    Leads (Keeping cat P) (cat.onTable t missing op) (fun a => Keeping cat (Q a))
      (fun x c => F x ∧ Keeping cat P c) := by
  rw [Catalog.onTable, Catalog.table?_eq_ite, if_pos ht]
  refine .of_serves hserves ?_ (fun x c hx hc => ⟨hfault x hx, hc⟩)
  rintro c ⟨hstocked, b, hb, hP⟩
  have htracked := onRecords_tracked htracks hb hstocked.ready ht
  have hturn := hturn b hP
  rw [Turn.Yields] at hturn
  cases hw : turn (b t) with
  | error x =>
      rw [hw] at htracked hturn
      rw [htracked]
      exact ⟨hturn, hstocked, b, hb, hP⟩
  | ok p =>
      rw [hw] at htracked hturn
      obtain ⟨table, hrecords, hb'⟩ := htracked
      rw [hrecords]
      exact ⟨hstocked.insert ht table, b.set t p.2, hb', hturn⟩

theorem leads_look {a : α} (hserves : Serves (op t) (t.onRecords w))
    (htracks : Tracks t.keyKind t.cellKind w turn) (ht : t ∈ cat.tables)
    (hturn : ∀ b, P b → turn (b t) = .ok (a, b t)) :
    Leads (Keeping cat P) (cat.onTable t missing op) (fun a' c => a' = a ∧ Keeping cat P c)
      (fun x _ => ScopeViews.Fault ε x) := by
  refine (leads_onTable (Q := fun a' b => a' = a ∧ P b) hserves htracks ht (fun b hb => ?_)
    (fun _ hx => hx)).mono (fun _ _ => Keeping.of_and) (fun _ _ h => h.1)
  rw [Turn.Yields, hturn b hb]
  refine ⟨rfl, ?_⟩
  rw [b.set_eq_self t]
  exact hb

end OnTable

end TrafficStore
