import TrafficStore.Environment
import TrafficStore.Proofs.Engine.Isolation

namespace TrafficStore

def Reports {ε α : Type} (m : StoreM ε α) (a : α) : Prop :=
  ∀ env, ∃ journal, m.run env = (.ok a, { env with journal })

namespace Reports

variable {ε α β : Type}

theorem pure (a : α) : Reports (Pure.pure a : StoreM ε α) a := fun env => ⟨env.journal, rfl⟩

theorem report (x : Event) : Reports (Environment.report x : StoreM ε Unit) () := fun _ => ⟨_, rfl⟩

theorem bind {m : StoreM ε α} {n : α → StoreM ε β} {a : α} {b : β} (hm : Reports m a)
    (hn : Reports (n a) b) : Reports (m >>= n) b := by
  intro env
  obtain ⟨j, hrun⟩ := hm env
  obtain ⟨j', hrun'⟩ := hn { env with journal := j }
  exact ⟨j', by rw [Work.run_bind, hrun]; exact hrun'⟩

theorem map {m : StoreM ε α} {a : α} (h : Reports m a) (g : α → β) : Reports (g <$> m) (g a) := by
  rw [← bind_pure_comp]
  exact h.bind (.pure (g a))

end Reports

namespace ScopeViews

variable {ε σ α β : Type} [Engine ε]

section Computes

variable [ScopeViews ε] {v : Window ε σ} {m : ScopeM ε σ α} {f : α → ScopeM ε σ β}
  {c c₁ c₂ : Content}

def Computes (v : Window ε σ) (m : ScopeM ε σ α) (c : Content) (r : Except StorageError α)
    (c' : Content) : Prop :=
  ∀ s e, Sound e → v.valid e s → v.view s = c → ∃ r' s' e', m.run (s, e) = (r', (s', e')) ∧
    Keeps e e' ∧ (Faults ε r' ∨ r' = r ∧ v.view s' = c' ∧ v.valid e' s')

theorem Mirrors.computes {ref : CopyM α} {r : Except StorageError α} (h : Mirrors v m ref)
    (hr : ref.run c = (r, c₁)) : Computes v m c r c₁ := by
  intro s e hs hv hc
  obtain ⟨r', s', e', hrun, hk, hm⟩ := h s e hs hv
  refine ⟨r', s', e', hrun, hk, hm.imp_right ?_⟩
  rintro ⟨href, hv'⟩
  rw [hc, hr] at href
  exact ⟨congrArg Prod.fst href.symm, congrArg Prod.snd href.symm, hv'⟩

namespace Computes

theorem ofExcept (v : Window ε σ) (r : Except StorageError α) (c : Content) :
    Computes v (Work.ofExcept r) c r c :=
  fun s e _ hv hc => ⟨r, s, e, rfl, .refl e, .inr ⟨rfl, hc, hv⟩⟩

theorem pure (v : Window ε σ) (a : α) (c : Content) : Computes v (Pure.pure a) c (.ok a) c :=
  ofExcept v (.ok a) c

theorem bind {a : α} {r : Except StorageError β} (hm : Computes v m c (.ok a) c₁)
    (hf : Computes v (f a) c₁ r c₂) : Computes v (m >>= f) c r c₂ := by
  intro s e hs hv hc
  obtain ⟨r', s₁, e₁, hrun, hk, h⟩ := hm s e hs hv hc
  rcases h with ⟨x, rfl, hx⟩ | ⟨rfl, hc₁, hv₁⟩
  · exact ⟨.error x, s₁, e₁, by rw [Work.run_bind, hrun], hk, .inl ⟨x, rfl, hx⟩⟩
  · obtain ⟨r'', s₂, e₂, hrun₂, hk₂, h₂⟩ := hf s₁ e₁ (hk.sound hs) hv₁ hc₁
    exact ⟨r'', s₂, e₂, by rw [Work.run_bind, hrun]; exact hrun₂, hk.trans hk₂, h₂⟩

theorem bind_error {x : StorageError} (hm : Computes v m c (.error x) c₁) :
    Computes v (m >>= f) c (.error x) c₁ := by
  intro s e hs hv hc
  obtain ⟨r', s₁, e₁, hrun, hk, h⟩ := hm s e hs hv hc
  rcases h with ⟨y, rfl, hy⟩ | ⟨rfl, hrest⟩
  · exact ⟨.error y, s₁, e₁, by rw [Work.run_bind, hrun], hk, .inl ⟨y, rfl, hy⟩⟩
  · exact ⟨.error x, s₁, e₁, by rw [Work.run_bind, hrun], hk, .inr ⟨rfl, hrest⟩⟩

theorem look {r : Except StorageError α} {g : α → Except StorageError β} (hm : Computes v m c r c)
    (hf : ∀ a, Computes v (f a) c (g a) c) : Computes v (m >>= f) c (r >>= g) c := by
  cases r with
  | error x => exact hm.bind_error
  | ok a => exact hm.bind (hf a)

end Computes

abbrev Change (α : Type) := Content → Except StorageError (α × Content)

namespace Change

def map (g : α → β) (f : Change α) : Change β := fun c => (f c).map (fun p => (g p.1, p.2))

theorem map_id (f : Change α) : f.map (fun a => a) = f := by
  funext c
  rw [map]
  cases f c <;> rfl

def settle (f : Change α) (c : Content) : Except StorageError α × Content :=
  match f c with
  | .ok (a, c') => (.ok a, c')
  | .error x => (.error x, c)

theorem settle_ok {f : Change α} {a : α} (h : f c = .ok (a, c₁)) : f.settle c = (.ok a, c₁) := by
  rw [settle, h]

theorem settle_map (g : α → β) (f : Change α) (c : Content) :
    (f.map g).settle c = ((f.settle c).1.map g, (f.settle c).2) := by
  rw [settle, map, settle]
  cases f c <;> rfl

theorem settle_look (g : Content → Except StorageError α) (c : Content) :
    settle (fun c => (g c).map (fun a => (a, c))) c = (g c, c) := by
  rw [settle]
  cases g c <;> rfl

theorem settle_error {f : Change α} {x : StorageError} (h : f c = .error x) :
    f.settle c = (.error x, c) := by
  rw [settle, h]

end Change

def Follows (v : Window ε σ) (m : ScopeM ε σ α) (f : Change α) : Prop :=
  ∀ c, match f c with
    | .ok (a, c') => Computes v m c (.ok a) c'
    | .error x => ∃ c', Computes v m c (.error x) c'

def Commits (m : EngineM ε α) (f : Change α) : Prop :=
  ∀ e, Sound e → ∃ r e', m.run e = (r, e') ∧ Sound e' ∧
    (Faults ε r ∧ Engine.committed e' = Engine.committed e ∨
      f.settle (Engine.committed e) = (r, Engine.committed e'))

def Serves (m : StoreM ε α) (f : Change α) : Prop :=
  ∀ env, Sound env.engine → ∃ r env', m.run env = (r, env') ∧ Sound env'.engine ∧
    env'.settings = env.settings ∧
    (Faults ε r ∧ Engine.committed env'.engine = Engine.committed env.engine ∨
      f.settle (Engine.committed env.engine) = (r, Engine.committed env'.engine))

theorem Commits.onEngine {m : EngineM ε α} {f : Change α} (h : Commits m f) :
    Serves (Environment.onEngine m) f := by
  intro env hs
  obtain ⟨r, e, hrun, hs', h⟩ := h env.engine hs
  exact ⟨r, { env with engine := e }, by rw [Environment.onEngine, Work.run_within, hrun], hs',
    rfl, h⟩

end Computes

section Transactions

variable [IsolatedEngine ε]

theorem inScope_cases {v : Window ε σ} {op : ScopeM ε σ α} {f : Change α} (h : Follows v op f)
    {s : σ} {e : ε} (hs : Sound e) (hv : v.valid e s) :
    ∃ e', Keeps e e' ∧ ((∃ x, (Environment.inScope s op).run e = (.error x, e') ∧
        (Fault ε x ∨ f (v.view s) = .error x)) ∨
      ∃ a s', (Environment.inScope s op).run e = (.ok (a, s'), e') ∧
        f (v.view s) = .ok (a, v.view s') ∧ v.valid e' s') := by
  have hc := h (v.view s)
  cases hf : f (v.view s) with
  | error x =>
      rw [hf] at hc
      obtain ⟨c', hc⟩ := hc
      obtain ⟨r, s', e', hrun, hk, hr⟩ := hc s e hs hv rfl
      refine ⟨e', hk, .inl ?_⟩
      rcases hr with ⟨y, rfl, hy⟩ | ⟨rfl, _⟩
      · exact ⟨y, by simp only [Environment.inScope, hrun], .inl hy⟩
      · exact ⟨x, by simp only [Environment.inScope, hrun], .inr rfl⟩
  | ok p =>
      rw [hf] at hc
      obtain ⟨r, s', e', hrun, hk, hr⟩ := hc s e hs hv rfl
      refine ⟨e', hk, ?_⟩
      rcases hr with ⟨y, rfl, hy⟩ | ⟨rfl, hview, hv'⟩
      · exact .inl ⟨y, by simp only [Environment.inScope, hrun], .inl hy⟩
      · exact .inr ⟨p.1, s', by simp only [Environment.inScope, hrun], by rw [hview], hv'⟩

theorem commits_transactionRead {op : ScopeM ε (Engine.Reader ε) α} {f : Change α}
    (h : Follows (readers ε) op f) (hf : ∀ c a c', f c = .ok (a, c') → c' = c) :
    Commits (Environment.transactionRead op) f := by
  intro e hs
  obtain ⟨r, e₁, hrun, hk, hr⟩ := IsolatedEngine.beginRead_eq e hs
  rw [Environment.transactionRead, Work.run_bind, hrun]
  rcases hr with ⟨x, rfl, hx⟩ | ⟨s, rfl, hseen⟩
  · exact ⟨.error x, e₁, rfl, hk.sound hs, .inl ⟨⟨x, rfl, hx⟩, hk.committed⟩⟩
  · obtain ⟨e₂, hk₂, hop⟩ := inScope_cases h (hk.sound hs) (s := s) trivial
    have hview : (readers ε).view s = Engine.committed e := hseen
    rw [hview] at hop
    simp only [Work.run_bind]
    rcases hop with ⟨x, hrun₂, hx⟩ | ⟨a, s', hrun₂, hfa, _⟩
    · refine ⟨.error x, e₂, by rw [hrun₂], (hk.trans hk₂).sound hs, ?_⟩
      rcases hx with hx | hx
      · exact .inl ⟨⟨x, rfl, hx⟩, (hk.trans hk₂).committed⟩
      · exact .inr (by rw [Change.settle_error hx, (hk.trans hk₂).committed])
    · obtain ⟨r₃, e₃, hrun₃, hk₃, hr₃⟩ := IsolatedEngine.endRead_eq s' e₂
      have hk' := (hk.trans hk₂).trans hk₃
      rw [hrun₂]
      simp only [hrun₃]
      rcases hr₃ with ⟨x, rfl, hx⟩ | rfl
      · exact ⟨.error x, e₃, rfl, hk'.sound hs, .inl ⟨⟨x, rfl, hx⟩, hk'.committed⟩⟩
      · refine ⟨.ok a, e₃, rfl, hk'.sound hs, .inr ?_⟩
        rw [Change.settle_ok hfa, hf _ _ _ hfa, hk'.committed]

theorem commits_transactionWrite {op : ScopeM ε (Engine.Writer ε) α} {f : Change α}
    (h : Follows (writers ε) op f) : Commits (Environment.transactionWrite op) f := by
  intro e hs
  obtain ⟨r, e₁, hrun, hk, hr⟩ := IsolatedEngine.beginWrite_eq e hs
  rw [Environment.transactionWrite, Work.run_bind, hrun]
  rcases hr with ⟨x, rfl, hx⟩ | ⟨w, rfl, hdraft, howns⟩
  · exact ⟨.error x, e₁, rfl, hk.sound hs, .inl ⟨⟨x, rfl, hx⟩, hk.committed⟩⟩
  · obtain ⟨e₂, hk₂, hop⟩ := inScope_cases h (hk.sound hs) (s := w) howns
    have hview : (writers ε).view w = Engine.committed e := hdraft
    rw [hview] at hop
    simp only [Work.run_bind]
    rcases hop with ⟨x, hrun₂, hx⟩ | ⟨a, w', hrun₂, hfa, howns'⟩
    · refine ⟨.error x, e₂, by rw [hrun₂], (hk.trans hk₂).sound hs, ?_⟩
      rcases hx with hx | hx
      · exact .inl ⟨⟨x, rfl, hx⟩, (hk.trans hk₂).committed⟩
      · exact .inr (by rw [Change.settle_error hx, (hk.trans hk₂).committed])
    · obtain ⟨r₃, e₃, hrun₃, hr₃⟩ :=
        IsolatedEngine.commit_eq w' e₂ ((hk.trans hk₂).sound hs) howns'
      rw [hrun₂]
      simp only [hrun₃]
      rcases hr₃ with ⟨⟨x, rfl, hx⟩, hk₃⟩ | ⟨rfl, hs₃, hc₃⟩
      · have hk' := (hk.trans hk₂).trans hk₃
        exact ⟨.error x, e₃, rfl, hk'.sound hs, .inl ⟨⟨x, rfl, hx⟩, hk'.committed⟩⟩
      · exact ⟨.ok a, e₃, rfl, hs₃, .inr (by rw [Change.settle_ok hfa, hc₃]; rfl)⟩

theorem serves_read {op : ScopeM ε (Engine.Reader ε) α} {f : Change α}
    (h : Follows (readers ε) op f) (hf : ∀ c a c', f c = .ok (a, c') → c' = c) :
    Serves (Environment.read op) f :=
  (commits_transactionRead h hf).onEngine

theorem serves_look {op : ScopeM ε (Engine.Reader ε) α} {g : Content → Except StorageError α}
    (h : ∀ c, Computes (readers ε) op c (g c) c) :
    Serves (Environment.read op) (fun c => (g c).map (fun a => (a, c))) := by
  refine serves_read ?_ ?_
  · intro c
    have hc := h c
    cases hg : g c with
    | error x =>
        rw [hg] at hc
        simp only [hg, Except.map]
        exact ⟨c, hc⟩
    | ok a =>
        rw [hg] at hc
        simp only [hg, Except.map]
        exact hc
  · intro c a c' hf
    cases hg : g c with
    | error x => rw [hg] at hf; cases hf
    | ok a' => rw [hg] at hf; cases hf; rfl

theorem serves_write {op : ScopeM ε (Engine.Writer ε) α} {f : Change α}
    (h : Follows (writers ε) op f) : Serves (Environment.write op) f :=
  (commits_transactionWrite h).onEngine

end Transactions

section Serves

variable [ScopeViews ε] {m : StoreM ε α} {n : α → StoreM ε β} {f : Change α}

theorem Serves.ok (h : Serves m f) {env env' : Environment ε} {a : α} (hs : Sound env.engine)
    (hrun : m.run env = (.ok a, env')) :
    Sound env'.engine ∧ env'.settings = env.settings ∧
      f (Engine.committed env.engine) = .ok (a, Engine.committed env'.engine) := by
  obtain ⟨r, env₁, hrun₁, hs₁, hset, hr⟩ := h env hs
  obtain ⟨rfl, rfl⟩ := Prod.mk.inj (hrun.symm.trans hrun₁)
  refine ⟨hs₁, hset, ?_⟩
  rcases hr with ⟨⟨x, hx, _⟩, _⟩ | hr
  · cases hx
  · cases hf : f (Engine.committed env.engine) with
    | error x => rw [Change.settle_error hf] at hr; cases hr
    | ok p =>
        rw [Change.settle_ok hf] at hr
        obtain ⟨hp, hc⟩ := Prod.mk.inj hr
        rw [← Except.ok.inj hp, ← hc]

theorem Serves.error (h : Serves m f) {env env' : Environment ε} {x : StorageError}
    (hs : Sound env.engine) (hrun : m.run env = (.error x, env')) :
    Sound env'.engine ∧ Engine.committed env'.engine = Engine.committed env.engine ∧
      (Fault ε x ∨ f (Engine.committed env.engine) = .error x) := by
  obtain ⟨r, env₁, hrun₁, hs₁, _, hr⟩ := h env hs
  obtain ⟨rfl, rfl⟩ := Prod.mk.inj (hrun.symm.trans hrun₁)
  refine ⟨hs₁, ?_⟩
  rcases hr with ⟨⟨y, hy, hfault⟩, hc⟩ | hr
  · cases hy
    exact ⟨hc, .inl hfault⟩
  · cases hf : f (Engine.committed env.engine) with
    | error y =>
        rw [Change.settle_error hf] at hr
        obtain ⟨hy, hc⟩ := Prod.mk.inj hr
        cases hy
        exact ⟨hc.symm, .inr rfl⟩
    | ok p => rw [Change.settle_ok hf] at hr; cases hr

theorem Serves.moved (h : Serves m f) {env env' : Environment ε} {r : Except StorageError α}
    (hs : Sound env.engine) (hrun : m.run env = (r, env')) : Sound env'.engine ∧
      (Engine.committed env'.engine = Engine.committed env.engine ∨
        ∃ a, f (Engine.committed env.engine) = .ok (a, Engine.committed env'.engine)) := by
  cases r with
  | error x =>
      obtain ⟨hs', hc, -⟩ := h.error hs hrun
      exact ⟨hs', .inl hc⟩
  | ok a =>
      obtain ⟨hs', -, hf⟩ := h.ok hs hrun
      exact ⟨hs', .inr ⟨a, hf⟩⟩

theorem serves_of_reports {a : α} (h : Reports m a) : Serves m (fun c => .ok (a, c)) := by
  intro env hs
  obtain ⟨j, hrun⟩ := h env
  exact ⟨.ok a, _, hrun, hs, rfl, .inr rfl⟩

theorem Serves.reporting {g : α → β} (h : Serves m f) (hn : ∀ a, Reports (n a) (g a)) :
    Serves (m >>= n) (f.map g) := by
  intro env hs
  obtain ⟨r, env', hrun, hs', hset, hr⟩ := h env hs
  cases r with
  | error x =>
      refine ⟨.error x, env', by rw [Work.run_bind, hrun], hs', hset, ?_⟩
      rcases hr with ⟨hx, hc⟩ | hr
      · exact .inl ⟨hx.map, hc⟩
      · exact .inr (by rw [Change.settle_map, hr]; rfl)
  | ok a =>
      obtain ⟨j, hrun'⟩ := hn a env'
      refine ⟨.ok (g a), { env' with journal := j }, by rw [Work.run_bind, hrun]; exact hrun', hs',
        hset, ?_⟩
      rcases hr with ⟨⟨x, hx, _⟩, _⟩ | hr
      · cases hx
      · exact .inr (by rw [Change.settle_map, hr]; rfl)

theorem Serves.map (g : α → β) (h : Serves m f) : Serves (g <$> m) (f.map g) := by
  rw [← bind_pure_comp]
  exact h.reporting (fun a => .pure (g a))

theorem Serves.after {g : Change β} {a : α} (hm : Serves m (fun c => .ok (a, c)))
    (hn : Serves (n a) g) : Serves (m >>= n) g := by
  intro env hs
  obtain ⟨r, env₁, hrun, hs₁, hset₁, hr⟩ := hm env hs
  rcases hr with ⟨⟨x, rfl, hx⟩, hc⟩ | hr
  · exact ⟨.error x, env₁, by rw [Work.run_bind, hrun], hs₁, hset₁, .inl ⟨⟨x, rfl, hx⟩, hc⟩⟩
  · obtain ⟨rfl, hc⟩ := Prod.mk.inj hr
    obtain ⟨r₂, env₂, hrun₂, hs₂, hset₂, hr₂⟩ := hn env₁ hs₁
    rw [← hc] at hr₂
    exact ⟨r₂, env₂, by rw [Work.run_bind, hrun]; exact hrun₂, hs₂, hset₂.trans hset₁, hr₂⟩

end Serves

theorem serves_sync [IsolatedEngine ε] (force : Bool) :
    Serves (Environment.sync force : StoreM ε Unit) (fun c => .ok ((), c)) := by
  intro env hs
  obtain ⟨r, e, hrun, hk, hr⟩ := IsolatedEngine.sync_eq force env.engine hs
  have hengine : (Environment.onEngine (Engine.sync force)).run env =
      (r, { env with engine := e }) := by
    rw [Environment.onEngine, Work.run_within, hrun]
  rw [Environment.sync, Work.run_bind, hengine]
  rcases hr with ⟨x, rfl, hx⟩ | ⟨v, rfl⟩
  · exact ⟨.error x, _, rfl, hk.sound hs, rfl, .inl ⟨⟨x, rfl, hx⟩, hk.committed⟩⟩
  · have hsettle : Change.settle (fun c => .ok ((), c)) (Engine.committed env.engine) =
        (.ok (), Engine.committed e) := by rw [hk.committed]; rfl
    cases v with
    | none => exact ⟨.ok (), _, rfl, hk.sound hs, rfl, .inr hsettle⟩
    | some x => exact ⟨.ok (), _, rfl, hk.sound hs, rfl, .inr hsettle⟩

theorem sync_still [IsolatedEngine ε] {force : Bool} {env env' : Environment ε}
    {r : Except StorageError Unit} (hs : Sound env.engine)
    (hrun : (Environment.sync force).run env = (r, env')) :
    Sound env'.engine ∧ Engine.committed env'.engine = Engine.committed env.engine := by
  obtain ⟨hs', hc | ⟨a, hc⟩⟩ := (serves_sync force).moved hs hrun
  · exact ⟨hs', hc⟩
  · exact ⟨hs', (Prod.mk.inj (Except.ok.inj hc)).2.symm⟩

end ScopeViews

end TrafficStore
