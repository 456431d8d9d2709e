namespace TrafficStore

structure Work (ς ξ α : Type) where
  run : ς → Except ξ α × ς

namespace Work

variable {ς τ ξ ζ α β : Type}

theorem ext_run {m n : Work ς ξ α} (h : ∀ s, m.run s = n.run s) : m = n := by
  cases m; cases n; exact congrArg mk (funext h)

instance : Monad (Work ς ξ) where
  pure a := ⟨fun s => (.ok a, s)⟩
  bind m f := ⟨fun s =>
    match m.run s with
    | (.ok a, s) => (f a).run s
    | (.error x, s) => (.error x, s)⟩

@[simp]
theorem run_pure (a : α) (s : ς) : (pure a : Work ς ξ α).run s = (.ok a, s) := rfl

@[simp]
theorem run_bind (m : Work ς ξ α) (f : α → Work ς ξ β) (s : ς) :
    (m >>= f).run s =
      match m.run s with
      | (.ok a, s) => (f a).run s
      | (.error x, s) => (.error x, s) := rfl

instance : LawfulMonad (Work ς ξ) :=
  .mk' (Work ς ξ)
    (by
      intro α m
      apply ext_run
      intro s
      simp only [Functor.map]
      split <;> simp_all)
    (by intros; rfl)
    (by
      intro α β γ m f g
      apply ext_run
      intro s
      simp only [run_bind]
      cases h : m.run s with
      | mk r t => cases r <;> rfl)

@[simp]
theorem run_map (f : α → β) (m : Work ς ξ α) (s : ς) :
    (f <$> m).run s =
      match m.run s with
      | (.ok a, s) => (.ok (f a), s)
      | (.error x, s) => (.error x, s) := rfl

def fail (x : ξ) : Work ς ξ α := ⟨fun s => (.error x, s)⟩

def state : Work ς ξ ς := ⟨fun s => (.ok s, s)⟩

def update (f : ς → ς) : Work ς ξ Unit := ⟨fun s => (.ok (), f s)⟩

def ofExcept (r : Except ξ α) : Work ς ξ α := ⟨fun s => (r, s)⟩

def within (part : ς → τ) (put : τ → ς → ς) (m : Work τ ξ α) : Work ς ξ α := ⟨fun s =>
  let r := m.run (part s)
  (r.1, put r.2 s)⟩

def mapFault (f : ξ → ζ) (m : Work ς ξ α) : Work ς ζ α := ⟨fun s =>
  let r := m.run s
  (r.1.mapError f, r.2)⟩

@[simp]
theorem run_fail (x : ξ) (s : ς) : (fail x : Work ς ξ α).run s = (.error x, s) := rfl

@[simp]
theorem run_state (s : ς) : (state : Work ς ξ ς).run s = (.ok s, s) := rfl

@[simp]
theorem run_update (f : ς → ς) (s : ς) : (update f : Work ς ξ Unit).run s = (.ok (), f s) := rfl

@[simp]
theorem run_ofExcept (r : Except ξ α) (s : ς) : (ofExcept r).run s = (r, s) := rfl

@[simp]
theorem run_within (part : ς → τ) (put : τ → ς → ς) (m : Work τ ξ α) (s : ς) :
    (m.within part put).run s = ((m.run (part s)).1, put (m.run (part s)).2 s) := rfl

@[simp]
theorem run_mapFault (f : ξ → ζ) (m : Work ς ξ α) (s : ς) :
    (m.mapFault f).run s = ((m.run s).1.mapError f, (m.run s).2) := rfl

end Work

end TrafficStore
