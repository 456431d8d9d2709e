import TrafficStore.Proofs.Scope.Mirror

namespace TrafficStore

namespace Desk

variable {ε α : Type} [Engine ε] {d d' : Desk ε}

theorem run_cons (s : ScriptStep) (ss : List ScriptStep) :
    d.run (s :: ss) =
      ((d.scriptStep s).1 :: ((d.scriptStep s).2.run ss).1, ((d.scriptStep s).2.run ss).2) := rfl

structure Alike (d d' : Desk ε) : Prop where
  engine : d.engine = d'.engine
  scopes : ∀ name, d.scope? name = d'.scope? name
  distinct : d.Distinct
  distinct' : d'.Distinct

namespace Alike

theorem refl (h : d.Distinct) : Alike d d := ⟨rfl, fun _ => rfl, h, h⟩

theorem hasWriter (h : Alike d d') : d.hasWriter = d'.hasWriter := by
  rw [Bool.eq_iff_iff, hasWriter_iff h.distinct, hasWriter_iff h.distinct']
  simp only [h.scopes]

theorem move (h : Alike d d') (e : ε) : Alike { d with engine := e } { d' with engine := e } :=
  ⟨rfl, h.scopes, h.distinct, h.distinct'⟩

theorem close (h : Alike d d') (name : String) : Alike (d.close name) (d'.close name) where
  engine := h.engine
  scopes n := by rw [scope?_close, scope?_close, h.scopes]
  distinct := h.distinct.close
  distinct' := h.distinct'.close

theorem hold (h : Alike d d') (name : String) (s : Scope ε) :
    Alike (d.hold name s) (d'.hold name s) where
  engine := h.engine
  scopes n := by rw [scope?_hold, scope?_hold, h.scopes]
  distinct := h.distinct.hold
  distinct' := h.distinct'.hold

def Answers (o o' : ScopeAnswer × Desk ε) : Prop := o.1 = o'.1 ∧ Alike o.2 o'.2

theorem begin (h : Alike d d') (name : String) (m : EngineM ε (Scope ε)) :
    Answers (d.begin name m) (d'.begin name m) := by
  rw [Desk.begin, Desk.begin, h.engine]
  rcases m.run d'.engine with ⟨x | s, e⟩
  · exact ⟨rfl, h.move e⟩
  · exact ⟨rfl, (h.move e).hold name s⟩

theorem inScope (h : Alike d d') (name : String) (m : ScopeM ε (Scope ε) α)
    (answer : α → ScopeAnswer) (failure : StorageError → ScopeAnswer) :
    Answers (d.inScope name m answer failure) (d'.inScope name m answer failure) := by
  rw [Desk.inScope, Desk.inScope, h.scopes, h.engine]
  cases d'.scope? name with
  | none => exact ⟨rfl, h⟩
  | some s =>
      rcases hm : m.run (s, d'.engine) with ⟨x | a, s', e⟩
      · simp only [hm]
        exact ⟨rfl, (h.move e).hold name s'⟩
      · simp only [hm]
        exact ⟨rfl, (h.move e).hold name s'⟩

theorem inWriter (h : Alike d d') (name : String) (m : ScopeM ε (Engine.Writer ε) Unit) :
    Answers (d.inWriter name m) (d'.inWriter name m) := by
  have hin := h.inScope name (Scope.change m) (fun _ => .done) .failed
  rw [Desk.inWriter, Desk.inWriter, h.scopes]
  cases d'.scope? name with
  | none => exact hin
  | some s =>
      cases s with
      | reader r => exact ⟨rfl, h⟩
      | writer w => exact hin

theorem step (h : Alike d d') (s : ScopeStep) : Answers (d.step s) (d'.step s) := by
  cases s with
  | beginRead name => exact h.begin name _
  | beginWrite name =>
      rw [Desk.step, Desk.step, h.hasWriter]
      split
      · exact ⟨rfl, h⟩
      · exact h.begin name _
  | commit name =>
      rw [Desk.step, Desk.step, h.scopes, h.engine]
      cases d'.scope? name with
      | none => exact ⟨rfl, h⟩
      | some s =>
          rcases hs : s.commit.run d'.engine with ⟨x | u, e⟩
          · simp only [hs]
            exact ⟨rfl, (h.move e).close name⟩
          · simp only [hs]
            exact ⟨rfl, (h.move e).close name⟩
  | drop name =>
      rw [Desk.step, Desk.step, h.scopes]
      cases d'.scope? name with
      | none => exact ⟨rfl, h⟩
      | some s => exact ⟨rfl, h.close name⟩
  | find name table key => exact h.inScope name _ _ _
  | count name table => exact h.inScope name _ _ _
  | scan name table limit => exact h.inScope name _ _ _
  | create name table => exact h.inWriter name _
  | put name table key value => exact h.inWriter name _

theorem scriptStep (h : Alike d d') (s : ScriptStep) :
    Answers (d.scriptStep s) (d'.scriptStep s) := by
  cases s with
  | scope s => exact h.step s
  | sync force =>
      rw [Desk.scriptStep, Desk.scriptStep, Desk.sync, Desk.sync, h.hasWriter, h.engine]
      split
      · exact ⟨rfl, h⟩
      · split
        · exact ⟨rfl, h.move _⟩
        · exact ⟨rfl, h.move _⟩
  | restart =>
      rw [Desk.scriptStep, Desk.scriptStep, h.engine]
      exact ⟨rfl, refl List.nodup_nil⟩

theorem run (steps : List ScriptStep) : ∀ {d d' : Desk ε}, Alike d d' →
    (d.run steps).1 = (d'.run steps).1 ∧ Alike (d.run steps).2 (d'.run steps).2 := by
  induction steps with
  | nil => intro d d' h; exact ⟨rfl, h⟩
  | cons s ss ih =>
      intro d d' h
      obtain ⟨ha, hnext⟩ := h.scriptStep s
      obtain ⟨has, hlast⟩ := ih hnext
      rw [run_cons, run_cons, ha, has]
      exact ⟨rfl, hlast⟩

end Alike

theorem alike_hold {name : String} {s : Scope ε} (h : d.Distinct) (hs : d.scope? name = some s) :
    Alike (d.hold name s) d where
  engine := rfl
  scopes n := by
    rw [scope?_hold]
    split
    · next hn => rw [hn, hs]
    · rfl
  distinct := h.hold
  distinct' := h

end Desk

end TrafficStore
