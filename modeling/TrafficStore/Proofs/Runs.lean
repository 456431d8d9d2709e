import TrafficStore.Proofs.Effects
import TrafficStore.Proofs.Lifetime

namespace TrafficStore

open ScopeViews Books

theorem ready_effect {cat : Catalog} {q : Call} {c c' : Content} {r : Reply} (h : Ready cat c)
    (he : q.effect cat c = .ok (r, c')) : Ready cat c' := by
  intro t ht
  rw [Call.contains_effect he]
  exact h t ht

structure Lasting (ε : Type) [Engine ε] [ScopeViews ε] (Inv : Content → Prop)
    (Good : Answered → Prop) : Prop where
  replied : ∀ {cat q c r c'}, Inv c → Ready cat c → q.effect cat c = .ok (r, c') →
    Inv c' ∧ Good ⟨cat, q, .reply r⟩
  refused : ∀ {cat q c x}, Inv c → Ready cat c → q.effect cat c = .error x →
    Good ⟨cat, q, .failed x⟩
  faulted : ∀ {cat q x} {env env' : Environment ε}, (q.run cat).run env = (.error x, env') →
    ScopeViews.Fault ε x → Good ⟨cat, q, .failed x⟩

structure Session.Has {ε : Type} [Engine ε] [ScopeViews ε] (s : Session ε)
    (Inv : Content → Prop) : Prop where
  sound : Sound s.environment.engine
  holds : Inv (Engine.committed s.environment.engine)
  ready : Ready s.catalog (Engine.committed s.environment.engine)
  alone : s.scopes = []

section Runs

variable {ε : Type} [Engine ε] [IsolatedEngine ε] {Inv : Content → Prop} {Good : Answered → Prop}
  {s : Session ε}

theorem Lasting.step (h : Lasting ε Inv Good) (hs : s.Has Inv) (q : Call) :
    (s.step (.call q)).2.Has Inv ∧ (s.step (.call q)).2.catalog = s.catalog ∧
      Good ⟨s.catalog, q, (s.step (.call q)).1⟩ := by
  rw [step_call hs.alone, Session.perform]
  cases hrun : (q.run s.catalog).run s.environment with
  | mk r env =>
      cases r with
      | ok a =>
          obtain ⟨hsound, _, heffect⟩ := (q.serves s.catalog).ok hs.sound hrun
          obtain ⟨hinv, hgood⟩ := h.replied hs.holds hs.ready heffect
          exact ⟨⟨hsound, hinv, ready_effect hs.ready heffect, hs.alone⟩, rfl, hgood⟩
      | error x =>
          obtain ⟨hsound, hc, hx⟩ := (q.serves s.catalog).error hs.sound hrun
          have hgood : Good ⟨s.catalog, q, .failed x⟩ := by
            rcases hx with hx | hx
            · exact h.faulted hrun hx
            · exact h.refused hs.holds hs.ready hx
          refine ⟨⟨hsound, ?_, ?_, hs.alone⟩, rfl, hgood⟩
          · rw [hc]
            exact hs.holds
          · rw [hc]
            exact hs.ready

theorem Lasting.answered (h : Lasting ε Inv Good) (hs : s.Has Inv) (qs : List Call) :
    (s.answered qs).2.Has Inv ∧ ∀ a ∈ (s.answered qs).1, Good a := by
  induction qs generalizing s with
  | nil => exact ⟨hs, fun a ha => nomatch ha⟩
  | cons q qs ih =>
      obtain ⟨hstep, hcat, hgood⟩ := h.step hs q
      obtain ⟨hrest, hgoods⟩ := ih hstep
      rw [answered_cons s q qs hcat]
      refine ⟨hrest, fun a ha => ?_⟩
      rcases List.mem_cons.1 ha with rfl | ha
      · exact hgood
      · exact hgoods a ha

theorem Session.has_start {env : Environment ε} {ps : List Panel} (hs : Sound env.engine)
    (hinv : Inv (withTables (TableId.ofPanels ps) (Engine.committed env.engine)))
    (h : Session.start env (some ps) = .ok s) : s.Has Inv := by
  rw [Session.start] at h
  cases hinit : (Catalog.init ps).run env with
  | mk r env' =>
      rw [hinit] at h
      cases r with
      | error x => cases h
      | ok cat =>
          obtain ⟨rfl, _, hs', _, hc⟩ := Books.init_ok hs hinit
          cases h
          refine ⟨hs', ?_, ?_, rfl⟩
          · rw [hc]
            exact hinv
          · rw [hc]
            exact ready_withTables ps _

end Runs

section Histories

variable {δ : Type} [Database δ] [LawfulDatabase δ] {Inv : Content → Prop}
  {Good : Answered → Prop} {d : δ}

theorem sound_opened (settings : Settings) (d : δ) :
    Sound (Environment.opened settings (.ofDatabase settings d)).engine :=
  fun hn => DatabaseEngine.sound_ofDatabase settings d hn

theorem Opening.spend_ok {o : Opening} {as : List Answered} (h : (o.spend d).1 = .ok as) :
    (TableId.ofPanels o.panels).length ≤ o.settings.maxTables ∧
      ∃ s, o.start d = .ok s ∧ as = (s.answered o.calls).1 ∧ Database.content (o.spend d).2 =
        Engine.committed (s.answered o.calls).2.environment.engine := by
  have hs := @sound_opened δ _ _ o.settings d
  rw [Opening.spend] at h ⊢
  rw [Opening.start, Session.start]
  cases hinit : (Catalog.init o.panels).run
      (Environment.opened o.settings (.ofDatabase o.settings d)) with
  | mk r env =>
      rw [hinit] at h
      cases r with
      | error x => cases h
      | ok cat =>
          cases h
          exact ⟨(Books.init_ok (@hs) hinit).2.1, _, rfl, rfl, LawfulDatabase.content_reopen _⟩

theorem Opening.spend_error {o : Opening} {x : StorageError} (h : (o.spend d).1 = .error x) :
    Database.content (o.spend d).2 = Database.content d ∧
      (ScopeViews.Fault (DatabaseEngine δ) x ∨
        x = .tableLimit (TableId.ofPanels o.panels).length o.settings.maxTables) := by
  have hs := @sound_opened δ _ _ o.settings d
  rw [Opening.spend] at h ⊢
  cases hinit : (Catalog.init o.panels).run
      (Environment.opened o.settings (.ofDatabase o.settings d)) with
  | mk r env =>
      rw [hinit] at h
      cases r with
      | ok cat => cases h
      | error y =>
          cases h
          obtain ⟨_, hc, hx⟩ := Books.init_error (@hs) hinit
          exact ⟨(LawfulDatabase.content_reopen _).trans hc, hx⟩

theorem Lasting.spend (h : Lasting (DatabaseEngine δ) Inv Good) {o : Opening}
    (hinv : Inv (withTables (TableId.ofPanels o.panels) (Database.content d))) {as : List Answered}
    (has : (o.spend d).1 = .ok as) :
    Inv (Database.content (o.spend d).2) ∧ ∀ a ∈ as, Good a := by
  have hs := @sound_opened δ _ _ o.settings d
  obtain ⟨_, s, hstart, rfl, hc⟩ := Opening.spend_ok has
  obtain ⟨hhas, hgood⟩ := h.answered (Session.has_start (@hs) hinv hstart) o.calls
  rw [hc]
  exact ⟨hhas.holds, hgood⟩

theorem Lasting.history (h : Lasting (DatabaseEngine δ) Inv Good)
    (htables : ∀ ts c, Inv c → Inv (withTables ts c)) (hinv : Inv (Database.content d))
    (os : List Opening) :
    Inv (Database.content (history d os).2) ∧
      ∀ as, .ok as ∈ (history d os).1 → ∀ a ∈ as, Good a := by
  induction os generalizing d with
  | nil => exact ⟨hinv, fun as has => nomatch has⟩
  | cons o os ih =>
      have hspent : Inv (Database.content (o.spend d).2) ∧
          ∀ as, (o.spend d).1 = .ok as → ∀ a ∈ as, Good a := by
        cases hr : (o.spend d).1 with
        | error x =>
            rw [(Opening.spend_error hr).1]
            exact ⟨hinv, fun as has => nomatch has⟩
        | ok as =>
            obtain ⟨hinv', hgood⟩ := h.spend (htables _ _ hinv) hr
            exact ⟨hinv', fun as' has => Except.ok.inj has ▸ hgood⟩
      obtain ⟨hrest, hgoods⟩ := ih hspent.1
      refine ⟨hrest, fun as has => ?_⟩
      rcases List.mem_cons.1 has with has | has
      · exact hspent.2 as has.symm
      · exact hgoods as has

theorem history_error (d : δ) (os : List Opening) {x : StorageError}
    (h : .error x ∈ (history d os).1) :
    ScopeViews.Fault (DatabaseEngine δ) x ∨ ∃ requested limit, x = .tableLimit requested limit := by
  induction os generalizing d with
  | nil => cases h
  | cons o os ih =>
      rcases List.mem_cons.1 h with h | h
      · exact (Opening.spend_error h.symm).2.imp_right (fun hx => ⟨_, _, hx⟩)
      · exact ih _ h

end Histories

end TrafficStore
