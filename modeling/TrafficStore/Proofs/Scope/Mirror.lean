import TrafficStore.Proofs.Scope.Copies

namespace TrafficStore

def ScriptStep.isSync : ScriptStep → Bool
  | .sync _ => true
  | .scope _ | .restart => false

namespace Desk

variable {ε : Type} [Engine ε] {d : Desk ε} {name n : String} {s : Scope ε}

theorem scope?_close :
    (d.close name).scope? n = if n = name then none else d.scope? n := by
  rw [scope?, close, scope?, List.find?_filter]
  by_cases h : n = name
  · rw [if_pos h, Option.map_eq_none_iff, List.find?_eq_none]
    intro x _
    by_cases hx : x.1 = name <;> simp [hx, h]
  · rw [if_neg h]
    congr 2
    funext x
    by_cases hx : x.1 = n <;> simp [hx, h]

theorem scope?_hold :
    (d.hold name s).scope? n = if n = name then some s else d.scope? n := by
  rw [scope?, hold, List.find?_cons]
  by_cases h : n = name
  · simp [h]
  · simp only [Ne.symm h, decide_false, if_neg h]
    exact scope?_close.trans (if_neg h)

def Distinct (d : Desk ε) : Prop := (d.scopes.map Prod.fst).Nodup

theorem Distinct.close (h : d.Distinct) : (d.close name).Distinct :=
  List.Nodup.sublist (List.filter_sublist.map Prod.fst) h

theorem Distinct.hold (h : d.Distinct) : (d.hold name s).Distinct := by
  refine List.nodup_cons.2 ⟨?_, Distinct.close h⟩
  simp [Desk.close]

theorem scope?_eq_some_iff (h : d.Distinct) : d.scope? n = some s ↔ (n, s) ∈ d.scopes := by
  obtain ⟨e, scopes⟩ := d
  rw [scope?]
  induction scopes with
  | nil => simp
  | cons x xs ih =>
      obtain ⟨hx, hxs⟩ := List.nodup_cons.1 h
      rw [List.find?_cons]
      by_cases hn : x.1 = n
      · simp only [hn, decide_true, Option.map_some, Option.some.injEq, List.mem_cons]
        constructor
        · rintro rfl
          exact .inl (by rw [← hn])
        · rintro (hs | hs)
          · rw [← hs]
          · exact absurd (List.mem_map.2 ⟨(n, s), hs, hn.symm⟩) hx
      · simp only [hn, decide_false, List.mem_cons]
        rw [ih hxs]
        constructor
        · exact .inr
        · rintro (hs | hs)
          · exact absurd (congrArg Prod.fst hs).symm hn
          · exact hs

theorem hasWriter_iff (h : d.Distinct) :
    d.hasWriter = true ↔ ∃ n w, d.scope? n = some (.writer w) := by
  rw [hasWriter, List.any_eq_true]
  constructor
  · rintro ⟨⟨n, s⟩, hs, hw⟩
    cases s with
    | reader r => cases hw
    | writer w => exact ⟨n, w, (scope?_eq_some_iff h).2 hs⟩
  · rintro ⟨n, w, hw⟩
    exact ⟨(n, .writer w), (scope?_eq_some_iff h).1 hw, rfl⟩

def syncsAlone (d : Desk ε) : List ScriptStep → Bool
  | [] => true
  | s :: ss => !(s.isSync && d.hasWriter) && (d.scriptStep s).2.syncsAlone ss

end Desk

def ScopeAnswer.failure? : ScopeAnswer → Option StorageError
  | .failed x => some x
  | .records _ failure => failure
  | _ => none

def ScopeStep.table? : ScopeStep → Option String
  | .find _ table _ | .count _ table | .scan _ table _ | .create _ table | .put _ table _ _ =>
      some table
  | .beginRead _ | .beginWrite _ | .commit _ | .drop _ => none

def ScriptStep.table? : ScriptStep → Option String
  | .scope s => s.table?
  | .sync _ | .restart => none

namespace ScopeViews

variable {ε α : Type} [Engine ε] [IsolatedEngine ε]

def copy : Scope ε → Content
  | .reader r => seen r
  | .writer w => draft w

structure Mirror (d : Desk ε) (m : Copies) : Prop where
  distinct : d.Distinct
  sound : Sound d.engine
  committed : m.committed = Engine.committed d.engine
  copies : ∀ n, m.copies n = (d.scope? n).map copy
  writer : ∀ n, m.writer = some n ↔ ∃ w, d.scope? n = some (.writer w)
  owns : ∀ n w, d.scope? n = some (.writer w) → Owns d.engine w

def Agrees (o : ScopeAnswer × Desk ε) (p : ScopeAnswer × Copies) : Prop :=
  (∃ x, o.1.failure? = some x ∧ Fault ε x) ∨ o.1 = p.1 ∧ Mirror o.2 p.2

variable {d : Desk ε} {m : Copies} {name : String}

theorem mirror_start (e : ε) (h : Sound e) :
    Mirror ({ engine := e } : Desk ε) { committed := Engine.committed e } where
  distinct := List.nodup_nil
  sound := h
  committed := rfl
  copies _ := rfl
  writer n := by simp [Desk.scope?]
  owns n w hw := by simp [Desk.scope?] at hw

def MirrorsIn (s : Scope ε) (e : ε) (op : ScopeM ε (Scope ε) α) (w : CopyM α) : Prop :=
  ∃ r s' e', op.run (s, e) = (r, (s', e')) ∧ Keeps e e' ∧ s'.isWriter = s.isWriter ∧
    (Faults ε r ∨ w.run (copy s) = (r, copy s') ∧ ∀ v, s' = .writer v → Owns e' v)

theorem mirrorsIn_reader {r : Engine.Reader ε} {e : ε} {inReader : ScopeM ε (Engine.Reader ε) α}
    {inWriter : ScopeM ε (Engine.Writer ε) α} {w : CopyM α} (hr : Mirrors (readers ε) inReader w)
    (he : Sound e) : MirrorsIn (.reader r) e (Scope.look inReader inWriter) w := by
  obtain ⟨a, r', e', hrun, hk, ha⟩ := hr r e he trivial
  refine ⟨a, .reader r', e', by simp only [Scope.look, hrun], hk, rfl, ha.imp_right ?_⟩
  exact fun ha => ⟨ha.1, fun _ hv => by cases hv⟩

theorem mirrorsIn_writer {v : Engine.Writer ε} {e : ε} {inReader : ScopeM ε (Engine.Reader ε) α}
    {inWriter : ScopeM ε (Engine.Writer ε) α} {w : CopyM α} (hw : Mirrors (writers ε) inWriter w)
    (he : Sound e) (hv : Owns e v) : MirrorsIn (.writer v) e (Scope.look inReader inWriter) w := by
  obtain ⟨a, v', e', hrun, hk, ha⟩ := hw v e he hv
  refine ⟨a, .writer v', e', by simp only [Scope.look, hrun], hk, rfl, ha.imp_right ?_⟩
  exact fun ha => ⟨ha.1, fun u hu => by cases hu; exact ha.2⟩

namespace Mirror

theorem keeps (h : Mirror d m) {e : ε} (hk : Keeps d.engine e) :
    Mirror { d with engine := e } m where
  distinct := h.distinct
  sound := hk.sound h.sound
  committed := h.committed.trans hk.committed.symm
  copies := h.copies
  writer := h.writer
  owns n w hw := hk.owns w (h.owns n w hw)

theorem writer_close (h : Mirror d m) (n : String) :
    (m.close name).writer = some n ↔ n ≠ name ∧ ∃ w, d.scope? n = some (.writer w) := by
  rw [← h.writer, Copies.writer_close]
  by_cases hw : m.writer = some name
  · rw [if_pos hw, hw]
    constructor
    · exact fun hn => nomatch hn
    · rintro ⟨hn, he⟩
      exact absurd (Option.some.inj he).symm hn
  · rw [if_neg hw]
    exact ⟨fun hn => ⟨fun he => hw (he ▸ hn), hn⟩, And.right⟩

theorem close (h : Mirror d m) (name : String) : Mirror (d.close name) (m.close name) where
  distinct := h.distinct.close
  sound := h.sound
  committed := h.committed
  copies n := by
    rw [Desk.scope?_close, Copies.copies_close, h.copies]
    split <;> rfl
  writer n := by
    rw [h.writer_close, Desk.scope?_close]
    by_cases hn : n = name <;> simp [hn]
  owns n w hw := by
    rw [Desk.scope?_close] at hw
    split at hw
    · cases hw
    · exact h.owns n w hw

theorem hold (h : Mirror d m) (name : String) (s : Scope ε)
    (hs : ∀ w, s = .writer w →
      Owns d.engine w ∧ ∀ n w', d.scope? n = some (.writer w') → n = name) :
    Mirror (d.hold name s) (m.hold name s.isWriter (copy s)) where
  distinct := h.distinct.hold
  sound := h.sound
  committed := h.committed
  copies n := by
    rw [Desk.scope?_hold, Copies.copies_hold, h.copies]
    split <;> rfl
  writer n := by
    rw [Desk.scope?_hold, Copies.writer_hold]
    cases s with
    | reader r =>
        rw [Scope.isWriter]
        simp only [Bool.false_eq_true, if_false, h.writer_close]
        by_cases hn : n = name <;> simp [hn]
    | writer w =>
        rw [Scope.isWriter]
        simp only [if_true, Option.some.injEq]
        by_cases hn : n = name
        · simp [hn]
        · simp only [Ne.symm hn, if_neg hn, false_iff]
          rintro ⟨w', hw'⟩
          exact hn ((hs w rfl).2 n w' hw')
  owns n w hw := by
    rw [Desk.scope?_hold] at hw
    split at hw
    · exact (hs w (Option.some.inj hw)).1
    · exact h.owns n w hw

theorem writer_unique (h : Mirror d m) {w : Engine.Writer ε}
    (hw : d.scope? name = some (.writer w)) :
    ∀ n w', d.scope? n = some (.writer w') → n = name := by
  intro n w' hw'
  have hn := (h.writer n).2 ⟨w', hw'⟩
  have hname := (h.writer name).2 ⟨w, hw⟩
  exact Option.some.inj (hn.symm.trans hname)

theorem isWriter_eq (h : Mirror d m) {s : Scope ε} (hs : d.scope? name = some s) :
    decide (m.writer = some name) = s.isWriter := by
  rw [Bool.eq_iff_iff, decide_eq_true_eq, h.writer, hs]
  cases s with
  | reader r => simp [Scope.isWriter]
  | writer w => simp [Scope.isWriter]

theorem hasWriter_eq (h : Mirror d m) : d.hasWriter = m.writer.isSome := by
  rw [Bool.eq_iff_iff, Desk.hasWriter_iff h.distinct, Option.isSome_iff_exists]
  exact exists_congr (fun n => (h.writer n).symm)

theorem publish (h : Mirror d m) {v : Engine.Writer ε} (hv : d.scope? name = some (.writer v))
    {e : ε} (hs : Sound e) (hc : Engine.committed e = draft v) :
    Mirror (({ d with engine := e }).close name) ({ m with committed := draft v }.close name) where
  distinct := h.distinct.close
  sound := hs
  committed := hc.symm
  copies := (h.close name).copies
  writer := (h.close name).writer
  owns n w hw := by
    rw [Desk.scope?_close] at hw
    split at hw
    · cases hw
    · next hn => exact absurd (h.writer_unique hv n w hw) hn

theorem agrees_inScope (h : Mirror d m) {s : Scope ε} (hs : d.scope? name = some s)
    {op : ScopeM ε (Scope ε) α} {w : CopyM α} (hop : MirrorsIn s d.engine op w)
    {answer : α → ScopeAnswer} {failure : StorageError → ScopeAnswer}
    (hf : ∀ x, (failure x).failure? = some x) :
    Agrees (d.inScope name op answer failure) (m.onCopy name w answer failure) := by
  obtain ⟨r, s', e, hrun, hk, hkind, hop⟩ := hop
  have hcopy : m.copies name = some (copy s) := by rw [h.copies, hs]; rfl
  have hin : d.inScope name op answer failure =
      (match r with | .ok a => answer a | .error x => failure x,
        ({ d with engine := e }).hold name s') := by
    rw [Desk.inScope, hs]
    simp only [hrun]
    cases r <;> rfl
  rw [hin]
  rcases hop with ⟨x, rfl, hx⟩ | ⟨hw, howns⟩
  · exact .inl ⟨x, hf x, hx⟩
  · have hmirror : Mirror (({ d with engine := e }).hold name s')
        (m.hold name (decide (m.writer = some name)) (copy s')) := by
      rw [h.isWriter_eq hs, ← hkind]
      refine (h.keeps hk).hold name s' (fun v hv => ⟨howns v hv, ?_⟩)
      cases s with
      | reader r => rw [hv] at hkind; cases hkind
      | writer u => exact h.writer_unique hs
    cases r with
    | ok a => rw [Copies.onCopy_ok hcopy hw]; exact .inr ⟨rfl, hmirror⟩
    | error x => rw [Copies.onCopy_error hcopy hw]; exact .inr ⟨rfl, hmirror⟩

theorem agrees_look (h : Mirror d m) {inReader : ScopeM ε (Engine.Reader ε) α}
    {inWriter : ScopeM ε (Engine.Writer ε) α} {w : CopyM α}
    (hr : Mirrors (readers ε) inReader w) (hw : Mirrors (writers ε) inWriter w)
    {answer : α → ScopeAnswer} {failure : StorageError → ScopeAnswer}
    (hf : ∀ x, (failure x).failure? = some x) :
    Agrees (d.inScope name (Scope.look inReader inWriter) answer failure)
      (m.onCopy name w answer failure) := by
  cases hs : d.scope? name with
  | none =>
      rw [Copies.onCopy_none (by rw [h.copies, hs]; rfl), Desk.inScope, hs]
      exact .inr ⟨rfl, h⟩
  | some s =>
      refine h.agrees_inScope hs ?_ hf
      cases s with
      | reader r => exact mirrorsIn_reader hr h.sound
      | writer v => exact mirrorsIn_writer hw h.sound (h.owns name v hs)

theorem agrees_inWriter (h : Mirror d m) {inWriter : ScopeM ε (Engine.Writer ε) Unit}
    {w : CopyM Unit} (hw : Mirrors (writers ε) inWriter w) :
    Agrees (d.inWriter name inWriter) (m.onDraft name w) := by
  cases hs : d.scope? name with
  | none =>
      rw [Desk.inWriter, Copies.onDraft, h.copies, hs, Desk.inScope, hs]
      exact .inr ⟨rfl, h⟩
  | some s =>
      have hkind := h.isWriter_eq hs
      rw [Desk.inWriter, Copies.onDraft, h.copies, hs]
      cases s with
      | reader r =>
          simp only [Option.map_some, if_neg (of_decide_eq_false hkind)]
          exact .inr ⟨rfl, h⟩
      | writer v =>
          simp only [Option.map_some, if_pos (of_decide_eq_true hkind)]
          exact h.agrees_inScope hs (mirrorsIn_writer hw h.sound (h.owns name v hs)) (fun _ => rfl)

theorem agrees_beginRead (h : Mirror d m) :
    Agrees (d.begin name (Scope.reader <$> Engine.beginRead)) (m.step (.beginRead name)) := by
  obtain ⟨r, e, hrun, hk, hr⟩ := IsolatedEngine.beginRead_eq d.engine h.sound
  rw [Desk.begin, Work.run_map, hrun]
  rcases hr with ⟨x, rfl, hx⟩ | ⟨s, rfl, hs⟩
  · exact .inl ⟨x, rfl, hx⟩
  · refine .inr ⟨rfl, ?_⟩
    change Mirror _ (m.hold name false m.committed)
    rw [h.committed, ← hs]
    exact (h.keeps hk).hold name (.reader s) (fun w hw => by cases hw)

theorem agrees_beginWrite (h : Mirror d m) :
    Agrees (d.step (.beginWrite name)) (m.step (.beginWrite name)) := by
  rw [Desk.step, Copies.step, h.hasWriter_eq]
  by_cases hw : m.writer.isSome = true
  · rw [if_pos hw, if_pos hw]
    exact .inr ⟨rfl, h⟩
  · rw [if_neg hw, if_neg hw]
    obtain ⟨r, e, hrun, hk, hr⟩ := IsolatedEngine.beginWrite_eq d.engine h.sound
    rw [Desk.begin, Work.run_map, hrun]
    rcases hr with ⟨x, rfl, hx⟩ | ⟨v, rfl, hv, howns⟩
    · exact .inl ⟨x, rfl, hx⟩
    · refine .inr ⟨rfl, ?_⟩
      change Mirror _ (m.hold name true m.committed)
      rw [h.committed, ← hv]
      refine (h.keeps hk).hold name (.writer v) (fun u hu => ⟨by cases hu; exact howns, ?_⟩)
      intro n w' hw'
      exact absurd (Option.isSome_iff_exists.2 ⟨n, (h.writer n).2 ⟨w', hw'⟩⟩) hw

theorem agrees_commit (h : Mirror d m) :
    Agrees (d.step (.commit name)) (m.step (.commit name)) := by
  rw [Desk.step, Copies.step, h.copies]
  cases hs : d.scope? name with
  | none => exact .inr ⟨rfl, h⟩
  | some s =>
      have hkind := h.isWriter_eq hs
      simp only [Option.map_some]
      cases s with
      | reader r =>
          obtain ⟨a, e, hrun, hk, ha⟩ := IsolatedEngine.endRead_eq r d.engine
          simp only [Scope.commit, hrun, if_neg (of_decide_eq_false hkind)]
          rcases ha with ⟨x, rfl, hx⟩ | rfl
          · exact .inl ⟨x, rfl, hx⟩
          · exact .inr ⟨rfl, (h.keeps hk).close name⟩
      | writer v =>
          obtain ⟨a, e, hrun, ha⟩ :=
            IsolatedEngine.commit_eq v d.engine h.sound (h.owns name v hs)
          simp only [Scope.commit, hrun, if_pos (of_decide_eq_true hkind)]
          rcases ha with ⟨⟨x, rfl, hx⟩, _⟩ | ⟨rfl, hsound, hc⟩
          · exact .inl ⟨x, rfl, hx⟩
          · exact .inr ⟨rfl, h.publish hs hsound hc⟩

end Mirror

theorem agrees_step (h : Mirror d m) (s : ScopeStep) (ht : ∀ t, s.table? = some t → Takes ε t) :
    Agrees (d.step s) (m.step s) := by
  cases s with
  | beginRead name => exact h.agrees_beginRead
  | beginWrite name => exact h.agrees_beginWrite
  | commit name => exact h.agrees_commit
  | drop name =>
      rw [Desk.step, Copies.step, h.copies]
      cases d.scope? name with
      | none => exact .inr ⟨rfl, h⟩
      | some s => exact .inr ⟨rfl, h.close name⟩
  | find name table key =>
      have ht := ht table rfl
      exact h.agrees_look (IsolatedEngine.reading_readsAs.find ht key)
        (IsolatedEngine.rereading_readsAs.find ht key) (fun _ => rfl)
  | count name table =>
      have ht := ht table rfl
      exact h.agrees_look (IsolatedEngine.reading_readsAs.count ht)
        (IsolatedEngine.rereading_readsAs.count ht) (fun _ => rfl)
  | scan name table limit =>
      have ht := ht table rfl
      exact h.agrees_look (IsolatedEngine.reading_readsAs.scan ht)
        (IsolatedEngine.rereading_readsAs.scan ht) (fun _ => rfl)
  | create name table => exact h.agrees_inWriter (IsolatedEngine.create_mirrors (ht table rfl))
  | put name table key value =>
      exact h.agrees_inWriter (IsolatedEngine.put_mirrors (ht table rfl) key value)

theorem agrees_scriptStep (h : Mirror d m) (s : ScriptStep)
    (ht : ∀ t, s.table? = some t → Takes ε t)
    (hsync : Engine.syncTakesWriter ε = true → ¬ (s.isSync && d.hasWriter) = true) :
    Agrees (d.scriptStep s) (m.scriptStep s) := by
  cases s with
  | scope s => exact agrees_step h s ht
  | sync force =>
      have hfree : (Engine.syncTakesWriter ε && d.hasWriter) = false := by
        rw [Bool.and_eq_false_imp]
        exact fun hs => Bool.eq_false_iff.2 (hsync hs)
      obtain ⟨r, e, hrun, hk, hr⟩ := IsolatedEngine.sync_eq force d.engine h.sound
      rw [Desk.scriptStep, Desk.sync, hfree]
      simp only [Bool.false_eq_true, if_false, hrun]
      rcases hr with ⟨x, rfl, hx⟩ | ⟨v, rfl⟩
      · exact .inl ⟨x, rfl, hx⟩
      · exact .inr ⟨rfl, h.keeps hk⟩
  | restart =>
      refine .inr ⟨rfl, ?_⟩
      have hstart := mirror_start (Engine.restart d.engine) (IsolatedEngine.sound_restart _ h.sound)
      rw [IsolatedEngine.committed_restart, ← h.committed] at hstart
      exact hstart

theorem run_eq_copies (steps : List ScriptStep) : ∀ {d : Desk ε} {m : Copies}, Mirror d m →
    (∀ s ∈ steps, ∀ t, s.table? = some t → Takes ε t) →
    (Engine.syncTakesWriter ε = true → d.syncsAlone steps = true) →
    (∀ a ∈ (d.run steps).1, ∀ x, a.failure? = some x → ¬ Fault ε x) →
    (d.run steps).1 = (m.run steps).1 ∧ Mirror (d.run steps).2 (m.run steps).2 := by
  induction steps with
  | nil => intro d m h _ _ _; exact ⟨rfl, h⟩
  | cons s ss ih =>
      intro d m h ht hsync hfault
      rw [Desk.syncsAlone, Bool.and_eq_true, Bool.not_eq_true', Bool.eq_false_iff] at hsync
      rw [Desk.run] at hfault ⊢
      rw [Copies.run]
      rcases agrees_scriptStep h s (ht s List.mem_cons_self) (fun hs => (hsync hs).1) with
        ⟨x, hx, hf⟩ | ⟨ha, hnext⟩
      · exact absurd hf (hfault _ List.mem_cons_self x hx)
      · obtain ⟨has, hlast⟩ := ih hnext (fun t hts => ht t (List.mem_cons_of_mem s hts))
          (fun hs => (hsync hs).2) (fun a h' => hfault a (List.mem_cons_of_mem _ h'))
        exact ⟨congr (congrArg List.cons ha) has, hlast⟩

end ScopeViews

end TrafficStore
