import TrafficStore.Proofs.Effects

namespace TrafficStore

open ScopeViews

def Content.record? (c : Content) (table : String) (key : Bytes) : Option Bytes :=
  (c.find? table).bind (fun t => t.find? key)

theorem TableId.lookUp_of_record? {α : Type} {t : TableId} {k : Key} {c : Content} {bs : Bytes}
    (h : c.record? t.name k.bytes = some bs) (f : Format α) :
    t.lookUp f k c = f.read (some bs) := by
  obtain ⟨table, hc, hbs⟩ := Option.bind_eq_some_iff.1 h
  rw [lookUp_some hc, Rewrite.field, hbs]

structure Framed (place : Option (TableId × Key)) (c c' : Content) : Prop where
  tables : ∀ name, c'.contains name = c.contains name
  elsewhere : ∀ table key, (∀ t k, place = some (t, k) → ¬ (table = t.name ∧ key = k.bytes)) →
    c'.record? table key = c.record? table key
  kept : ∀ table key, (c.record? table key).isSome → (c'.record? table key).isSome

namespace Framed

theorem refl (place : Option (TableId × Key)) (c : Content) : Framed place c c :=
  ⟨fun _ => rfl, fun _ _ _ => rfl, fun _ _ => id⟩

theorem insert {c : Content} {t : TableId} {table : Table} (h : c.find? t.name = some table)
    (k : Key) (v : Bytes) :
    Framed (some (t, k)) c (c.insert t.name (table.insert k.bytes v)) := by
  have hrecord : ∀ name key,
      Content.record? (c.insert t.name (table.insert k.bytes v)) name key =
        if name = t.name ∧ key = k.bytes then some v else c.record? name key := by
    intro name key
    rw [Content.record?, Content.record?, SortedMap.find?_insert]
    by_cases hn : name = t.name
    · rw [if_pos hn, hn, h, Option.bind_some, Option.bind_some, SortedMap.find?_insert]
      by_cases hk : key = k.bytes <;> simp [hk]
    · rw [if_neg hn, if_neg (fun he => hn he.1)]
  refine ⟨fun name => ?_, fun name key hplace => ?_, fun name key hsome => ?_⟩
  · exact SortedMap.contains_insert_of_find? h name
  · rw [hrecord, if_neg (hplace t k rfl)]
  · rw [hrecord]
    split
    · rfl
    · exact hsome

end Framed

namespace Rewrite

variable {α β : Type}

def Touches (key? : Option Key) (w : Rewrite α) : Prop :=
  ∀ table a table', w table = .ok (a, table') →
    table' = table ∨ ∃ k v, key? = some k ∧ table' = table.insert k.bytes v

theorem Touches.map {key? : Option Key} {w : Rewrite α} {g : α → β} (h : w.Touches key?) :
    (w.map g).Touches key? := by
  intro table b table' hw
  rw [Rewrite.map] at hw
  cases hr : w table with
  | error x => rw [hr] at hw; cases hw
  | ok p =>
      rw [hr] at hw
      cases hw
      exact h table p.1 p.2 hr

theorem touches_find (f : Format α) (k : Key) : (find f k).Touches none := by
  intro table a table' h
  rw [find] at h
  cases hv : field f k table with
  | error x => rw [hv] at h; cases h
  | ok v => rw [hv] at h; cases h; exact .inl rfl

theorem touches_count : count.Touches none := by
  intro table a table' h
  cases h
  exact .inl rfl

theorem touches_dump (kind : ValueKind) : (dump kind).Touches none := by
  intro table a table' h
  rw [dump] at h
  cases hitems : (Dump.decodeItems kind table.entries).mapError StorageError.corrupt with
  | error x => rw [hitems] at h; cases h
  | ok items => rw [hitems] at h; cases h; exact .inl rfl

theorem touches_put (f : Format α) (k : Key) (a : α) : (put f k a).Touches (some k) := by
  intro table b table' h
  cases h
  exact .inr ⟨k, _, rfl, rfl⟩

theorem touches_accumulate (f : Format α) (zero : α) (add : α → α → α) (k : Key) (delta : α) :
    (accumulate f zero add k delta).Touches (some k) :=
  fun _ _ _ h => .inr ⟨k, _, rfl, accumulate_ok h⟩

theorem touches_raise (k : Key) (candidate : UInt64) : (raise k candidate).Touches (some k) := by
  intro table raised table' h
  have htable := raise_ok h
  cases raised with
  | true => exact .inr ⟨k, _, rfl, htable⟩
  | false => exact .inl htable

theorem touches_allocate (name key : String) :
    (allocate name key).Touches (some (.name key)) := by
  intro table a table' h
  have htable := allocate_ok h
  cases a with
  | existing id => exact .inl htable
  | inserted id => exact .inr ⟨_, _, rfl, htable⟩

end Rewrite

namespace TableId

variable {α : Type} {t : TableId} {w : Rewrite α} {c c' : Content} {a : α}

theorem framed_onRecords {key? : Option Key} (hw : w.Touches key?)
    (h : t.onRecords w c = .ok (a, c')) : Framed (key?.map (fun k => (t, k))) c c' := by
  obtain ⟨table, table', hc, hrun, rfl⟩ := onRecords_ok h
  rcases hw table a table' hrun with rfl | ⟨k, v, rfl, rfl⟩
  · rw [SortedMap.insert_eq_self hc]
    exact .refl _ c
  · exact .insert hc k v

theorem lookUp_framed {f : Format α} {k : Key} {place : Option (TableId × Key)} (h : Framed place c c')
    (hplace : ∀ u k', place = some (u, k') → ¬ (t.name = u.name ∧ k.bytes = k'.bytes)) :
    t.lookUp f k c' = t.lookUp f k c := by
  have htable := h.tables t.name
  have hrecord := h.elsewhere t.name k.bytes hplace
  rw [SortedMap.contains, SortedMap.contains] at htable
  rw [Content.record?, Content.record?] at hrecord
  rw [lookUp, lookUp]
  cases hc : c.find? t.name <;> cases hc' : c'.find? t.name <;> rw [hc, hc'] at htable
  · cases htable
  · cases htable
  · rw [hc, hc'] at hrecord
    exact congrArg f.read hrecord

end TableId

namespace Access

theorem touches_rewrite (t : TableId) (a : Access) : (a.rewrite t).Touches a.key? := by
  unfold rewrite key?
  cases a with
  | findInt k => exact (Rewrite.touches_find .int k).map
  | findText k => exact (Rewrite.touches_find .text k).map
  | intOrZero k => exact (Rewrite.touches_find .int k).map
  | wordOrZero k => exact (Rewrite.touches_find .word k).map
  | cardinality => exact Rewrite.touches_count.map
  | putInt k n => exact (Rewrite.touches_put .int k n).map
  | putWord k n => exact (Rewrite.touches_put .word k n).map
  | putText k s => exact (Rewrite.touches_put .text k s).map
  | addInt k delta => exact (Rewrite.touches_accumulate _ _ _ k delta).map
  | addWord k delta => exact (Rewrite.touches_accumulate _ _ _ k delta).map
  | raise k candidate => exact (Rewrite.touches_raise k candidate).map
  | allocate name => exact (Rewrite.touches_allocate _ name).map
  | dump panel kind order => exact (Rewrite.touches_dump kind).map

/-- Accesses for which nothing is to be written: looks, a name that has its record, and a candidate
that is not above what stands. -/
def Idle (t : TableId) (c : Content) : Access → Prop
  | allocate name => (c.record? t.name (Key.name name).bytes).isSome
  | raise k candidate => ∀ v, t.lookUp .word k c = .ok v → candidate ≤ v.getD 0
  | a => a.writes = false

theorem idle_of_not_writes {a : Access} (h : a.writes = false) (t : TableId) (c : Content) :
    a.Idle t c := by
  cases a <;> first | exact h | cases h

theorem eq_of_idle {t : TableId} {a : Access} {c c' : Content} {r : Reply} (hidle : a.Idle t c)
    (h : t.onRecords (a.rewrite t) c = .ok (r, c')) : c' = c := by
  obtain ⟨table, table', hc, hrun, rfl⟩ := TableId.onRecords_ok h
  have hlook : a.writes = false → table' = table := by
    intro hw
    rcases a.touches_rewrite t table r table' hrun with he | ⟨k, v, hk, -⟩
    · exact he
    · cases a <;> cases hw <;> cases hk
  have hstill : table' = table := by
    cases a with
    | allocate name =>
        obtain ⟨v, hv⟩ := Option.isSome_iff_exists.1 hidle
        rw [Content.record?, hc] at hv
        rw [rewrite, Rewrite.map] at hrun
        cases ha : Rewrite.allocate t.name name table with
        | error x => rw [ha] at hrun; cases hrun
        | ok p =>
            rw [ha] at hrun
            cases hrun
            exact Rewrite.allocate_of_found hv ha
    | raise k candidate =>
        rw [rewrite, Rewrite.map] at hrun
        cases hv : Rewrite.field .word k table with
        | error x => rw [Rewrite.raise, hv] at hrun; cases hrun
        | ok v =>
            have hle : candidate ≤ v.getD 0 := hidle v (by rw [TableId.lookUp, hc]; exact hv)
            rw [Rewrite.raise_of_field hv, if_neg (UInt64.not_lt.2 hle)] at hrun
            cases hrun
            rfl
    | _ => exact hlook hidle
  rw [hstill, SortedMap.insert_eq_self hc]

end Access

namespace Call

variable {cat : Catalog} {q : Call} {c c' : Content} {r : Reply}

theorem framed_effect (h : q.effect cat c = .ok (r, c')) : Framed q.place? c c' := by
  rw [place?]
  cases hq : q.access? with
  | none => rw [eq_of_access_none hq h]; exact .refl _ c
  | some ta =>
      rcases effect_access hq h with rfl | ⟨r', hr⟩
      · exact .refl _ c'
      · exact TableId.framed_onRecords (ta.2.touches_rewrite ta.1) hr

def Idle (q : Call) (c : Content) : Prop := ∀ t a, q.access? = some (t, a) → a.Idle t c

theorem eq_of_idle (hidle : q.Idle c) (h : q.effect cat c = .ok (r, c')) : c' = c := by
  cases hq : q.access? with
  | none => exact eq_of_access_none hq h
  | some ta =>
      rcases effect_access hq h with he | ⟨r', hr⟩
      · exact he
      · exact Access.eq_of_idle (hidle ta.1 ta.2 hq) hr

theorem idle_of_not_writes (hq : q.writes = false) (c : Content) : q.Idle c := by
  intro t a ha
  rw [writes_eq ha] at hq
  exact Access.idle_of_not_writes hq t c

end Call

structure Leaves {ε α : Type} [Engine ε] [ScopeViews ε] (place : Option (TableId × Key))
    (Idle : Content → Prop) (m : StoreM ε α) : Prop where
  sound : ∀ env, Sound env.engine → Sound (m.run env).2.engine
  framed : ∀ env, Sound env.engine →
    Framed place (Engine.committed env.engine) (Engine.committed (m.run env).2.engine)
  idle : ∀ env, Sound env.engine → Idle (Engine.committed env.engine) →
    Engine.committed (m.run env).2.engine = Engine.committed env.engine

namespace Leaves

variable {ε : Type} [Engine ε] [IsolatedEngine ε]

theorem call (cat : Catalog) (q : Call) : Leaves q.place? q.Idle (q.run cat : StoreM ε Reply) where
  sound _ hs := ((q.serves cat).moved hs rfl).1
  framed _ hs := by
    rcases ((q.serves cat).moved hs rfl).2 with hc | ⟨r, hr⟩
    · rw [hc]
      exact .refl _ _
    · exact Call.framed_effect hr
  idle _ hs hidle := by
    rcases ((q.serves cat).moved hs rfl).2 with hc | ⟨r, hr⟩
    · exact hc
    · exact Call.eq_of_idle hidle hr

theorem access (t : TableId) (a : Access) :
    Leaves (a.key?.map (fun k => (t, k))) (fun c => a.Idle t c) (a.run t : StoreM ε Reply) where
  sound _ hs := ((a.serves t).moved hs rfl).1
  framed _ hs := by
    rcases ((a.serves t).moved hs rfl).2 with hc | ⟨r, hr⟩
    · rw [hc]
      exact .refl _ _
    · exact TableId.framed_onRecords (a.touches_rewrite t) hr
  idle _ hs hidle := by
    rcases ((a.serves t).moved hs rfl).2 with hc | ⟨r, hr⟩
    · exact hc
    · exact Access.eq_of_idle hidle hr

end Leaves

end TrafficStore
