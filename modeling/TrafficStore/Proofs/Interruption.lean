import TrafficStore.Proofs.Consistency

namespace TrafficStore

open ScopeViews Books LogRecord Allocator Ingest

namespace Tally

def notePart (r : LogRecord) (T : Tally) : Part → Tally
  | .label => T.noteLabel r
  | .hit => T.noteHit r
  | .bytes => T.noteBytes r
  | .request => T.noteRequest r
  | .total => T.noteTotal r

def partway (T : Tally) (r : LogRecord) (done : List Part) : Tally :=
  done.foldl (notePart r) (T.noteKey r)

theorem partway_append_singleton (T : Tally) (r : LogRecord) (done : List Part) (part : Part) :
    T.partway r (done ++ [part]) = (T.partway r done).notePart r part := by
  rw [partway, List.foldl_append]
  rfl

theorem keys_partway (T : Tally) (r : LogRecord) (done : List Part) :
    (T.partway r done).keys = T.keys ++ [r] := by
  have hparts : ∀ T : Tally, (done.foldl (notePart r) T).keys = T.keys := by
    induction done with
    | nil => exact fun _ => rfl
    | cons part done ih =>
        intro T
        rw [List.foldl_cons, ih]
        cases part <;> rfl
  exact hparts (T.noteKey r)

theorem Nested.partway {T : Tally} {n : Nat} (h : T.Nested n) (r : LogRecord)
    {done left : List Part} (hall : done ++ left = Part.all) :
    (T.partway r done).Nested (n + if left = [] then 0 else 1) := by
  have hkey := h.noteKey r
  have hlabel := hkey.noteLabel (List.mem_append_right _ List.mem_cons_self)
  have hhit := hlabel.noteHit (List.mem_append_right _ List.mem_cons_self)
  have hbytes := hhit.noteBytes (List.mem_append_right _ List.mem_cons_self)
  have hcounted : T.requests.length < (T.hits ++ [r]).length := by
    rw [List.length_append]
    exact Nat.lt_succ_of_le h.requests
  have hrequest := hbytes.noteRequest (r := r) hcounted
  have hmeasured : bytesOf T.total + r.bytes.toNat ≤ bytesOf (T.bytes ++ [r]) := by
    rw [bytesOf_append_singleton]
    exact Nat.add_le_add_right h.total _
  have htotal := hrequest.noteTotal (r := r) hmeasured
  have hlater : n ≤ n + 1 := Nat.le_succ n
  -- between the second part and the fourth the record is among the hits, but no request yet
  rcases done with _ | ⟨_, _ | ⟨_, _ | ⟨_, _ | ⟨_, _ | ⟨_, done⟩⟩⟩⟩⟩ <;>
    simp only [Part.all, List.nil_append, List.cons_append, List.cons.injEq,
      List.append_eq_nil_iff] at hall
  · subst hall
    exact hkey.mono hlater
  · obtain ⟨rfl, rfl⟩ := hall
    exact hlabel.mono hlater
  · obtain ⟨rfl, rfl, rfl⟩ := hall
    exact hhit
  · obtain ⟨rfl, rfl, rfl, rfl⟩ := hall
    exact hbytes
  · obtain ⟨rfl, rfl, rfl, rfl, rfl⟩ := hall
    exact hrequest.mono hlater
  · obtain ⟨rfl, rfl, rfl, rfl, rfl, rfl, rfl⟩ := hall
    exact htotal

section Answer

variable {T : Tally} {b b' : Books} {cat : Catalog} {r : LogRecord}

theorem Of.assigned (h : T.Of b) {id : Option Int32}
    (ha : b.answer cat (.assignKey r.panel r.key) = .ok (.maybeInt id, b')) :
    id = none ∧ b' = b ∨ r.panel ∈ cat.panels ∧
      id = some (idOf (keysOf r.panel (T.keys ++ [r])) r.key) ∧ (T.noteKey r).Of b' := by
  rw [answer_map (t := .panel r.panel .keyMap) (Turn.allocate _ r.key) Reply.allocation rfl rfl]
    at ha
  by_cases hp : r.panel ∈ cat.panels
  · have hmap := Turn.map_map Reply.maybeInt (fun a : Allocation => some a.id)
      (Turn.allocate (TableId.panel r.panel .keyMap).name r.key)
    have hyields : ((Turn.allocate (TableId.panel r.panel .keyMap).name r.key).map
        (fun a => some a.id)).Yields (b.ids (.keys r.panel)) _ (fun _ => True) :=
      h.allocate r (fun _ => trivial)
    obtain ⟨id', hid, hnew⟩ := Turn.Yields.turn (t := .panel r.panel .keyMap)
      (Q := fun id b => id = some (idOf (keysOf r.panel (T.keys ++ [r])) r.key) ∧
        (T.noteKey r).Of b) hyields (Catalog.panel_mem_tables.2 hp) (hmap ▸ ha)
    obtain rfl := Reply.maybeInt.inj hid
    exact .inr ⟨hp, hnew⟩
  · rw [turn, if_neg (fun ht => hp (Catalog.panel_mem_tables.1 ht))] at ha
    cases ha
    exact .inl ⟨rfl, rfl⟩

theorem Of.part (h : T.Of b) (hp : r.panel ∈ cat.panels) (hkey : r.key ∈ keysOf r.panel T.keys)
    {part : Part} {a : Reply}
    (ha : b.answer cat (part.call r (idOf (keysOf r.panel T.keys) r.key)) = .ok (a, b')) :
    (T.notePart r part).Of b' := by
  cases part with
  | label =>
      rw [Part.call, answer_of_access rfl rfl, turn, if_pos (Catalog.panel_mem_tables.2 hp)] at ha
      cases ha
      exact h.label hkey
  | hit =>
      rw [Part.call, answer_of_access rfl rfl, turn, if_pos (Catalog.panel_mem_tables.2 hp)] at ha
      cases ha
      exact h.hit hkey
  | bytes =>
      rw [Part.call, answer_of_access rfl rfl, turn, if_pos (Catalog.panel_mem_tables.2 hp)] at ha
      cases ha
      exact h.bandwidth hkey
  | request =>
      rw [Part.call, answer_of_access rfl rfl, turn, if_pos (generalStats_mem_tables hp)] at ha
      cases ha
      exact h.request r
  | total =>
      rw [Part.call, answer_of_access rfl rfl, turn, if_pos (generalStats_mem_tables hp)] at ha
      cases ha
      exact h.byteCount r

end Answer

end Tally

namespace Ingest

variable {ε : Type} [Engine ε]

/-- Of the runs before this one, `n` stopped inside a line; the tables have, but for those, each
record that they have in full, and of the record of this place the parts that are not left. -/
def Placed (cat : Catalog) (n : Nat) (T : Tally) : Place → Prop
  | .between _ _ _ => T.Nested n
  | .inside r id left _ _ _ => r.panel ∈ cat.panels ∧ id = idOf (keysOf r.panel T.keys) r.key ∧
      ∃ (T₀ : Tally) (done : List Part), T₀.Nested n ∧ done ++ left = Part.all ∧
        T = T₀.partway r done
  | .ended mid _ => T.Nested (n + if mid then 1 else 0)

theorem Placed.nested {cat : Catalog} {n : Nat} {T : Tally} {place : Place}
    (h : Placed cat n T place) : T.Nested (n + place.stops) := by
  cases place with
  | between => exact h
  | inside r id left =>
      obtain ⟨_, _, T₀, done, hT, hall, rfl⟩ := h
      refine (hT.partway r hall).mono (Nat.add_le_add_left ?_ n)
      rw [Place.stops, Place.midLine]
      cases left <;> exact Nat.le_refl _
  | ended mid => exact h

structure Tracked [ScopeViews ε] (n : Nat) (cat : Catalog) (place : Place) (env : Environment ε) :
    Prop where
  sound : Sound env.engine
  ready : Ready cat (Engine.committed env.engine)
  books : ∃ b T, b.Represents (Engine.committed env.engine) ∧ T.Of b ∧ Placed cat n T place

namespace Tracked

variable [IsolatedEngine ε] {n : Nat} {cat : Catalog} {place place' : Place}
  {env env' : Environment ε}

theorem still (h : Tracked n cat place env) (hs : Sound env'.engine)
    (hc : Engine.committed env'.engine = Engine.committed env.engine)
    (hplace : ∀ T, Placed cat n T place → Placed cat n T place') : Tracked n cat place' env' := by
  obtain ⟨b, T, hb, hT, hplaced⟩ := h.books
  refine ⟨hs, ?_, b, T, ?_, hT, hplace T hplaced⟩
  · rw [hc]
    exact h.ready
  · rw [hc]
    exact hb

theorem line {number counted : Nat} {l : Bytes} {ls : List Bytes}
    (h : Tracked n cat (.between number counted (l :: ls)) env) :
    Tracked n cat ((Place.between number counted (l :: ls)).step cat env).1
      ((Place.between number counted (l :: ls)).step cat env).2 := by
  rw [Place.step]
  rcases hl : readLine number l with x | (_ | r)
  · exact h.still h.sound rfl (fun _ hT => hT)
  · exact h.still h.sound rfl (fun _ hT => hT)
  · obtain ⟨b, T, hb, hT, hnested⟩ := h.books
    have hcall : ∀ res env', (cat.assignKey r.panel r.key).run env = (res, env') →
        ((Call.assignKey r.panel r.key).run cat).run env = (res.map .maybeInt, env') := by
      intro res env' hrun
      rw [Call.run.eq_def, Work.run_map, hrun]
      cases res <;> rfl
    dsimp only
    rcases hrun : (cat.assignKey r.panel r.key).run env with ⟨x | id, env'⟩
    · obtain ⟨hs, hready, hb⟩ := Books.run_error h.sound h.ready hb (hcall _ _ hrun)
      exact ⟨hs, hready, b, T, hb, hT, hnested⟩
    · obtain ⟨hs, hready, b', ha, hb'⟩ := Books.run_ok h.sound h.ready hb (hcall _ _ hrun)
      rcases hT.assigned ha with ⟨rfl, rfl⟩ | ⟨hp, rfl, hT'⟩
      · exact ⟨hs, hready, b', T, hb', hT, hnested⟩
      · exact ⟨hs, hready, b', T.noteKey r, hb', hT', hp, rfl, T, [], hnested, rfl, rfl⟩

theorem part {r : LogRecord} {id : Int32} {part : Part} {left : List Part} {number counted : Nat}
    {ls : List Bytes} (h : Tracked n cat (.inside r id (part :: left) number counted ls) env) :
    Tracked n cat ((Place.inside r id (part :: left) number counted ls).step cat env).1
      ((Place.inside r id (part :: left) number counted ls).step cat env).2 := by
  obtain ⟨b, T, hb, hT, hplaced⟩ := h.books
  have hnested := hplaced.nested
  obtain ⟨hp, hid, T₀, done, hT₀, hall, rfl⟩ := hplaced
  have hkeys := T₀.keys_partway r done
  rw [Place.step]
  rcases hrun : ((part.call r id).run cat).run env with ⟨x | a, env'⟩
  · obtain ⟨hs, hready, hb⟩ := Books.run_error h.sound h.ready hb hrun
    exact ⟨hs, hready, b, _, hb, hT, hnested⟩
  · obtain ⟨hs, hready, b', ha, hb'⟩ := Books.run_ok h.sound h.ready hb hrun
    have hmem : r.key ∈ keysOf r.panel (T₀.partway r done).keys := by
      rw [hkeys]
      exact mem_keysOf_append T₀.keys r
    refine ⟨hs, hready, b', T₀.partway r (done ++ [part]), hb', ?_, hp, ?_, T₀, done ++ [part],
      hT₀, ?_, rfl⟩
    · rw [Tally.partway_append_singleton]
      rw [hid] at ha
      exact hT.part hp hmem ha
    · rw [hid, hkeys, Tally.keys_partway]
    · rw [List.append_assoc]
      exact hall

theorem step (h : Tracked n cat place env) :
    Tracked n cat (place.step cat env).1 (place.step cat env).2 := by
  cases place with
  | between number counted ls =>
      cases ls with
      | nil =>
          rw [Place.step]
          rcases hrun : (Environment.sync true).run env with ⟨x | a, env'⟩ <;>
            obtain ⟨hs, hc⟩ := sync_still h.sound hrun <;> exact h.still hs hc (fun _ hT => hT)
      | cons l ls => exact h.line
  | inside r id left number counted ls =>
      cases left with
      | nil => exact h.still h.sound rfl (fun T hT => hT.nested)
      | cons part left => exact h.part
  | ended mid result => exact h

end Tracked

inductive Reached [ScopeViews ε] (s : Session ε) :
    Nat → Catalog → Place → Environment ε → Prop
  | start (input : Bytes) : Reached s 0 s.catalog (.start input) s.environment
  | step {n : Nat} {cat : Catalog} {place : Place} {env : Environment ε}
      (h : Reached s n cat place env) :
      Reached s n cat (place.step cat env).1 (place.step cat env).2
  | cut {n : Nat} {cat : Catalog} {place : Place} {env env' : Environment ε}
      (h : Reached s n cat place env) (hs : Sound env'.engine)
      (hc : Engine.committed env'.engine = Engine.committed env.engine) (x : StorageError) :
      Reached s n cat (.ended place.midLine (.error (.storage x))) env'
  | again {n : Nat} {cat : Catalog} {place : Place} {env : Environment ε}
      (h : Reached s n cat place env) (input : Bytes) :
      Reached s (n + place.stops) cat (.start input) env
  | reopened {n : Nat} {cat : Catalog} {place : Place} {env env' : Environment ε}
      {s' : Session ε} {ps : List Panel} (h : Reached s n cat place env)
      (hs : Sound env'.engine)
      (hc : Engine.committed env'.engine = Engine.committed env.engine)
      (hstart : Session.start env' (some ps) = .ok s') (input : Bytes) :
      Reached s (n + place.stops) s'.catalog (.start input) s'.environment

section Reached

variable [IsolatedEngine ε] {s : Session ε} {n : Nat} {cat : Catalog} {place : Place}
  {env : Environment ε}

theorem Reached.comes {now now' : Place × Environment ε} (h : Reached s n cat now.1 now.2)
    (hcomes : Place.Comes cat now now') : Reached s n cat now'.1 now'.2 := by
  obtain ⟨k, hk⟩ := hcomes
  induction k generalizing now with
  | zero =>
      cases hk
      exact h
  | succ k ih => exact ih h.step hk

theorem Reached.tracked (h : Reached s n cat place env) (hs : Sound s.environment.engine)
    (hkeeping : Keeping s.catalog (Tally.uniform []).Of (Engine.committed s.environment.engine)) :
    Tracked n cat place env := by
  induction h with
  | start input =>
      obtain ⟨hstocked, b, hb, hT⟩ := hkeeping
      exact ⟨hs, hstocked.ready, b, _, hb, hT, .empty⟩
  | step _ ih => exact ih.step
  | cut _ hs hc x ih => exact ih.still hs hc (fun _ hT => hT.nested)
  | again _ input ih =>
      obtain ⟨b, T, hb, hT, hplaced⟩ := ih.books
      exact ⟨ih.sound, ih.ready, b, T, hb, hT, hplaced.nested⟩
  | reopened _ hs hc hstart input ih =>
      obtain ⟨b, T, hb, hT, hplaced⟩ := ih.books
      obtain ⟨hkept, -⟩ := keptBy_start hs (hc ▸ hb) hstart
      exact ⟨hkept.sound, hkept.ready, b, T, hkept.represents, hT, hplaced.nested⟩

end Reached

structure Coherent [ScopeViews ε] (s : Session ε) : Prop where
  runs : ∀ {n cat input env}, Reached s n cat (.start input) env →
    ∃ mid, Place.Comes cat (.start input, env)
        (.ended mid ((run cat input).run env).1, ((run cat input).run env).2) ∧
      (mid = true → ∃ x, ((run cat input).run env).1 = .error (.storage x)) ∧
      Reached s n cat (.ended mid ((run cat input).run env).1) ((run cat input).run env).2
  consistent : ∀ {n cat place env}, Reached s n cat place env →
    ∃ b : Books, b.Represents (Engine.committed env.engine) ∧ b.Consistent (n + place.stops)

theorem coherent_start [IsolatedEngine ε] {env : Environment ε} {s : Session ε} {ps : List Panel}
    (hs : Sound env.engine) (hempty : Engine.committed env.engine = .empty)
    (hstart : Session.start env (some ps) = .ok s) : Coherent s := by
  obtain ⟨-, hs', hkeeping⟩ := keeping_start hs hempty hstart
  constructor
  · intro n cat input env h
    obtain ⟨mid, hcomes, hmid⟩ := Place.comes_run cat input env
    exact ⟨mid, hcomes, hmid, Reached.comes h hcomes⟩
  · intro n cat place env h
    obtain ⟨b, T, hb, hT, hplaced⟩ := (h.tracked hs' hkeeping).books
    exact ⟨b, hb, hT.consistent hplaced.nested⟩

theorem coherent_from_empty {δ : Type} [Database δ] [LawfulDatabase δ] {d : δ}
    (hd : Database.content d = .empty) (o : Opening) :
    (∀ s, o.volatile = .ok s → Coherent s) ∧ ∀ s, o.start d = .ok s → Coherent s := by
  have hs := @sound_opened δ _ _ o.settings d
  exact ⟨fun s hstart => coherent_start trivial rfl hstart,
    fun s hstart => coherent_start (@hs) hd hstart⟩

theorem coherent_from_empty_hostsOnly :
    Database.content ({} : TableFile) = .empty ∧
    (∀ s, hostsOnly.start ({} : TableFile) = .ok s → Coherent s) ∧
    (hostsOnly.start ({} : TableFile)).toOption.map (fun s =>
      let now := Place.go s.catalog 3 (.start (Text.Utf8.encode mixedLog), s.environment)
      let hits := (s.catalog.hits .hosts 1).run now.2
      let requests := (s.catalog.stat totalRequests).run hits.2
      (now.1.stops, hits.1.toOption, requests.1.toOption)) = some (1, some 1, some 0) :=
  ⟨rfl, (coherent_from_empty (d := ({} : TableFile)) rfl hostsOnly).2, by decide +kernel⟩

end Ingest

end TrafficStore
