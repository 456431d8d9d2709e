import TrafficStore.Proofs.Requests

namespace TrafficStore

open ScopeViews

namespace Rewrite

variable {α : Type}

def left (w : Rewrite α) (table : Table) : Table :=
  match w table with
  | .ok p => p.2
  | .error _ => table

end Rewrite

namespace TableId

variable {α : Type} {t : TableId} {c : Content}

theorem settle_none (h : c.find? t.name = none) (w : Rewrite α) :
    (t.onRecords w).settle c = (.error (.unknownTable t.name), c) :=
  Change.settle_error (onRecords_none h)

theorem settle_some {table : Table} (h : c.find? t.name = some table) (w : Rewrite α) :
    (t.onRecords w).settle c = (w.answer table, c.insert t.name (w.left table)) := by
  rw [Rewrite.answer, Rewrite.left]
  cases hw : w table with
  | ok p => exact Change.settle_ok (by rw [onRecords_some h, hw]; rfl)
  | error x =>
      rw [SortedMap.insert_eq_self h]
      exact Change.settle_error (by rw [onRecords_some h, hw]; rfl)

end TableId

namespace ScopeViews.Change

variable {α β : Type}

structure Commute (f : Change α) (g : Change β) : Prop where
  first : ∀ c, (f.settle c).1 = (f.settle (g.settle c).2).1
  second : ∀ c, (g.settle (f.settle c).2).1 = (g.settle c).1
  left : ∀ c, (g.settle (f.settle c).2).2 = (f.settle (g.settle c).2).2

variable {f : Change α} {g : Change β} {ts us : List TableId}

theorem Commute.map {γ δ : Type} (h : f.Commute g) (i : α → γ) (j : β → δ) :
    (f.map i).Commute (g.map j) := by
  refine ⟨fun c => ?_, fun c => ?_, fun c => ?_⟩ <;> simp only [settle_map]
  · rw [← h.first]
  · rw [h.second]
  · rw [h.left]

structure Confined (ts : List TableId) (f : Change α) : Prop where
  alike : ∀ {c d}, (∀ t ∈ ts, c.find? t.name = d.find? t.name) →
    (f.settle c).1 = (f.settle d).1 ∧
      ∀ t ∈ ts, (f.settle c).2.find? t.name = (f.settle d).2.find? t.name
  outside : ∀ c name, (∀ t ∈ ts, name ≠ t.name) → (f.settle c).2.find? name = c.find? name

namespace Confined

theorem elsewhere (hg : g.Confined us) (hd : ts.Disjoint us) (c : Content) :
    ∀ t ∈ ts, (g.settle c).2.find? t.name = c.find? t.name := by
  intro t ht
  refine hg.outside c t.name (fun u hu he => ?_)
  rw [TableId.name_injective he] at ht
  exact hd ht hu

theorem commute (hf : f.Confined ts) (hg : g.Confined us) (hd : ts.Disjoint us) :
    f.Commute g := by
  have hfirst := fun c => hf.alike (hg.elsewhere hd c)
  have hsecond := fun c => hg.alike (hf.elsewhere hd.symm c)
  refine ⟨fun c => (hfirst c).1.symm, fun c => (hsecond c).1, fun c => ?_⟩
  apply SortedMap.ext_find?
  intro name
  by_cases ht : ∃ t ∈ ts, name = t.name
  · obtain ⟨t, ht, rfl⟩ := ht
    rw [hg.elsewhere hd _ t ht, (hfirst c).2 t ht]
  · have hnot : ∀ t ∈ ts, name ≠ t.name := fun t hmem he => ht ⟨t, hmem, he⟩
    rw [hf.outside _ name hnot]
    by_cases hu : ∃ u ∈ us, name = u.name
    · obtain ⟨u, hu, rfl⟩ := hu
      exact (hsecond c).2 u hu
    · have hnot' : ∀ u ∈ us, name ≠ u.name := fun u hmem he => hu ⟨u, hmem, he⟩
      rw [hg.outside _ name hnot', hg.outside _ name hnot', hf.outside _ name hnot]

theorem map {γ : Type} (h : f.Confined ts) (i : α → γ) : (f.map i).Confined ts := by
  refine ⟨fun {c d} hcd => ?_, fun c name hname => ?_⟩ <;> simp only [settle_map]
  · exact ⟨by rw [(h.alike hcd).1], (h.alike hcd).2⟩
  · exact h.outside c name hname

theorem still (a : α) (ts : List TableId) : Confined ts (fun c => .ok (a, c)) :=
  ⟨fun h => ⟨rfl, h⟩, fun _ _ _ => rfl⟩

theorem look {h : Content → Except StorageError α}
    (hh : ∀ {c d}, (∀ t ∈ ts, c.find? t.name = d.find? t.name) → h c = h d) :
    Confined ts (fun c => (h c).map (fun a => (a, c))) := by
  refine ⟨fun {c d} hcd => ?_, fun c name _ => ?_⟩
  · rw [settle_look, settle_look]
    exact ⟨hh hcd, hcd⟩
  · rw [settle_look]

theorem onRecords (t : TableId) (w : Rewrite α) : (t.onRecords w).Confined [t] := by
  refine ⟨fun {c d} hcd => ?_, fun c name hname => ?_⟩
  · have ht := hcd t List.mem_cons_self
    cases hc : c.find? t.name with
    | none =>
        rw [TableId.settle_none hc, TableId.settle_none (ht.symm.trans hc)]
        exact ⟨rfl, hcd⟩
    | some table =>
        rw [TableId.settle_some hc, TableId.settle_some (ht.symm.trans hc)]
        refine ⟨rfl, fun u hu => ?_⟩
        cases List.mem_singleton.1 hu
        rw [SortedMap.find?_insert, SortedMap.find?_insert, if_pos rfl, if_pos rfl]
  · cases hc : c.find? t.name with
    | none => rw [TableId.settle_none hc]
    | some table =>
        rw [TableId.settle_some hc, SortedMap.find?_insert,
          if_neg (hname t List.mem_cons_self)]

end Confined

end ScopeViews.Change

namespace Access

variable {t : TableId} {a b : Access} {k l : Key} {table table' : Table}

def target? : Access → Option Key
  | findInt k | findText k | intOrZero k | wordOrZero k | putInt k _ | putWord k _ | putText k _
  | addInt k _ | addWord k _ | raise k _ => some k
  | allocate name => some (.name name)
  | cardinality | dump .. => none

theorem target?_of_view {v : View} (h : a.view? = some v) : a.target? = some v.key := by
  cases a <;> cases h <;> rfl

theorem answer_allocate_congr {name key : String}
    (hfind : table.find? (Key.name key).bytes = table'.find? (Key.name key).bytes)
    (hsize : table.size = table'.size) :
    (Rewrite.allocate name key).answer table = (Rewrite.allocate name key).answer table' := by
  rw [Rewrite.answer, Rewrite.answer, Rewrite.allocate, Rewrite.allocate, Rewrite.field,
    Rewrite.field, hfind, hsize]
  cases Format.int.read (table'.find? (Key.name key).bytes) with
  | error x => rfl
  | ok v =>
      cases v with
      | some id => rfl
      | none => cases TableId.nextId? table'.size <;> rfl

theorem answer_congr (ha : a.target? = some k) (hfind : table.find? k.bytes = table'.find? k.bytes)
    (hsize : a.allocates = true → table.size = table'.size) :
    (a.rewrite t).answer table = (a.rewrite t).answer table' := by
  cases hv : a.view? with
  | some v =>
      rw [target?_of_view hv] at ha
      cases ha
      rw [answer_rewrite hv, answer_rewrite hv, hfind]
  | none =>
      cases a with
      | putInt | putWord | putText => rfl
      | allocate name =>
          cases ha
          rw [rewrite, Rewrite.answer_map, Rewrite.answer_map,
            answer_allocate_congr hfind (hsize rfl)]
      | cardinality | dump => cases ha
      | _ => cases hv

def put? (t : TableId) (a : Access) (table : Table) : Option (Bytes × Bytes) :=
  match (a.rewrite t).answer table with
  | .ok r => a.record? r
  | .error _ => none

theorem left_rewrite (t : TableId) (a : Access) (table : Table) :
    (a.rewrite t).left table = written table (a.put? t table) := by
  rw [Rewrite.left, put?, Rewrite.answer]
  cases hw : a.rewrite t table with
  | error x => rfl
  | ok p => exact rewrite_ok hw

theorem key_of_record? {r : Reply} {e : Bytes × Bytes} (ha : a.target? = some k)
    (he : a.record? r = some e) : e.1 = k.bytes := by
  unfold record? at he
  split at he <;> cases he <;> cases ha <;> rfl

theorem key_of_put? {e : Bytes × Bytes} (ha : a.target? = some k)
    (he : a.put? t table = some e) : e.1 = k.bytes := by
  rw [put?] at he
  split at he
  · exact key_of_record? ha he
  · cases he

theorem put?_of_not_writes (ha : a.writes = false) : a.put? t table = none := by
  rw [put?]
  split
  · cases a <;> cases ha <;> rfl
  · rfl

theorem put?_congr (h : (a.rewrite t).answer table = (a.rewrite t).answer table') :
    a.put? t table = a.put? t table' := by
  rw [put?, put?, h]

theorem written_comm {d e : Option (Bytes × Bytes)}
    (hne : ∀ x y, d = some x → e = some y → x.1 ≠ y.1) :
    written (written table d) e = written (written table e) d := by
  cases d with
  | none => rfl
  | some x =>
      cases e with
      | none => rfl
      | some y =>
          have hxy := hne x y rfl rfl
          apply SortedMap.ext_find?
          intro key
          simp only [written, SortedMap.find?_insert]
          by_cases hx : key = x.1
          · rw [if_pos hx, if_pos hx, if_neg (fun hy => hxy (hx.symm.trans hy))]
          · rw [if_neg hx, if_neg hx]

theorem find?_left (ha : a.target? = some k) {key : Bytes} (hkey : key ≠ k.bytes) :
    ((a.rewrite t).left table).find? key = table.find? key := by
  rw [left_rewrite, find?_written]
  cases he : a.put? t table with
  | none => rfl
  | some e =>
      rw [Option.bind_some, if_neg (fun hk => hkey (hk.symm.trans (key_of_put? ha he)))]
      rfl

theorem answer_left (ha : a.target? = some k) (hb : b.target? = some l) (hkl : k.bytes ≠ l.bytes)
    (hab : ¬ (a.allocates = true ∧ b.writes = true)) :
    (a.rewrite t).answer ((b.rewrite t).left table) = (a.rewrite t).answer table := by
  refine answer_congr ha (find?_left hb hkl) (fun hallocates => ?_)
  have hwrites : b.writes = false := Bool.eq_false_iff.2 (fun hw => hab ⟨hallocates, hw⟩)
  rw [left_rewrite, put?_of_not_writes hwrites]
  rfl

theorem left_comm (ha : a.target? = some k) (hb : b.target? = some l) (hkl : k.bytes ≠ l.bytes)
    (hab : ¬ (a.allocates = true ∧ b.writes = true))
    (hba : ¬ (b.allocates = true ∧ a.writes = true)) :
    (b.rewrite t).left ((a.rewrite t).left table) =
      (a.rewrite t).left ((b.rewrite t).left table) := by
  have hputs : a.put? t ((b.rewrite t).left table) = a.put? t table :=
    put?_congr (answer_left ha hb hkl hab)
  have hputs' : b.put? t ((a.rewrite t).left table) = b.put? t table :=
    put?_congr (answer_left hb ha hkl.symm hba)
  calc (b.rewrite t).left ((a.rewrite t).left table)
      = written (written table (a.put? t table)) (b.put? t table) := by
        rw [left_rewrite t b, hputs', left_rewrite t a]
    _ = written (written table (b.put? t table)) (a.put? t table) := by
        refine written_comm (fun x y hx hy hxy => hkl ?_)
        rw [← key_of_put? ha hx, ← key_of_put? hb hy, hxy]
    _ = (a.rewrite t).left ((b.rewrite t).left table) := by
        rw [left_rewrite t a, hputs, left_rewrite t b]

theorem commute (ha : a.target? = some k) (hb : b.target? = some l) (hkl : k.bytes ≠ l.bytes)
    (hab : ¬ (a.allocates = true ∧ b.writes = true))
    (hba : ¬ (b.allocates = true ∧ a.writes = true)) :
    (t.onRecords (a.rewrite t)).Commute (t.onRecords (b.rewrite t)) := by
  have hfind : ∀ (c : Content) (table : Table), (c.insert t.name table).find? t.name = some table :=
    fun c table => by rw [SortedMap.find?_insert, if_pos rfl]
  refine ⟨fun c => ?_, fun c => ?_, fun c => ?_⟩ <;> cases hc : c.find? t.name with
  | none => simp only [TableId.settle_none hc]
  | some table => simp only [TableId.settle_some hc, TableId.settle_some (hfind _ _),
      SortedMap.insert_insert, answer_left ha hb hkl hab, answer_left hb ha hkl.symm hba,
      left_comm ha hb hkl hab hba]

example :
    let put := (Access.putInt (.name "a") 7).rewrite (.shared .uniqueKeys)
    let allocate := (Access.allocate "b").rewrite (.shared .uniqueKeys)
    allocate.answer .empty = .ok (.allocation (.inserted 1)) ∧
      allocate.answer (put.left .empty) = .ok (.allocation (.inserted 2)) := by decide

end Access

def SameTurns {ι β : Type} [DecidableEq ι] (xs ys : List (ι × β)) : Prop :=
  ∀ i, xs.filter (fun x => x.1 = i) = ys.filter (fun x => x.1 = i)

namespace SameTurns

variable {ι β : Type} [DecidableEq ι] {x : ι × β} {xs ys zs : List (ι × β)}

theorem refl (xs : List (ι × β)) : SameTurns xs xs := fun _ => rfl

theorem trans (h : SameTurns xs ys) (h' : SameTurns ys zs) : SameTurns xs zs :=
  fun i => (h i).trans (h' i)

theorem cons (x : ι × β) (h : SameTurns xs ys) : SameTurns (x :: xs) (x :: ys) := by
  intro i
  rw [List.filter_cons, List.filter_cons, h i]

theorem swap {i j : ι} (hne : i ≠ j) (a b : β) (xs : List (ι × β)) :
    SameTurns ((i, a) :: (j, b) :: xs) ((j, b) :: (i, a) :: xs) := by
  intro k
  by_cases hi : i = k
  · have hj : j ≠ k := fun hj => hne (hi.trans hj.symm)
    simp [hi, hj]
  · simp [List.filter_cons, hi]

theorem subset (h : SameTurns xs ys) : ys ⊆ xs := by
  intro y hy
  have hmem : y ∈ ys.filter (fun x => x.1 = y.1) := List.mem_filter.2 ⟨hy, decide_eq_true rfl⟩
  rw [← h] at hmem
  exact List.mem_of_mem_filter hmem

theorem eq_nil (h : SameTurns [] ys) : ys = [] := List.eq_nil_of_subset_nil h.subset

theorem split (h : SameTurns (x :: xs) ys) : ∃ front back, ys = front ++ x :: back ∧
    (∀ y ∈ front, y.1 ≠ x.1) ∧ SameTurns xs (front ++ back) := by
  have hx := h x.1
  rw [List.filter_cons_of_pos (by simp)] at hx
  obtain ⟨front, back, rfl, hfront, -, hback⟩ := List.filter_eq_cons_iff.1 hx.symm
  have hne : ∀ y ∈ front, y.1 ≠ x.1 := fun y hy he => hfront y hy (decide_eq_true he)
  refine ⟨front, back, rfl, hne, fun i => ?_⟩
  by_cases hi : x.1 = i
  · subst hi
    rw [List.filter_append, List.filter_eq_nil_iff.2 hfront, hback]
    rfl
  · have hrest := h i
    rw [List.filter_append, List.filter_cons_of_neg (by simpa using hi),
      List.filter_cons_of_neg (by simpa using hi)] at hrest
    rw [hrest, List.filter_append]

end SameTurns

namespace Request

variable {r s : Request}

theorem confined_rootLabelOf (p : Panel) (id : Int32) :
    Change.Confined [.panel p .root, .panel p .rootMap] (fun c =>
      (Catalog.rootLabelOf (.panel p .root) (.panel p .rootMap) id c).map
        (fun label => (label, c))) := by
  refine .look (fun {c d} hcd => ?_)
  have hroot := hcd (.panel p .root) (by simp)
  have hlabels := hcd (.panel p .rootMap) (by simp)
  rw [Catalog.rootLabelOf, Catalog.rootLabelOf]
  simp only [TableId.lookUp, hroot, hlabels]

theorem confined (r : Request) : r.effect.Confined r.tables := by
  cases ha : r.access? with
  | some ta =>
      rcases effect_cases ha with ⟨-, x, he⟩ | ⟨ht, g, he⟩
      · rw [he]
        exact .still x _
      · rw [he, ht]
        exact (Change.Confined.onRecords ta.1 _).map g
  | none =>
      cases r with
      | access t a => cases ha
      | call cat q =>
          cases q with
          | sync force => exact .still Reply.done _
          | rootLabel p id =>
              refine Change.Confined.map ?_ Reply.maybeText
              by_cases hp : p ∈ cat.panels
              · have htables : (call cat (.rootLabel p id)).tables =
                    [.panel p .root, .panel p .rootMap] := by
                  simp [tables, Call.tables, Catalog.panel_mem_tables, hp]
                rw [htables, show cat.rootLabelEffect p id = _ from funext (fun _ => if_pos hp)]
                exact confined_rootLabelOf p id
              · rw [show cat.rootLabelEffect p id = _ from funext (fun _ => if_neg hp)]
                exact .still none _
          | _ => cases ha

/-- Requests about one record each, and not about the same one. In one table, neither may allocate
where the other writes, since ids count the records. -/
inductive Independent : Request → Request → Prop
  | apart {r s : Request} {t u : TableId} {a b : Access} {k l : Key} :
      r.access? = some (t, a) → s.access? = some (u, b) → a.target? = some k →
      b.target? = some l → t ≠ u → Independent r s
  | beside {r s : Request} {t : TableId} {a b : Access} {k l : Key} :
      r.access? = some (t, a) → s.access? = some (t, b) → a.target? = some k →
      b.target? = some l → k.bytes ≠ l.bytes → ¬ (a.allocates = true ∧ b.writes = true) →
      ¬ (b.allocates = true ∧ a.writes = true) → Independent r s

theorem Independent.commute (h : r.Independent s) : r.effect.Commute s.effect := by
  cases h with
  | apart hr hs _ _ hne =>
      refine r.confined.commute s.confined ?_
      rcases effect_cases hr with ⟨hr, -⟩ | ⟨hr, -⟩ <;>
        rcases effect_cases hs with ⟨hs, -⟩ | ⟨hs, -⟩ <;> rw [hr, hs] <;> simp [hne.symm]
  | beside hr hs ha hb hkl hab hba =>
      rcases effect_cases hr with ⟨ht, -⟩ | ⟨-, g, he⟩
      · refine r.confined.commute s.confined ?_
        rw [ht]
        exact List.disjoint_nil_left _
      · rcases effect_cases hs with ⟨ht, -⟩ | ⟨-, g', he'⟩
        · refine r.confined.commute s.confined ?_
          rw [ht]
          exact List.disjoint_nil_right _
        · rw [he, he']
          exact (Access.commute ha hb hkl hab hba).map g g'

section Turns

variable {ι : Type}

def effects : List (ι × Request) → Content → List (ι × Except StorageError Reply) × Content
  | [], c => ([], c)
  | x :: xs, c =>
      let o := x.2.effect.settle c
      let os := effects xs o.2
      ((x.1, o.1) :: os.1, os.2)

variable [DecidableEq ι] {x y : ι × Request} {l l' front : List (ι × Request)}

def Alike (o o' : List (ι × Except StorageError Reply) × Content) : Prop :=
  SameTurns o.1 o'.1 ∧ o.2 = o'.2

theorem effects_swap (hne : x.1 ≠ y.1) (h : x.2.effect.Commute y.2.effect)
    (l : List (ι × Request)) (c : Content) :
    Alike (effects (x :: y :: l) c) (effects (y :: x :: l) c) := by
  simp only [Alike, effects, h.first c, h.second c, h.left c, and_true]
  exact .swap hne _ _ _

theorem effects_front (hne : ∀ y ∈ front, y.1 ≠ x.1)
    (h : ∀ y ∈ front, x.2.effect.Commute y.2.effect) (back : List (ι × Request)) :
    ∀ c, Alike (effects (x :: (front ++ back)) c) (effects (front ++ x :: back) c) := by
  induction front with
  | nil => exact fun c => ⟨.refl _, rfl⟩
  | cons y front ih =>
      intro c
      obtain ⟨hy, hne⟩ := List.forall_mem_cons.1 hne
      obtain ⟨hcomm, h⟩ := List.forall_mem_cons.1 h
      obtain ⟨hturns, hleft⟩ := effects_swap (Ne.symm hy) hcomm (front ++ back) c
      obtain ⟨hturns', hleft'⟩ := ih hne h (y.2.effect.settle c).2
      exact ⟨hturns.trans (hturns'.cons _), hleft.trans hleft'⟩

def Apart (l : List (ι × Request)) : Prop :=
  ∀ x ∈ l, ∀ y ∈ l, x.1 ≠ y.1 → x.2.tables.Disjoint y.2.tables

theorem effects_order (hd : Apart l) (h : SameTurns l l') :
    ∀ c, Alike (effects l c) (effects l' c) := by
  -- on the one order: its first turn is brought to the front of the other
  induction l generalizing l' with
  | nil =>
      rw [h.eq_nil]
      exact fun c => ⟨.refl _, rfl⟩
  | cons x l ih =>
      intro c
      obtain ⟨front, back, rfl, hne, hrest⟩ := h.split
      have hcomm : ∀ y ∈ front, x.2.effect.Commute y.2.effect := fun y hy =>
        x.2.confined.commute y.2.confined (hd x List.mem_cons_self y
          (h.subset (List.mem_append_left _ hy)) (hne y hy).symm)
      have hd' : Apart l := fun y hy z hz =>
        hd y (List.mem_cons_of_mem _ hy) z (List.mem_cons_of_mem _ hz)
      obtain ⟨hturns, hleft⟩ := ih hd' hrest (x.2.effect.settle c).2
      obtain ⟨hturns', hleft'⟩ := effects_front hne hcomm back c
      exact ⟨(hturns.cons _).trans hturns', hleft.trans hleft'⟩

end Turns

section Run

variable {ι ε : Type} [Engine ε]

def turns : List (ι × Request) → Environment ε →
    List (ι × Except StorageError Reply) × Environment ε
  | [], env => ([], env)
  | x :: xs, env =>
      let o := x.2.run.run env
      let os := turns xs o.2
      ((x.1, o.1) :: os.1, os.2)

theorem effects_turns [IsolatedEngine ε] (l : List (ι × Request)) : ∀ {env : Environment ε},
    Sound env.engine → (∀ o ∈ (turns l env).1, ¬ Faults ε o.2) →
    effects l (Engine.committed env.engine) =
      ((turns l env).1, Engine.committed (turns l env).2.engine) := by
  induction l with
  | nil => exact fun _ _ => rfl
  | cons x l ih =>
      intro env hs hfree
      obtain ⟨hx, hfree⟩ := List.forall_mem_cons.1 hfree
      rw [effects, x.2.settle_run hs hx]
      simp only [ih (x.2.sound_run hs) hfree]
      rfl

end Run

structure Swaps {ε : Type} [Engine ε] (r s : Request) (env : Environment ε) : Prop where
  first : (r.run.run env).1 = (r.run.run (s.run.run env).2).1
  second : (s.run.run (r.run.run env).2).1 = (s.run.run env).1
  left : Engine.committed (s.run.run (r.run.run env).2).2.engine =
    Engine.committed (r.run.run (s.run.run env).2).2.engine

theorem swaps {ε : Type} [Engine ε] [IsolatedEngine ε] {env : Environment ε}
    (h : r.Independent s) (hs : Sound env.engine) (hr : ¬ Faults ε (r.run.run env).1)
    (hrs : ¬ Faults ε (s.run.run (r.run.run env).2).1) (hs' : ¬ Faults ε (s.run.run env).1)
    (hsr : ¬ Faults ε (r.run.run (s.run.run env).2).1) : r.Swaps s env := by
  have hcomm := h.commute
  have hfirst := hcomm.first (Engine.committed env.engine)
  have hsecond := hcomm.second (Engine.committed env.engine)
  have hleft := hcomm.left (Engine.committed env.engine)
  rw [r.settle_run hs hr, s.settle_run hs hs'] at hfirst hsecond hleft
  rw [r.settle_run (s.sound_run hs) hsr] at hfirst hleft
  rw [s.settle_run (r.sound_run hs) hrs] at hsecond hleft
  exact ⟨hfirst, hsecond, hleft⟩

structure Commuting (ε : Type) [Engine ε] [ScopeViews ε] : Prop where
  swap : ∀ {r s : Request}, r.Independent s → ∀ {env : Environment ε}, Sound env.engine →
    ¬ Faults ε (r.run.run env).1 → ¬ Faults ε (s.run.run (r.run.run env).2).1 →
    ¬ Faults ε (s.run.run env).1 → ¬ Faults ε (r.run.run (s.run.run env).2).1 → r.Swaps s env
  order : ∀ {ι : Type} [DecidableEq ι] {l l' : List (ι × Request)}, Apart l → SameTurns l l' →
    ∀ {env : Environment ε}, Sound env.engine → (∀ o ∈ (turns l env).1, ¬ Faults ε o.2) →
    (∀ o ∈ (turns l' env).1, ¬ Faults ε o.2) →
    SameTurns (turns l env).1 (turns l' env).1 ∧
      Engine.committed (turns l env).2.engine = Engine.committed (turns l' env).2.engine

theorem commuting (ε : Type) [Engine ε] [IsolatedEngine ε] : Commuting ε where
  swap h _ hs hr hrs hs' hsr := swaps h hs hr hrs hs' hsr
  order {ι _ l l'} hd h env hs hfree hfree' := by
    have halike := effects_order hd h (Engine.committed env.engine)
    rw [effects_turns l hs hfree, effects_turns l' hs hfree'] at halike
    exact halike

end Request

theorem requests_commute {δ : Type} [Database δ] [LawfulDatabase δ] :
    Request.Commuting Volatile ∧ Request.Commuting (DatabaseEngine δ) :=
  ⟨Request.commuting _, Request.commuting _⟩

end TrafficStore
