import TrafficStore.Proofs.Books
import TrafficStore.Proofs.Effects

namespace TrafficStore

open ScopeViews

namespace Books

variable {α : Type}

def Represents (b : Books) (c : Content) : Prop :=
  ∀ t : TableId, Holds t.keyKind t.cellKind (b t) ((c.find? t.name).getD .empty)

def Ready (cat : Catalog) (c : Content) : Prop := ∀ t ∈ cat.tables, c.contains t.name = true

theorem represents_empty : Represents empty .empty := fun _ => .empty _ _

variable {b : Books} {c : Content} {cat : Catalog} {t : TableId}

theorem Represents.set (h : Represents b c) {m : SortedMap t.Index t.Cell} {table : Table}
    (hm : Holds t.keyKind t.cellKind m table) :
    Represents (b.set t m) (c.insert t.name table) := by
  intro u
  rw [SortedMap.find?_insert]
  by_cases hu : u = t
  · subst hu
    rw [if_pos rfl, b.set_self]
    exact hm
  · rw [if_neg (fun he => hu (TableId.name_injective he)), b.set_other m hu]
    exact h u

theorem Ready.insert (h : Ready cat c) (name : String) (table : Table) :
    Ready cat (c.insert name table) := by
  intro u hu
  rw [SortedMap.contains_insert, h u hu, Bool.or_true]

theorem Represents.holds (h : Represents b c) (hcat : Ready cat c) (ht : t ∈ cat.tables) :
    ∃ table, c.find? t.name = some table ∧ Holds t.keyKind t.cellKind (b t) table := by
  obtain ⟨table, hc⟩ := SortedMap.contains_iff.1 (hcat t ht)
  have hm := h t
  rw [hc] at hm
  exact ⟨table, hc, hm⟩

theorem Represents.lookUp (h : Represents b c) (hcat : Ready cat c) (ht : t ∈ cat.tables)
    (a : t.Index) : t.lookUp t.cellKind.format (t.keyKind.key a) c = .ok ((b t).find? a) := by
  obtain ⟨table, hc, hm⟩ := h.holds hcat ht
  rw [TableId.lookUp, hc]
  exact hm.field a

def Moves (cat : Catalog) (f : Change α) (g : Books → Except StorageError (α × Books)) : Prop :=
  ∀ b c, Represents b c → Ready cat c → match f c with
    | .ok (a, c') => ∃ b', g b = .ok (a, b') ∧ Represents b' c' ∧ Ready cat c'
    | .error x => g b = .error x

def Keeps {ε : Type} [Engine ε] [ScopeViews ε] (cat : Catalog) (op : StoreM ε α)
    (g : Books → Except StorageError (α × Books)) : Prop :=
  ∀ b env, Sound env.engine → Represents b (Engine.committed env.engine) →
    Ready cat (Engine.committed env.engine) →
    ∃ r env', op.run env = (r, env') ∧ Sound env'.engine ∧
      Ready cat (Engine.committed env'.engine) ∧
      ((∃ x, r = .error x ∧ (ScopeViews.Fault ε x ∨ g b = .error x) ∧
          Represents b (Engine.committed env'.engine)) ∨
        ∃ a b', r = .ok a ∧ g b = .ok (a, b') ∧ Represents b' (Engine.committed env'.engine))

theorem Moves.keeps {ε : Type} [Engine ε] [ScopeViews ε] {op : StoreM ε α} {f : Change α}
    {g : Books → Except StorageError (α × Books)} (hg : Moves cat f g) (h : Serves op f) :
    Keeps cat op g := by
  intro b env hs hb hcat
  obtain ⟨r, env', hrun, hs', _, hr⟩ := h env hs
  refine ⟨r, env', hrun, hs', ?_⟩
  have hg := hg b _ hb hcat
  rcases hr with ⟨⟨x, rfl, hx⟩, hc⟩ | hr
  · rw [hc]
    exact ⟨hcat, .inl ⟨x, rfl, .inl hx, hb⟩⟩
  · cases hf : f (Engine.committed env.engine) with
    | error x =>
        rw [hf] at hg
        rw [Change.settle_error hf] at hr
        obtain ⟨rfl, hc⟩ := Prod.mk.inj hr
        rw [← hc]
        exact ⟨hcat, .inl ⟨x, rfl, .inr hg, hb⟩⟩
    | ok p =>
        rw [hf] at hg
        obtain ⟨b', hb', hrep, hcat'⟩ := hg
        rw [Change.settle_ok hf] at hr
        obtain ⟨rfl, hc⟩ := Prod.mk.inj hr
        rw [← hc]
        exact ⟨hcat', .inr ⟨p.1, b', rfl, hb', hrep⟩⟩

theorem onRecords_tracked {w : Rewrite α} {turn : Turn t.Index t.Cell α}
    (htracks : Tracks t.keyKind t.cellKind w turn) (hb : Represents b c) (hcat : Ready cat c)
    (ht : t ∈ cat.tables) : match turn (b t) with
      | .ok (a, m) => ∃ table, t.onRecords w c = .ok (a, c.insert t.name table) ∧
          Represents (b.set t m) (c.insert t.name table)
      | .error x => t.onRecords w c = .error x := by
  obtain ⟨table, hc, hm⟩ := hb.holds hcat ht
  have htracks := htracks (b t) table hm
  rw [TableId.onRecords_some hc]
  cases hturn : turn (b t) with
  | error x =>
      rw [hturn] at htracks
      rw [htracks]
      rfl
  | ok p =>
      rw [hturn] at htracks
      obtain ⟨table', hw, hm'⟩ := htracks
      rw [hw]
      exact ⟨table', rfl, hb.set hm'⟩

theorem moves_onRecords {w : Rewrite α} {turn : Turn t.Index t.Cell α}
    (htracks : Tracks t.keyKind t.cellKind w turn) (missing : α) :
    Moves cat (cat.onRecords t missing w) (Books.turn cat t missing turn) := by
  intro b c hb hcat
  by_cases ht : t ∈ cat.tables
  · have htracked := onRecords_tracked htracks hb hcat ht
    rw [Catalog.onRecords_mem ht, Books.turn, if_pos ht, Books.turnOf]
    cases hturn : turn (b t) with
    | error x =>
        rw [hturn] at htracked
        rw [htracked]
        rfl
    | ok p =>
        rw [hturn] at htracked
        obtain ⟨table, hw, hb'⟩ := htracked
        rw [hw]
        exact ⟨b.set t p.2, rfl, hb', hcat.insert t.name table⟩
  · rw [Catalog.onRecords_not_mem ht]
    exact ⟨b, if_neg ht, hb, hcat⟩

theorem moves_rootLabel (cat : Catalog) (p : Panel) (id : Int32) :
    Moves cat ((cat.rootLabelEffect p id).map Reply.maybeText)
      (fun b => .ok (.maybeText (if p ∈ cat.panels then b.rootLabel p id else none), b)) := by
  intro b c hb hcat
  rw [Change.map, Catalog.rootLabelEffect]
  by_cases hp : p ∈ cat.panels
  · have hroot : (TableId.panel p .root).lookUp .int (.id id) c = .ok ((b.roots p).find? id) :=
      hb.lookUp (t := .panel p .root) hcat (Catalog.panel_mem_tables.2 hp) id
    have hlabel : ∀ r, (TableId.panel p .rootMap).lookUp .text (.id r) c =
        .ok ((b.rootLabels p).find? r) := fun r =>
      hb.lookUp (t := .panel p .rootMap) hcat (Catalog.panel_mem_tables.2 hp) r
    have hof : Catalog.rootLabelOf (.panel p .root) (.panel p .rootMap) id c =
        .ok (b.rootLabel p id) := by
      rw [Catalog.rootLabelOf, hroot, rootLabel]
      cases (b.roots p).find? id with
      | none => rfl
      | some r =>
          change (if r = 0 then _ else _) = Except.ok (if r = 0 then none else _)
          by_cases h0 : r = 0
          · rw [if_pos h0, if_pos h0]
            rfl
          · rw [if_neg h0, if_neg h0]
            exact hlabel r
    rw [if_pos hp, hof]
    exact ⟨b, by simp only [if_pos hp], hb, hcat⟩
  · rw [if_neg hp]
    exact ⟨b, by simp only [if_neg hp], hb, hcat⟩

theorem moves_effect (cat : Catalog) (q : Call) :
    Moves cat (q.effect cat) (fun b => b.answer cat q) := by
  cases hq : q.access? with
  | none =>
      rcases Call.cases_of_access_none hq with ⟨p, id, rfl⟩ | ⟨force, rfl⟩
      · exact moves_rootLabel cat p id
      · exact fun b c hb hcat => ⟨b, rfl, hb, hcat⟩
  | some ta =>
      obtain ⟨w, hw⟩ := turn?_of_access hq
      rw [Call.effect_eq hq, show (fun b => answer cat b q) = _ from
        funext (fun b => answer_of_access hq hw)]
      exact moves_onRecords ((Access.tracks_turn? hw).map q.answered) q.notFound

theorem keeps_run {ε : Type} [Engine ε] [IsolatedEngine ε] (cat : Catalog) (q : Call) :
    Keeps cat (q.run cat : StoreM ε Reply) (fun b => b.answer cat q) :=
  (moves_effect cat q).keeps (q.serves cat)

theorem answer_dump {p : Panel} (hp : p ∈ cat.panels) :
    b.answer cat (.dump p) = .ok (.maybeDump (some (b.dumped p)), b) := by
  cases p with
  | visitors =>
      rw [answer_map (t := .panel .visitors .dataMap) (Turn.dump .visitors .text earlierFirst)
        Reply.dump rfl rfl, turn, if_pos (Catalog.panel_mem_tables.2 hp)]
      exact congrArg (fun b' => Except.ok (_, b')) (b.set_eq_self _)
  | _ =>
      rw [answer_map (t := .panel _ .hits) (Turn.dump _ .integer largerFirst) Reply.dump rfl rfl,
        turn, if_pos (Catalog.panel_mem_tables.2 hp)]
      exact congrArg (fun b' => Except.ok (_, b')) (b.set_eq_self _)

section Run

variable {ε : Type} [Engine ε] [IsolatedEngine ε] {q : Call} {env env' : Environment ε}

theorem run_error {x : StorageError} (hs : Sound env.engine)
    (hcat : Ready cat (Engine.committed env.engine))
    (hb : Represents b (Engine.committed env.engine))
    (hrun : (q.run cat).run env = (.error x, env')) :
    Sound env'.engine ∧ Ready cat (Engine.committed env'.engine) ∧
      Represents b (Engine.committed env'.engine) := by
  obtain ⟨_, _, hrun', hs', hcat', hr⟩ := keeps_run cat q b env hs hb hcat
  obtain ⟨rfl, rfl⟩ := Prod.mk.inj (hrun.symm.trans hrun')
  rcases hr with ⟨_, _, _, hb'⟩ | ⟨_, _, hr, _⟩
  · exact ⟨hs', hcat', hb'⟩
  · cases hr

theorem run_ok {a : Reply} (hs : Sound env.engine)
    (hcat : Ready cat (Engine.committed env.engine))
    (hb : Represents b (Engine.committed env.engine))
    (hrun : (q.run cat).run env = (.ok a, env')) :
    Sound env'.engine ∧ Ready cat (Engine.committed env'.engine) ∧
      ∃ b', b.answer cat q = .ok (a, b') ∧ Represents b' (Engine.committed env'.engine) := by
  obtain ⟨_, _, hrun', hs', hcat', hr⟩ := keeps_run cat q b env hs hb hcat
  obtain ⟨rfl, rfl⟩ := Prod.mk.inj (hrun.symm.trans hrun')
  rcases hr with ⟨_, hr, _⟩ | ⟨_, b', hr, ha, hb'⟩
  · cases hr
  · cases hr
    exact ⟨hs', hcat', b', ha, hb'⟩

end Run

end Books

end TrafficStore
