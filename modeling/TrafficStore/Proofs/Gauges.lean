import TrafficStore.Proofs.LastWrite

namespace TrafficStore

open ScopeViews

inductive Counter where
  | int
  | word
  deriving DecidableEq, Repr

namespace Counter

abbrev kind : Counter → CellKind
  | int => .int
  | word => .word

abbrev Carrier (c : Counter) : Type := c.kind.Carrier

abbrev format (c : Counter) : Format c.Carrier := c.kind.format

def zero : (c : Counter) → c.Carrier
  | int => (0 : Int32)
  | word => (0 : UInt64)

def add : (c : Counter) → c.Carrier → c.Carrier → c.Carrier
  | int => addInt
  | word => addWord

def reply : (c : Counter) → c.Carrier → Reply
  | int => .int
  | word => .word

def getter : Counter → Key → Access
  | int => .intOrZero
  | word => .wordOrZero

theorem decode_encode : ∀ (c : Counter) (n : c.Carrier),
    c.format.decode (c.format.encode n) = .ok n
  | int, n => Format.decode_int_encode n
  | word, n => Format.decode_word_encode n

theorem encode_of_decode : ∀ (c : Counter) {bs : Bytes} {n : c.Carrier},
    c.format.decode bs = .ok n → c.format.encode n = bs
  | int, _, _, h => Format.int_encode_of_decode h
  | word, _, _, h => Format.word_encode_of_decode h

end Counter

namespace TableId

variable {α : Type} {t : TableId} {f : Format α} {k : Key} {c c' : Content} {v : Option α}

theorem record?_of_lookUp {number : Counter} {v : Option number.Carrier}
    (h : t.lookUp number.format k c = .ok v) :
    c.record? t.name k.bytes = v.map number.format.encode := by
  obtain ⟨table, hc, hv⟩ := lookUp_eq_ok h
  rw [Content.record?, hc, Option.bind_some]
  rw [Rewrite.field] at hv
  cases hraw : table.find? k.bytes with
  | none => rw [hraw] at hv; cases hv; rfl
  | some bs =>
      rw [hraw, Format.read] at hv
      cases hd : number.format.decode bs with
      | error x => rw [hd] at hv; cases hv
      | ok n =>
          rw [hd] at hv
          cases hv
          exact congrArg some (number.encode_of_decode hd).symm

end TableId

theorem Counter.field_insert (c : Counter) (k : Key) (n : c.Carrier) (table : Table) :
    Rewrite.field c.format k (table.insert k.bytes (c.format.encode n)) = .ok (some n) := by
  rw [Rewrite.field, SortedMap.find?_insert, if_pos rfl, Format.read, c.decode_encode]
  rfl

theorem Counter.getter_run {ε : Type} [Engine ε] [IsolatedEngine ε] (c : Counter) {t : TableId}
    {k : Key} {v : Option c.Carrier} {env : Environment ε} (hs : Sound env.engine)
    (hv : t.lookUp c.format k (Engine.committed env.engine) = .ok v) :
    Faults ε (((c.getter k).run t).run env).1 ∨
      (((c.getter k).run t).run env).1 = .ok (c.reply (v.getD c.zero)) := by
  obtain ⟨table, htable, hfield⟩ := TableId.lookUp_eq_ok hv
  refine (Access.answer_run (c.getter k) hs htable).imp_right (fun h => h.trans ?_)
  cases c with
  | int =>
      rw [Access.answer_rewrite (v := ⟨k, .int, fun n => .int (n.getD 0)⟩) rfl]
      exact congrArg (Except.map _) hfield
  | word =>
      rw [Access.answer_rewrite (v := ⟨k, .word, fun n => .word (n.getD 0)⟩) rfl]
      exact congrArg (Except.map _) hfield

inductive Gauge where
  | sum (c : Counter)
  | peak
  deriving DecidableEq, Repr

namespace Gauge

abbrev number : Gauge → Counter
  | sum c => c
  | peak => .word

abbrev Carrier (g : Gauge) : Type := g.number.Carrier

abbrev format (g : Gauge) : Format g.Carrier := g.number.format

def brought? : (g : Gauge) → Access → Option (Key × g.Carrier)
  | sum .int, .addInt k d => some (k, d)
  | sum .word, .addWord k d => some (k, d)
  | peak, .raise k d => some (k, d)
  | _, _ => none

def gather : (g : Gauge) → Option g.Carrier → g.Carrier → Option g.Carrier
  | sum c, v, d => some (c.add (v.getD c.zero) d)
  | peak, v, d => if v.getD (0 : UInt64) < d then some d else v

def answer : (g : Gauge) → Option g.Carrier → g.Carrier → Reply
  | sum c, v, d => c.reply (c.add (v.getD c.zero) d)
  | peak, v, d => .flag (v.getD (0 : UInt64) < d)

variable {g : Gauge} {a : Access} {k k' : Key} {d : g.Carrier} {v : Option g.Carrier}

theorem key?_of_brought (h : g.brought? a = some (k, d)) : a.key? = some k := by
  unfold brought? at h
  split at h <;> cases h <;> rfl

theorem rewrite_brought (t : TableId) {table : Table} (h : g.brought? a = some (k, d))
    (hv : Rewrite.field g.format k table = .ok v) :
    ∃ table', a.rewrite t table = .ok (g.answer v d, table') ∧
      Rewrite.field g.format k table' = .ok (g.gather v d) := by
  unfold brought? at h
  split at h
  · cases h
    refine ⟨_, ?_, Counter.int.field_insert k _ table⟩
    rw [Access.rewrite, Rewrite.map, Rewrite.accumulate_of_field (f := .int) hv]
    rfl
  · cases h
    refine ⟨_, ?_, Counter.word.field_insert k _ table⟩
    rw [Access.rewrite, Rewrite.map, Rewrite.accumulate_of_field (f := .word) hv]
    rfl
  · next candidate =>
      cases h
      rw [Access.rewrite, Rewrite.map, Rewrite.raise_of_field hv, answer, gather]
      by_cases hlt : v.getD (0 : UInt64) < candidate
      · rw [if_pos hlt, if_pos hlt, decide_eq_true hlt]
        exact ⟨_, rfl, Counter.word.field_insert k _ table⟩
      · rw [if_neg hlt, if_neg hlt, decide_eq_false hlt]
        exact ⟨_, rfl, hv⟩
  · cases h

def broughtTo? (g : Gauge) (t : TableId) (k : Key) (u : TableId) (a : Access) :
    Option g.Carrier :=
  (g.brought? a).bind (fun p => if u = t ∧ p.1.bytes = k.bytes then some p.2 else none)

theorem broughtTo?_eq_some {t u : TableId} :
    g.broughtTo? t k u a = some d ↔
      ∃ k', g.brought? a = some (k', d) ∧ u = t ∧ k'.bytes = k.bytes := by
  rw [broughtTo?, Option.bind_eq_some_iff]
  constructor
  · rintro ⟨⟨k', d'⟩, hb, h⟩
    split at h
    · next hplace => cases h; exact ⟨k', hb, hplace⟩
    · cases h
  · rintro ⟨k', hb, hplace⟩
    exact ⟨(k', d), hb, if_pos hplace⟩

def gathered? (g : Gauge) (t : TableId) (k : Key) (h : Accessed) : Option (g.Carrier × Reply) :=
  match h.answer with
  | .ok r => (g.broughtTo? t k h.table h.access).map (fun d => (d, r))
  | .error _ => none

def gathered (g : Gauge) (t : TableId) (k : Key) (hs : List Accessed) :
    List (g.Carrier × Reply) :=
  hs.filterMap (g.gathered? t k)

def amounts (g : Gauge) (t : TableId) (k : Key) (hs : List Accessed) : List g.Carrier :=
  (g.gathered t k hs).map Prod.fst

def Keeps (g : Gauge) (t : TableId) (k : Key) (as : List (TableId × Access)) : Prop :=
  ∀ a ∈ as, ∀ k', a.1 = t → a.2.key? = some k' → k'.bytes = k.bytes →
    (g.brought? a.2).isSome

variable {ε : Type} [Engine ε] [IsolatedEngine ε] {env : Environment ε} {t : TableId}

theorem lookUp_elsewhere {u : TableId} (hs : Sound env.engine)
    (h : ∀ k', u = t → a.key? = some k' → k'.bytes ≠ k.bytes) :
    t.lookUp g.format k (Engine.committed ((a.run u).run env).2.engine) =
      t.lookUp g.format k (Engine.committed env.engine) := by
  refine TableId.lookUp_framed ((Leaves.access u a).framed env hs) (fun u' k' hplace => ?_)
  rintro ⟨hname, hbytes⟩
  obtain ⟨key, hkey, he⟩ := Option.map_eq_some_iff.1 hplace
  cases he
  exact h k' (TableId.name_injective hname).symm hkey hbytes.symm

theorem gather_run (hs : Sound env.engine)
    (hv : t.lookUp g.format k (Engine.committed env.engine) = .ok v)
    (ha : g.brought? a = some (k', d)) (hk : k'.bytes = k.bytes) :
    Faults ε ((a.run t).run env).1 ∧
        t.lookUp g.format k (Engine.committed ((a.run t).run env).2.engine) = .ok v ∨
      ((a.run t).run env).1 = .ok (g.answer v d) ∧
        t.lookUp g.format k (Engine.committed ((a.run t).run env).2.engine) =
          .ok (g.gather v d) := by
  obtain ⟨r, env', hrun, -, -, hr⟩ := a.serves t env hs
  rw [hrun]
  rcases hr with ⟨hfaults, hc⟩ | hr
  · exact .inl ⟨hfaults, by rw [hc, hv]⟩
  · obtain ⟨table, htable, hfield⟩ := TableId.lookUp_eq_ok hv
    have hfield' : Rewrite.field g.format k' table = .ok v := by
      rw [Rewrite.field, hk]
      exact hfield
    obtain ⟨table', hw, hafter⟩ := rewrite_brought t ha hfield'
    rw [Change.settle_ok (by rw [TableId.onRecords_some htable, hw]; rfl)] at hr
    obtain ⟨hreply, hc⟩ := Prod.mk.inj hr
    have htable' : (Engine.committed env'.engine).find? t.name = some table' := by
      rw [← hc, SortedMap.find?_insert, if_pos rfl]
    refine .inr ⟨hreply.symm, ?_⟩
    rw [TableId.lookUp_some htable', Rewrite.field, ← hk]
    exact hafter

structure Gathers (g : Gauge) (t : TableId) (k : Key) (v : Option g.Carrier)
    (hs : List Accessed) (env : Environment ε) : Prop where
  sound : Sound env.engine
  stands : t.lookUp g.format k (Engine.committed env.engine) =
    .ok ((g.amounts t k hs).foldl g.gather v)
  answers : ∀ {i d r}, (g.gathered t k hs)[i]? = some (d, r) →
    r = g.answer (((g.amounts t k hs).take i).foldl g.gather v) d
  refused : ∀ h ∈ hs, (g.broughtTo? t k h.table h.access).isSome → ∀ x, h.answer = .error x →
    ScopeViews.Fault ε x

namespace Gathers

variable {h : Accessed} {hs : List Accessed}

theorem skip (hrest : Gathers g t k v hs env) (hnone : g.gathered? t k h = none)
    (hrefused : (g.broughtTo? t k h.table h.access).isSome → ∀ x, h.answer = .error x →
      ScopeViews.Fault ε x) : Gathers g t k v (h :: hs) env := by
  have hsame : g.gathered t k (h :: hs) = g.gathered t k hs := List.filterMap_cons_none hnone
  refine ⟨hrest.sound, ?_, ?_, List.forall_mem_cons.2 ⟨hrefused, hrest.refused⟩⟩
  · rw [amounts, hsame]
    exact hrest.stands
  · rw [amounts, hsame]
    exact hrest.answers

theorem next (hrest : Gathers g t k (g.gather v d) hs env)
    (hsome : g.gathered? t k h = some (d, g.answer v d)) : Gathers g t k v (h :: hs) env := by
  have hnext : g.gathered t k (h :: hs) = (d, g.answer v d) :: g.gathered t k hs :=
    List.filterMap_cons_some hsome
  refine ⟨hrest.sound, ?_, ?_, List.forall_mem_cons.2 ⟨fun _ x hx => ?_, hrest.refused⟩⟩
  · rw [amounts, hnext]
    exact hrest.stands
  · intro i d' r hi
    rw [hnext] at hi
    rw [amounts, hnext]
    cases i with
    | zero => cases hi; rfl
    | succ i => exact hrest.answers hi
  · rw [gathered?, hx] at hsome
    cases hsome

end Gathers

theorem gathers_runs (as : List (TableId × Access)) :
    ∀ {env : Environment ε} {v : Option g.Carrier}, Sound env.engine →
      t.lookUp g.format k (Engine.committed env.engine) = .ok v → g.Keeps t k as →
      Gathers g t k v (Access.runs as env).1 (Access.runs as env).2 := by
  induction as with
  | nil =>
      intro env v hs hv _
      exact ⟨hs, hv, fun h => (nomatch h), fun h hh => (nomatch hh)⟩
  | cons a as ih =>
      intro env v hs hv hkeeps
      obtain ⟨u, a⟩ := a
      have hs' := (Leaves.access u a).sound env hs
      have hkeeps' : g.Keeps t k as := fun b hb => hkeeps b (List.mem_cons_of_mem _ hb)
      cases hb : g.broughtTo? t k u a with
      | none =>
          have hplace : ∀ k', u = t → a.key? = some k' → k'.bytes ≠ k.bytes := by
            intro k' hu hkey hbytes
            obtain ⟨⟨k₁, d⟩, hsome⟩ :=
              Option.isSome_iff_exists.1 (hkeeps (u, a) List.mem_cons_self k' hu hkey hbytes)
            have hk₁ : k₁ = k' := Option.some.inj ((key?_of_brought hsome).symm.trans hkey)
            rw [broughtTo?_eq_some.2 ⟨k₁, hsome, hu, by rw [hk₁, hbytes]⟩] at hb
            cases hb
          refine (ih hs' ((lookUp_elsewhere hs hplace).trans hv) hkeeps').skip ?_ (fun hsome => ?_)
          · rw [gathered?, hb]
            cases ((a.run u).run env).1 <;> rfl
          · rw [hb] at hsome
            cases hsome
      | some d =>
          obtain ⟨k', hbrought, rfl, hk⟩ := broughtTo?_eq_some.1 hb
          rcases gather_run hs hv hbrought hk with ⟨⟨x, hx, hfault⟩, hv'⟩ | ⟨hok, hv'⟩
          · refine (ih hs' hv' hkeeps').skip (by rw [gathered?, hx]) (fun _ y hy => ?_)
            cases hx.symm.trans hy
            exact hfault
          · exact (ih hs' hv' hkeeps').next (by rw [gathered?, hok, hb]; rfl)

end Gauge

end TrafficStore
