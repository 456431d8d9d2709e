import Mathlib.Algebra.BigOperators.Group.List.Basic
import Mathlib.Algebra.Order.BigOperators.Group.List
import Mathlib.Algebra.Order.Ring.Int
import Mathlib.Data.List.Infix
import TrafficStore.Proofs.Gauges

namespace TrafficStore

open ScopeViews

namespace Counter

def value : (c : Counter) → c.Carrier → Int
  | int => Int32.toInt
  | word => fun n => (n.toNat : Int)

def low : Counter → Int
  | int => intMin
  | word => 0

def high : Counter → Int
  | int => intMax
  | word => wordMax

def clamp : (c : Counter) → Int → c.Carrier
  | int => clampInt
  | word => fun n => clampWord n.toNat

variable (c : Counter)

theorem low_le_zero : c.low ≤ 0 := by cases c <;> decide

theorem zero_le_high : 0 ≤ c.high := by cases c <;> decide

theorem value_injective {m n : c.Carrier} (h : c.value m = c.value n) : m = n := by
  cases c with
  | int => exact Int32.toInt_inj.1 h
  | word => exact UInt64.toNat_inj.1 (Int.ofNat_inj.1 h)

theorem value_clamp (n : Int) : c.value (c.clamp n) = max c.low (min n c.high) := by
  cases c with
  | int => exact toInt_clampInt n
  | word =>
      change ((clampWord n.toNat).toNat : Int) = max 0 (min n wordMax)
      rw [toNat_clampWord]
      omega

theorem value_within (n : c.Carrier) : c.low ≤ c.value n ∧ c.value n ≤ c.high := by
  cases c with
  | int => exact ⟨Int32.le_toInt n, Int.lt_add_one_iff.1 (Int32.toInt_lt n)⟩
  | word =>
      have hlt : n.toNat < 2 ^ 64 := n.toNat_lt
      change 0 ≤ (n.toNat : Int) ∧ (n.toNat : Int) ≤ (wordMax : Int)
      have hmax : wordMax = 2 ^ 64 - 1 := rfl
      omega

theorem clamp_value (n : c.Carrier) : c.clamp (c.value n) = n := by
  obtain ⟨hlow, hhigh⟩ := c.value_within n
  apply c.value_injective
  rw [value_clamp]
  omega

theorem add_eq (m n : c.Carrier) : c.add m n = c.clamp (c.value m + c.value n) := by
  cases c with
  | int => rfl
  | word =>
      change clampWord (m.toNat + n.toNat) = clampWord ((m.toNat : Int) + n.toNat).toNat
      rw [← Int.natCast_add, Int.toNat_natCast]

variable {c}

def Absorbs (c : Counter) (n : Int) (d : c.Carrier) : Prop :=
  (c.low ≤ n ∧ 0 ≤ c.value d) ∨ (n ≤ c.high ∧ c.value d ≤ 0) ∨ (c.low ≤ n ∧ n ≤ c.high)

theorem add_clamp {n : Int} {d : c.Carrier} (h : c.Absorbs n d) :
    c.add (c.clamp n) d = c.clamp (n + c.value d) := by
  have hlow := c.low_le_zero
  have hhigh := c.zero_le_high
  apply c.value_injective
  rw [add_eq, value_clamp, value_clamp, value_clamp]
  rcases h with h | h | h <;> omega

def total (c : Counter) (ds : List c.Carrier) : Int := (ds.map c.value).sum

theorem total_append (ds es : List c.Carrier) : c.total (ds ++ es) = c.total ds + c.total es := by
  rw [total, total, total, List.map_append, List.sum_append]

theorem total_perm {ds es : List c.Carrier} (h : ds.Perm es) : c.total ds = c.total es :=
  (h.map c.value).sum_eq

theorem total_replicate (m : Nat) (d : c.Carrier) :
    c.total (List.replicate m d) = m * c.value d := by
  rw [total, List.map_replicate, List.sum_replicate, Int.nsmul_eq_mul]

theorem total_nonneg {ds : List c.Carrier} (h : ∀ d ∈ ds, 0 ≤ c.value d) : 0 ≤ c.total ds :=
  List.sum_nonneg (List.forall_mem_map.2 h)

theorem total_nonpos {ds : List c.Carrier} (h : ∀ d ∈ ds, c.value d ≤ 0) : c.total ds ≤ 0 := by
  have hsum := List.sum_le_card_nsmul (ds.map c.value) 0 (List.forall_mem_map.2 h)
  rwa [nsmul_zero] at hsum

theorem foldl_clamp {n : Int} {ds : List c.Carrier}
    (h : ∀ p d, p ++ [d] <+: ds → c.Absorbs (n + c.total p) d) :
    ds.foldl c.add (c.clamp n) = c.clamp (n + c.total ds) := by
  induction ds using List.reverseRecOn with
  | nil =>
      change c.clamp n = c.clamp (n + 0)
      rw [Int.add_zero]
  | append_singleton ds d ih =>
      have hsum : c.total [d] = c.value d := Int.add_zero _
      rw [List.foldl_append, ih (fun p e hp => h p e (hp.trans (List.prefix_append ds [d]))),
        List.foldl_cons, List.foldl_nil, add_clamp (h ds d (List.prefix_refl _)), total_append,
        hsum, Int.add_assoc]

def OneSigned (c : Counter) (ds : List c.Carrier) : Prop :=
  c = .word ∨ (∀ d ∈ ds, 0 ≤ c.value d) ∨ (∀ d ∈ ds, c.value d ≤ 0)

def InRange (c : Counter) (n : Int) (ds : List c.Carrier) : Prop :=
  ∀ p, p <+: ds → c.low ≤ n + c.total p ∧ n + c.total p ≤ c.high

def Steady (c : Counter) (n : Int) (ds : List c.Carrier) : Prop := c.OneSigned ds ∨ c.InRange n ds

theorem OneSigned.cases {ds : List c.Carrier} (h : c.OneSigned ds) :
    (∀ d ∈ ds, 0 ≤ c.value d) ∨ (∀ d ∈ ds, c.value d ≤ 0) := by
  rcases h with rfl | h
  · exact .inl (fun d _ => Int.natCast_nonneg _)
  · exact h

theorem oneSigned_replicate (m : Nat) (d : c.Carrier) : c.OneSigned (List.replicate m d) := by
  rcases Int.le_total 0 (c.value d) with hd | hd
  · exact .inr (.inl (fun e he => by rw [List.eq_of_mem_replicate he]; exact hd))
  · exact .inr (.inr (fun e he => by rw [List.eq_of_mem_replicate he]; exact hd))

theorem OneSigned.mono {ds es : List c.Carrier} (h : c.OneSigned ds) (hsub : es ⊆ ds) :
    c.OneSigned es :=
  h.imp_right (.imp (fun hall d hd => hall d (hsub hd)) (fun hall d hd => hall d (hsub hd)))

theorem Steady.take {n : Int} {ds : List c.Carrier} (h : c.Steady n ds) (i : Nat) :
    c.Steady n (ds.take i) :=
  h.imp (fun hs => hs.mono (List.take_subset i ds))
    (fun hr p hp => hr p (hp.trans (List.take_prefix i ds)))

theorem foldl_add {n : c.Carrier} {ds : List c.Carrier} (h : c.Steady (c.value n) ds) :
    ds.foldl c.add n = c.clamp (c.value n + c.total ds) := by
  obtain ⟨hlow, hhigh⟩ := c.value_within n
  have hclamp : ds.foldl c.add n = ds.foldl c.add (c.clamp (c.value n)) := by rw [clamp_value]
  rw [hclamp]
  refine foldl_clamp (fun p d hp => ?_)
  have hp' : p <+: ds := (List.prefix_append p [d]).trans hp
  have hd : d ∈ ds := hp.subset (List.mem_append_right p List.mem_cons_self)
  rcases h with hs | hr
  · rcases hs.cases with hall | hall
    · have hp₀ : 0 ≤ c.total p := total_nonneg (fun e he => hall e (hp'.subset he))
      exact .inl ⟨by omega, hall d hd⟩
    · have hp₀ : c.total p ≤ 0 := total_nonpos (fun e he => hall e (hp'.subset he))
      exact .inr (.inl ⟨by omega, hall d hd⟩)
  · exact .inr (.inr (hr p hp'))

example : [(1 : Int32), -1].foldl addInt 0x7FFFFFFF = 0x7FFFFFFE ∧
    [(-1 : Int32), 1].foldl addInt 0x7FFFFFFF = 0x7FFFFFFF := by decide

theorem foldl_gather_some (n : c.Carrier) (ds : List c.Carrier) :
    ds.foldl (Gauge.sum c).gather (some n) = some (ds.foldl c.add n) := by
  induction ds generalizing n with
  | nil => rfl
  | cons d ds ih => exact ih (c.add n d)

theorem foldl_gather {ds : List c.Carrier} (h : ds ≠ []) (v : Option c.Carrier) :
    ds.foldl (Gauge.sum c).gather v = some (ds.foldl c.add (v.getD c.zero)) := by
  cases ds with
  | nil => exact absurd rfl h
  | cons d ds => exact foldl_gather_some (c.add (v.getD c.zero) d) ds

theorem getD_foldl_gather (ds : List c.Carrier) (v : Option c.Carrier) :
    (ds.foldl (Gauge.sum c).gather v).getD c.zero = ds.foldl c.add (v.getD c.zero) := by
  cases ds with
  | nil => rfl
  | cons d ds => rw [foldl_gather (List.cons_ne_nil d ds), Option.getD_some]

def start (c : Counter) (v : Option c.Carrier) : Int := c.value (v.getD c.zero)

abbrev deltas (c : Counter) (t : TableId) (k : Key) (hs : List Accessed) : List c.Carrier :=
  (Gauge.sum c).amounts t k hs

end Counter

namespace Gauge.Gathers

open Counter

variable {c : Counter} {ε : Type} [Engine ε] [IsolatedEngine ε] {t : TableId} {k : Key}
  {v : Option c.Carrier} {hs : List Accessed} {env : Environment ε}

theorem sum_answer (h : (Gauge.sum c).Gathers t k v hs env) {i : Nat} {d : c.Carrier} {r : Reply}
    (hi : ((Gauge.sum c).gathered t k hs)[i]? = some (d, r)) :
    r = c.reply (((c.deltas t k hs).take (i + 1)).foldl c.add (v.getD c.zero)) := by
  have hd : (c.deltas t k hs)[i]? = some d := by
    rw [deltas, Gauge.amounts, List.getElem?_map, hi]
    rfl
  have htake : (c.deltas t k hs).take (i + 1) = (c.deltas t k hs).take i ++ [d] := by
    rw [List.take_add_one, hd]
    rfl
  rw [h.answers hi, Gauge.answer, getD_foldl_gather, htake, List.foldl_append]
  rfl

theorem sum_last (h : (Gauge.sum c).Gathers t k v hs env) {d : c.Carrier} {r : Reply}
    (hlast : ((Gauge.sum c).gathered t k hs).getLast? = some (d, r)) :
    r = c.reply ((c.deltas t k hs).foldl c.add (v.getD c.zero)) := by
  rw [List.getLast?_eq_getElem?] at hlast
  rw [h.sum_answer hlast, List.take_of_length_le]
  rw [deltas, Gauge.amounts, List.length_map]
  omega

theorem sum_record (h : (Gauge.sum c).Gathers t k v hs env) (hne : c.deltas t k hs ≠ []) :
    (Engine.committed env.engine).record? t.name k.bytes =
      some (c.format.encode ((c.deltas t k hs).foldl c.add (v.getD c.zero))) := by
  rw [TableId.record?_of_lookUp h.stands, foldl_gather hne]
  rfl

theorem sum_untouched (h : (Gauge.sum c).Gathers t k v hs env) (hnil : c.deltas t k hs = []) :
    (Engine.committed env.engine).record? t.name k.bytes = v.map c.format.encode := by
  have hstands := h.stands
  rw [show (Gauge.sum c).amounts t k hs = [] from hnil] at hstands
  exact TableId.record?_of_lookUp hstands

theorem sum_getter (h : (Gauge.sum c).Gathers t k v hs env) :
    Faults ε (((c.getter k).run t).run env).1 ∨ (((c.getter k).run t).run env).1 =
      .ok (c.reply ((c.deltas t k hs).foldl c.add (v.getD c.zero))) := by
  refine (c.getter_run h.sound h.stands).imp_right (fun hget => ?_)
  rw [hget, getD_foldl_gather]

end Gauge.Gathers

namespace Counter

variable {c : Counter} {ε : Type} [Engine ε] [IsolatedEngine ε] {t : TableId} {k : Key}
  {v : Option c.Carrier}

structure Accrues (c : Counter) (t : TableId) (k : Key) (v : Option c.Carrier)
    (hs : List Accessed) (env : Environment ε) : Prop where
  answers : c.Steady (c.start v) (c.deltas t k hs) →
    ∀ {i d r}, ((Gauge.sum c).gathered t k hs)[i]? = some (d, r) →
      r = c.reply (c.clamp (c.start v + c.total ((c.deltas t k hs).take (i + 1))))
  record : c.Steady (c.start v) (c.deltas t k hs) → c.deltas t k hs ≠ [] →
    (Engine.committed env.engine).record? t.name k.bytes =
      some (c.format.encode (c.clamp (c.start v + c.total (c.deltas t k hs))))
  whole : c.InRange (c.start v) (c.deltas t k hs) → c.deltas t k hs ≠ [] →
    ∃ n, (Engine.committed env.engine).record? t.name k.bytes = some (c.format.encode n) ∧
      c.value n = c.start v + c.total (c.deltas t k hs)
  repeated : ∀ {m d}, c.deltas t k hs = List.replicate (m + 1) d →
    (Engine.committed env.engine).record? t.name k.bytes =
      some (c.format.encode (c.clamp (c.start v + (m + 1 : Nat) * c.value d)))
  untouched : c.deltas t k hs = [] →
    (Engine.committed env.engine).record? t.name k.bytes = v.map c.format.encode
  present : ((Engine.committed env.engine).record? t.name k.bytes).isSome ↔
    v.isSome ∨ c.deltas t k hs ≠ []
  latest : ∀ {d r}, ((Gauge.sum c).gathered t k hs).getLast? = some (d, r) →
    Faults ε (((c.getter k).run t).run env).1 ∨ (((c.getter k).run t).run env).1 = .ok r
  reads : c.Steady (c.start v) (c.deltas t k hs) →
    Faults ε (((c.getter k).run t).run env).1 ∨ (((c.getter k).run t).run env).1 =
      .ok (c.reply (c.clamp (c.start v + c.total (c.deltas t k hs))))
  refused : ∀ h ∈ hs, ((Gauge.sum c).broughtTo? t k h.table h.access).isSome →
    ∀ x, h.answer = .error x → ScopeViews.Fault ε x

namespace Accrues

variable {hs hs' : List Accessed} {env env' : Environment ε}

theorem of_gathers (h : (Gauge.sum c).Gathers t k v hs env) : Accrues c t k v hs env where
  answers hsteady i d r hi := by
    rw [h.sum_answer hi, foldl_add (hsteady.take (i + 1))]
    rfl
  record hsteady hne := by
    rw [h.sum_record hne, foldl_add hsteady]
    rfl
  whole hr hne := by
    refine ⟨_, h.sum_record hne, ?_⟩
    have hall := hr _ (List.prefix_refl _)
    rw [foldl_add (.inr hr), value_clamp]
    change max c.low (min (c.start v + _) c.high) = _
    omega
  repeated {m d} hds := by
    rw [h.sum_record (by rw [hds]; exact List.cons_ne_nil d _), hds,
      foldl_add (.inl (oneSigned_replicate _ d)), total_replicate]
    rfl
  untouched := h.sum_untouched
  present := by
    by_cases hnil : c.deltas t k hs = []
    · rw [h.sum_untouched hnil, Option.isSome_map]
      exact (or_iff_left (not_not_intro hnil)).symm
    · rw [h.sum_record hnil]
      exact iff_of_true rfl (.inr hnil)
  latest hlast := by
    rw [h.sum_last hlast]
    exact h.sum_getter
  reads hsteady := by
    have hget := h.sum_getter
    rw [foldl_add hsteady] at hget
    exact hget
  refused := h.refused

theorem order (h : Accrues c t k v hs env) (h' : Accrues c t k v hs' env')
    (hperm : (c.deltas t k hs).Perm (c.deltas t k hs'))
    (hsteady : c.Steady (c.start v) (c.deltas t k hs))
    (hsteady' : c.Steady (c.start v) (c.deltas t k hs')) :
    (Engine.committed env'.engine).record? t.name k.bytes =
      (Engine.committed env.engine).record? t.name k.bytes := by
  by_cases hds : c.deltas t k hs = []
  · have hds' : c.deltas t k hs' = [] := by
      rw [hds] at hperm
      exact hperm.nil_eq.symm
    rw [h.untouched hds, h'.untouched hds']
  · have hds' : c.deltas t k hs' ≠ [] := fun he => hds (by rw [he] at hperm; exact hperm.eq_nil)
    rw [h.record hsteady hds, h'.record hsteady' hds', total_perm hperm]

end Accrues

structure Counts (ε : Type) [Engine ε] [IsolatedEngine ε] (c : Counter) : Prop where
  accrues : ∀ {t k v as} {env : Environment ε}, Sound env.engine →
    t.lookUp c.format k (Engine.committed env.engine) = .ok v → (Gauge.sum c).Keeps t k as →
    Accrues c t k v (Access.runs as env).1 (Access.runs as env).2
  order : ∀ {t k v as bs} {env env' : Environment ε}, Sound env.engine → Sound env'.engine →
    t.lookUp c.format k (Engine.committed env.engine) = .ok v →
    t.lookUp c.format k (Engine.committed env'.engine) = .ok v →
    (Gauge.sum c).Keeps t k as → (Gauge.sum c).Keeps t k bs →
    (c.deltas t k (Access.runs as env).1).Perm (c.deltas t k (Access.runs bs env').1) →
    c.OneSigned (c.deltas t k (Access.runs as env).1) ∨
      c.InRange (c.start v) (c.deltas t k (Access.runs as env).1) ∧
        c.InRange (c.start v) (c.deltas t k (Access.runs bs env').1) →
    (Engine.committed (Access.runs bs env').2.engine).record? t.name k.bytes =
      (Engine.committed (Access.runs as env).2.engine).record? t.name k.bytes

theorem counts (ε : Type) [Engine ε] [IsolatedEngine ε] (c : Counter) : Counts ε c where
  accrues hs hv hkeeps := .of_gathers (Gauge.gathers_runs _ hs hv hkeeps)
  order hs hs' hv hv' hkeeps hkeeps' hperm hsteady := by
    refine (Accrues.of_gathers (Gauge.gathers_runs _ hs hv hkeeps)).order
      (.of_gathers (Gauge.gathers_runs _ hs' hv' hkeeps')) hperm (hsteady.imp_right And.left) ?_
    exact hsteady.imp (fun h => h.mono hperm.symm.subset) And.right

end Counter

theorem counters_accrue {δ : Type} [Database δ] [LawfulDatabase δ] :
    (∀ c, Counter.Counts Volatile c ∧ Counter.Counts (DatabaseEngine δ) c) ∧
    ∀ (c : Counter) (t : TableId) (k : Key) (env : Environment Volatile),
      ¬ Faults Volatile (((c.getter k).run t).run env).1 := by
  refine ⟨fun c => ⟨c.counts Volatile, c.counts (DatabaseEngine δ)⟩, ?_⟩
  rintro c t k env ⟨x, hx, hfull⟩
  have hlook : (c.getter k).writes = false := by cases c <;> rfl
  exact Bool.noConfusion ((Access.roomless_run hlook t env x hx).symm.trans hfull)

end TrafficStore
