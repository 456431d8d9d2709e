import Mathlib.Order.Bounds.Defs
import TrafficStore.Proofs.Charges
import TrafficStore.Proofs.Gauges

namespace TrafficStore

open ScopeViews

namespace Gauge

variable {n m d : UInt64} {ds es : List UInt64} {v : Option UInt64}

theorem gather_of_lt (h : v.getD 0 < d) : peak.gather v d = some d := if_pos h

theorem gather_of_le (h : d ≤ v.getD 0) : peak.gather v d = v := if_neg (UInt64.not_lt.2 h)

theorem lt_iff_of_greatest (h : IsGreatest {x | x ∈ n :: ds} m) :
    m < d ↔ ∀ e ∈ n :: ds, e < d :=
  ⟨fun hlt _ he => UInt64.lt_of_le_of_lt (h.2 he) hlt, fun hall => hall m h.1⟩

theorem greatest_peak (ds : List UInt64) (v : Option UInt64) :
    IsGreatest {x | x ∈ v.getD 0 :: ds} ((ds.foldl peak.gather v).getD 0) := by
  induction ds generalizing v with
  | nil =>
      refine ⟨List.mem_cons_self, fun x hx => ?_⟩
      rw [List.mem_singleton.1 hx]
      exact UInt64.le_refl _
  | cons d ds ih =>
      rw [List.foldl_cons]
      by_cases hlt : v.getD 0 < d
      · rw [gather_of_lt hlt]
        obtain ⟨hmem, hall⟩ := ih (some d)
        refine ⟨List.mem_cons_of_mem _ hmem, fun x hx => ?_⟩
        rcases List.mem_cons.1 hx with rfl | hx
        · exact UInt64.le_trans (UInt64.le_of_lt hlt) (hall List.mem_cons_self)
        · exact hall hx
      · have hle := UInt64.not_lt.1 hlt
        rw [gather_of_le hle]
        obtain ⟨hmem, hall⟩ := ih v
        refine ⟨?_, fun x hx => ?_⟩
        · rcases List.mem_cons.1 hmem with he | hmem
          · rw [he]
            exact List.mem_cons_self
          · exact List.mem_cons_of_mem _ (List.mem_cons_of_mem _ hmem)
        · rcases List.mem_cons.1 hx with rfl | hx
          · exact hall List.mem_cons_self
          · rcases List.mem_cons.1 hx with rfl | hx
            · exact UInt64.le_trans hle (hall List.mem_cons_self)
            · exact hall (List.mem_cons_of_mem _ hx)

theorem isSome_peak (ds : List UInt64) (v : Option UInt64) :
    (ds.foldl peak.gather v).isSome ↔ v.isSome ∨ ∃ d ∈ ds, 0 < d := by
  induction ds generalizing v with
  | nil => simp
  | cons d ds ih =>
      rw [List.foldl_cons, ih, List.exists_mem_cons_iff]
      by_cases hlt : v.getD 0 < d
      · rw [gather_of_lt hlt]
        exact iff_of_true (.inl rfl) (.inr (.inl (UInt64.lt_of_le_of_lt UInt64.zero_le hlt)))
      · have hle := UInt64.not_lt.1 hlt
        rw [gather_of_le hle]
        refine or_congr_right' (fun hnone => (or_iff_right (fun hpos => ?_)).symm)
        rw [Option.not_isSome_iff_eq_none] at hnone
        rw [hnone] at hlt
        exact hlt hpos

theorem foldl_peak_congr (h : ∀ d, d ∈ ds ↔ d ∈ es) (v : Option UInt64) :
    ds.foldl peak.gather v = es.foldl peak.gather v := by
  have hsome : (ds.foldl peak.gather v).isSome = (es.foldl peak.gather v).isSome := by
    rw [Bool.eq_iff_iff, isSome_peak, isSome_peak]
    simp only [h]
  have hvalue : (ds.foldl peak.gather v).getD 0 = (es.foldl peak.gather v).getD 0 := by
    obtain ⟨hmem, hall⟩ := greatest_peak ds v
    obtain ⟨hmem', hall'⟩ := greatest_peak es v
    have hsub : ∀ x, x ∈ v.getD 0 :: ds ↔ x ∈ v.getD 0 :: es := fun x => by
      rw [List.mem_cons, List.mem_cons, h]
    exact UInt64.le_antisymm (hall' ((hsub _).1 hmem)) (hall ((hsub _).2 hmem'))
  cases hds : ds.foldl peak.gather v <;> cases hes : es.foldl peak.gather v <;>
    rw [hds, hes] at hsome hvalue
  · cases hsome
  · cases hsome
  · exact congrArg some hvalue

abbrev candidates (t : TableId) (k : Key) (hs : List Accessed) : List UInt64 :=
  peak.amounts t k hs

def Tops (n : UInt64) (before : List UInt64) (d : UInt64) : Prop := ∀ e ∈ n :: before, e < d

instance (n : UInt64) (before : List UInt64) (d : UInt64) : Decidable (Tops n before d) :=
  inferInstanceAs (Decidable (∀ e ∈ n :: before, e < d))

variable {ε : Type} [Engine ε] [IsolatedEngine ε] {t : TableId} {k : Key}

namespace Gathers

variable {hs : List Accessed} {env : Environment ε}

theorem peak_answer (h : peak.Gathers t k v hs env) {i : Nat} {r : Reply}
    (hi : (peak.gathered t k hs)[i]? = some (d, r)) :
    r = .flag (Tops (v.getD 0) ((candidates t k hs).take i) d) := by
  rw [h.answers hi, Gauge.answer]
  exact congrArg Reply.flag (decide_eq_decide.2 (lt_iff_of_greatest (greatest_peak _ v)))

theorem peak_record (h : peak.Gathers t k v hs env) :
    (Engine.committed env.engine).record? t.name k.bytes =
      ((candidates t k hs).foldl peak.gather v).map Format.word.encode :=
  TableId.record?_of_lookUp h.stands

theorem peak_count (h : peak.Gathers t k v hs env) :
    (peak.gathered t k hs).countP (fun p => p.2 = .flag true) =
      (candidates t k hs).zipIdx.countP
        (fun p => Tops (v.getD 0) ((candidates t k hs).take p.2) p.1) := by
  have hzip : (candidates t k hs).zipIdx =
      (peak.gathered t k hs).zipIdx.map (fun p => (p.1.1, p.2)) := by
    rw [candidates, amounts, List.zipIdx_map]
    rfl
  rw [hzip, List.countP_map]
  conv_lhs => rw [← List.zipIdx_map_fst 0 (peak.gathered t k hs), List.countP_map]
  refine List.countP_congr (fun p hp => ?_)
  have hanswer := h.peak_answer (List.mem_zipIdx_iff_getElem?.1 hp)
  rw [Function.comp_apply, Function.comp_apply, decide_eq_true_iff, decide_eq_true_iff, hanswer]
  exact ⟨fun he => of_decide_eq_true (Reply.flag.inj he),
    fun htops => congrArg Reply.flag (decide_eq_true htops)⟩

end Gathers

structure Peaks (t : TableId) (k : Key) (v : Option UInt64) (hs : List Accessed)
    (env : Environment ε) : Prop where
  record : ∃ w, t.lookUp .word k (Engine.committed env.engine) = .ok w ∧
    IsGreatest {x | x ∈ v.getD 0 :: candidates t k hs} (w.getD 0)
  reads : Faults ε (((Access.wordOrZero k).run t).run env).1 ∨
    ∃ m, (((Access.wordOrZero k).run t).run env).1 = .ok (.word m) ∧
      IsGreatest {x | x ∈ v.getD 0 :: candidates t k hs} m
  answers : ∀ {i : Nat} {d : UInt64} {r : Reply}, (peak.gathered t k hs)[i]? = some (d, r) →
    r = .flag (Tops (v.getD 0) ((candidates t k hs).take i) d)
  raised : (peak.gathered t k hs).countP (fun p => p.2 = .flag true) =
    (candidates t k hs).zipIdx.countP
      (fun p => Tops (v.getD 0) ((candidates t k hs).take p.2) p.1)
  present : ((Engine.committed env.engine).record? t.name k.bytes).isSome ↔
    v.isSome ∨ ∃ d ∈ candidates t k hs, 0 < d
  refused : ∀ h ∈ hs, (peak.broughtTo? t k h.table h.access).isSome → ∀ x, h.answer = .error x →
    ScopeViews.Fault ε x

theorem Peaks.of_gathers {hs : List Accessed} {env : Environment ε}
    (h : peak.Gathers t k v hs env) : Peaks t k v hs env where
  record := ⟨_, h.stands, greatest_peak _ v⟩
  reads := (Counter.word.getter_run h.sound h.stands).imp_right
    (fun hget => ⟨_, hget, greatest_peak _ v⟩)
  answers := h.peak_answer
  raised := h.peak_count
  present := by
    rw [h.peak_record, Option.isSome_map]
    exact isSome_peak _ v
  refused := h.refused

structure Raises (ε : Type) [Engine ε] [IsolatedEngine ε] : Prop where
  peaks : ∀ {t k v as} {env : Environment ε}, Sound env.engine →
    t.lookUp .word k (Engine.committed env.engine) = .ok v → peak.Keeps t k as →
    Peaks t k v (Access.runs as env).1 (Access.runs as env).2
  writes : ∀ {t k d b} {env env' : Environment ε}, Sound env.engine →
    ((Access.raise k d).run t).run env = (.ok (.flag b), env') →
    ∃ table, (Engine.committed env.engine).find? t.name = some table ∧
      Engine.committed env'.engine = if b then (Engine.committed env.engine).insert t.name
        (table.insert k.bytes (Format.word.encode d)) else Engine.committed env.engine
  order : ∀ {t k v as bs} {env env' : Environment ε}, Sound env.engine → Sound env'.engine →
    t.lookUp .word k (Engine.committed env.engine) = .ok v →
    t.lookUp .word k (Engine.committed env'.engine) = .ok v →
    peak.Keeps t k as → peak.Keeps t k bs →
    (∀ d, d ∈ candidates t k (Access.runs as env).1 ↔ d ∈ candidates t k (Access.runs bs env').1) →
    (Engine.committed (Access.runs bs env').2.engine).record? t.name k.bytes =
      (Engine.committed (Access.runs as env).2.engine).record? t.name k.bytes

theorem raises (ε : Type) [Engine ε] [IsolatedEngine ε] : Raises ε where
  peaks hs hv hkeeps := .of_gathers (gathers_runs _ hs hv hkeeps)
  writes {t k d b env env'} hs hrun := by
    obtain ⟨-, -, hr⟩ := ((Access.raise k d).serves t).ok hs hrun
    obtain ⟨table, table', hc, hw, hc'⟩ := TableId.onRecords_ok hr
    obtain ⟨raised, hraise, hflag⟩ := Rewrite.map_ok hw
    cases hflag
    refine ⟨table, hc, ?_⟩
    rw [hc', Rewrite.raise_ok hraise]
    cases b with
    | true => rfl
    | false => exact SortedMap.insert_eq_self hc
  order hs hs' hv hv' hkeeps hkeeps' hmem := by
    rw [(gathers_runs _ hs hv hkeeps).peak_record, (gathers_runs _ hs' hv' hkeeps').peak_record,
      foldl_peak_congr hmem]

end Gauge

theorem peaks_rise {δ : Type} [Database δ] [LawfulDatabase δ] :
    Gauge.Raises Volatile ∧ Gauge.Raises (DatabaseEngine δ) ∧
    (∀ (as : List (TableId × Access)) (env : Environment Volatile),
      (Access.runs as env).2.engine.size =
        env.engine.size + ((Access.runs as env).1.map Accessed.charge).foldr (· + ·) 0) ∧
    (∀ (t : TableId) (k : Key) (d : UInt64) (b : Bool),
      (Accessed.mk t (.raise k d) (.ok (.flag b))).charge =
        if b then UInt64.ofNat (k.bytes.length + 8) else 0) ∧
    ∀ (t : TableId) (k : Key) (env : Environment Volatile),
      ¬ Faults Volatile (((Access.wordOrZero k).run t).run env).1 := by
  refine ⟨Gauge.raises Volatile, Gauge.raises (DatabaseEngine δ),
    Accessed.size_runs, Accessed.charge_raise, ?_⟩
  rintro t k env ⟨x, hx, hfull⟩
  exact Bool.noConfusion
    ((Access.roomless_run (a := .wordOrZero k) rfl t env x hx).symm.trans hfull)

-- the zero is not taken, so the record is written twice: twelve bytes each time
example : (fun o : List Accessed × Environment Volatile =>
      (o.1.map Accessed.answer, o.2.engine.size))
    (Access.runs ([0, 300, 200, 300, 301].map (fun n =>
        (TableId.shared .hostnames, Access.raise (.id 1) n)))
      { engine := { maxSize := 64, content := SortedMap.empty.insert "db_hostnames" .empty },
        settings := {} }) =
    ([.ok (.flag false), .ok (.flag true), .ok (.flag false), .ok (.flag false),
      .ok (.flag true)], 24) := by decide

end TrafficStore
