import Mathlib.Algebra.BigOperators.Group.List.Basic
import Mathlib.Algebra.Order.Ring.Nat
import Mathlib.Data.List.Nodup
import TrafficStore.Proofs.Tally

namespace TrafficStore

open Allocator LogRecord

theorem sum_map_ite_mem {κ : Type} [DecidableEq κ] {ks : List κ} (hnodup : ks.Nodup) {a : κ}
    (ha : a ∈ ks) (n : Nat) : (ks.map (fun k => if a = k then n else 0)).sum = n := by
  rw [List.sum_map_eq_nsmul_single a _ (fun k hk _ => if_neg hk.symm),
    List.count_eq_one_of_mem hnodup ha, if_pos rfl, one_nsmul]

theorem sum_fibres {α κ : Type} [DecidableEq κ] (f : α → κ) (w : α → Nat) {ks : List κ}
    (hnodup : ks.Nodup) {rs : List α} (hcover : ∀ r ∈ rs, f r ∈ ks) :
    (ks.map (fun k => ((rs.filter (fun r => f r = k)).map w).sum)).sum = (rs.map w).sum := by
  induction rs with
  | nil => simp
  | cons r rs ih =>
      have hstep : ∀ k, (((r :: rs).filter (fun r => f r = k)).map w).sum =
          (if f r = k then w r else 0) + ((rs.filter (fun r => f r = k)).map w).sum := by
        intro k
        by_cases hk : f r = k <;> simp [hk]
      simp only [hstep]
      rw [List.sum_map_add, sum_map_ite_mem hnodup (hcover r List.mem_cons_self),
        ih (fun q hq => hcover q (List.mem_cons_of_mem r hq)), List.map_cons, List.sum_cons]

namespace LogRecord

variable {p : Panel} {key : String} {rs : List LogRecord}

def slotSum (rs : List LogRecord) (f : Panel → String → Nat) : Nat :=
  (Panel.all.map (fun p => ((keysOf p rs).map (f p)).sum)).sum

theorem slotSum_weights (w : LogRecord → Nat) (rs : List LogRecord) :
    slotSum rs (fun p key => ((occurrences p key rs).map w).sum) = (rs.map w).sum := by
  have hpanels : Panel.all.Nodup := by decide
  rw [slotSum, ← sum_fibres LogRecord.panel w hpanels (fun r _ => r.panel.mem_all)]
  congr 2
  funext p
  have hkeys : ∀ r ∈ rs.filter (fun r => r.panel = p), r.key ∈ keysOf p rs := by
    intro r hr
    obtain ⟨hmem, hp⟩ := List.mem_filter.1 hr
    exact mem_keysOf.2 ⟨r, hmem, of_decide_eq_true hp, rfl⟩
  rw [← sum_fibres LogRecord.key w (nodup_keysOf p rs) hkeys]
  congr 2
  funext key
  rw [occurrences, List.filter_filter]
  congr 3
  funext r
  simp [and_comm]

theorem bytesOf_eq_sum (rs : List LogRecord) :
    bytesOf rs = (rs.map (fun r => r.bytes.toNat)).sum := by
  induction rs with
  | nil => rfl
  | cons r rs ih => rw [bytesOf, ih, List.map_cons, List.sum_cons]

theorem slotSum_bytesOf (rs : List LogRecord) :
    slotSum rs (fun p key => bytesOf (occurrences p key rs)) = bytesOf rs := by
  simp only [bytesOf_eq_sum]
  exact slotSum_weights (fun r => r.bytes.toNat) rs

theorem slotSum_length (rs : List LogRecord) :
    slotSum rs (fun p key => (occurrences p key rs).length) = rs.length := by
  have hones : ∀ qs : List LogRecord, qs.length = (qs.map (fun _ => 1)).sum := fun qs => by simp
  simp only [hones]
  exact slotSum_weights (fun _ => 1) rs

end LogRecord

namespace Indexed

variable {ν : Type} {keys : List String} {m : SortedMap Int32 ν}
  {g : String → List LogRecord → ν} {p : Panel} {rs : List LogRecord}

theorem keysOf_subset {f : String → Option ν} (h : Indexed keys m f)
    (hf : f = perKey g p rs) : keysOf p rs ⊆ keys := by
  intro key hkey
  by_cases hmem : key ∈ keys
  · exact hmem
  · have hnone := h.within key hmem
    rw [hf, perKey_of_mem hkey] at hnone
    cases hnone

theorem find?_eq_some_iff (h : Indexed keys m (perKey g p rs)) {id : Int32} {v : ν} :
    m.find? id = some v ↔
      ∃ key ∈ keysOf p rs, id = idOf keys key ∧ v = g key (occurrences p key rs) := by
  have hsub := h.keysOf_subset rfl
  constructor
  · intro hid
    obtain ⟨key, hkey, rfl⟩ := h.only id (SortedMap.contains_iff.2 ⟨v, hid⟩)
    rw [h.find key hkey, perKey, noted] at hid
    split at hid
    · cases hid
    · next hne =>
        refine ⟨key, ?_, rfl, (Option.some.inj hid).symm⟩
        exact Classical.byContradiction (fun hno => hne (occurrences_eq_nil.2 hno))
  · rintro ⟨key, hkey, rfl, rfl⟩
    rw [h.find key (hsub hkey), perKey_of_mem hkey]

theorem contains_iff (h : Indexed keys m (perKey g p rs)) {id : Int32} :
    m.contains id = true ↔ ∃ key ∈ keysOf p rs, id = idOf keys key := by
  rw [SortedMap.contains_iff]
  constructor
  · rintro ⟨v, hv⟩
    obtain ⟨key, hkey, hid, -⟩ := h.find?_eq_some_iff.1 hv
    exact ⟨key, hkey, hid⟩
  · rintro ⟨key, hkey, hid⟩
    exact ⟨_, h.find?_eq_some_iff.2 ⟨key, hkey, hid, rfl⟩⟩

theorem slots_perm (h : Indexed keys m (perKey g p rs)) (hbounded : keys.length ≤ maxId) :
    m.entries.Perm ((keysOf p rs).map
      (fun key => (idOf keys key, g key (occurrences p key rs)))) := by
  have hsub := h.keysOf_subset rfl
  have hes : ((keysOf p rs).map
      (fun key => (idOf keys key, g key (occurrences p key rs)))).Nodup := by
    refine List.pairwise_map.2 ((nodup_keysOf p rs).imp_of_mem (fun ha _ hne he => hne ?_))
    exact idOf_inj hbounded (hsub ha) (Prod.mk.inj he).1
  rw [List.perm_ext_iff_of_nodup m.nodup_entries hes]
  rintro ⟨id, v⟩
  rw [← SortedMap.find?_eq_some_iff, h.find?_eq_some_iff, List.mem_map]
  constructor
  · rintro ⟨key, hkey, rfl, rfl⟩
    exact ⟨key, hkey, rfl⟩
  · rintro ⟨key, hkey, he⟩
    obtain ⟨rfl, rfl⟩ := Prod.mk.inj he
    exact ⟨key, hkey, rfl, rfl⟩

end Indexed

end TrafficStore
