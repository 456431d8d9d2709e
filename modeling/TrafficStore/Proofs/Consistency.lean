import Mathlib.Algebra.BigOperators.Ring.Finset
import Mathlib.Algebra.Order.BigOperators.Group.List
import Mathlib.Algebra.Order.Ring.Int
import TrafficStore.Proofs.Ingest
import TrafficStore.Proofs.Progress
import TrafficStore.Proofs.Slots

namespace TrafficStore

open ScopeViews Books LogRecord Allocator

namespace Books

def requestTotal (b : Books) : UInt64 := (b.stats.find? totalRequests).getD 0

def byteTotal (b : Books) : UInt64 := (b.stats.find? totalBytes).getD 0

def hitSum (b : Books) : Int :=
  (Panel.all.map (fun p => ((b.hits p).entries.map (fun e => e.2.toInt)).sum)).sum

def byteSum (b : Books) : Nat :=
  (Panel.all.map (fun p => ((b.bandwidths p).entries.map (fun e => e.2.toNat)).sum)).sum

structure Consistent (b : Books) (stopped : Nat) : Prop where
  bandwidths : ∀ p id, (b.bandwidths p).contains id = true → (b.hits p).contains id = true
  hits : ∀ p id, (b.hits p).contains id = true → (b.labels p).contains id = true
  labels : ∀ p id label, (b.labels p).find? id = some label →
    ∃ key, (b.ids (.keys p)).find? key = some id ∧ label = beforeNul key ∧
      ∀ other, (b.ids (.keys p)).find? other = some id → other = key
  bytes : b.byteTotal.toNat ≤ b.byteSum
  requests : (∀ p id n, (b.hits p).find? id = some n → n.toInt ≠ intMax) →
    b.requestTotal.toNat ≠ wordMax →
    b.requestTotal.toNat ≤ b.hitSum ∧ b.hitSum ≤ b.requestTotal.toNat + stopped

end Books

namespace LogRecord

theorem min_sum_le {α : Type} (f : α → Nat) (n : Nat) (xs : List α) :
    min (xs.map f).sum n ≤ (xs.map (fun x => min (f x) n)).sum := by
  induction xs with
  | nil => exact Nat.min_le_left _ _
  | cons x xs ih =>
      rw [List.map_cons, List.map_cons, List.sum_cons, List.sum_cons]
      omega

theorem min_slotSum_le (rs : List LogRecord) (f : Panel → String → Nat) (n : Nat) :
    min (slotSum rs f) n ≤ slotSum rs (fun p key => min (f p key) n) :=
  (min_sum_le _ n Panel.all).trans (List.sum_le_sum (fun p _ => min_sum_le (f p) n _))

end LogRecord

namespace Tally

structure Nested (T : Tally) (stopped : Nat) : Prop where
  labels : T.labels ⊆ T.keys
  hits : T.hits ⊆ T.labels
  bytes : T.bytes ⊆ T.hits
  total : bytesOf T.total ≤ bytesOf T.bytes
  requests : T.requests.length ≤ T.hits.length
  stopped : T.hits.length ≤ T.requests.length + stopped

namespace Nested

variable {T : Tally} {n : Nat} {r : LogRecord}

theorem empty : (uniform []).Nested 0 :=
  ⟨List.Subset.refl _, List.Subset.refl _, List.Subset.refl _, Nat.le_refl _, Nat.le_refl _,
    Nat.le_refl _⟩

theorem mono (h : T.Nested n) {m : Nat} (hle : n ≤ m) : T.Nested m :=
  { h with stopped := h.stopped.trans (Nat.add_le_add_left hle _) }

theorem append_subset {rs more : List LogRecord} (h : rs ⊆ more) (hr : r ∈ more) :
    rs ++ [r] ⊆ more :=
  List.append_subset.2 ⟨h, fun _ hq => List.mem_singleton.1 hq ▸ hr⟩

theorem noteKey (h : T.Nested n) (r : LogRecord) : (T.noteKey r).Nested n :=
  { h with labels := List.subset_append_of_subset_left _ h.labels }

theorem noteLabel (h : T.Nested n) (hr : r ∈ T.keys) : (T.noteLabel r).Nested n :=
  { h with
    labels := append_subset h.labels hr
    hits := List.subset_append_of_subset_left _ h.hits }

theorem noteHit (h : T.Nested n) (hr : r ∈ T.labels) : (T.noteHit r).Nested (n + 1) :=
  { h with
    hits := append_subset h.hits hr
    bytes := List.subset_append_of_subset_left _ h.bytes
    requests := by
      rw [Tally.noteHit, List.length_append]
      exact Nat.le_add_right_of_le h.requests
    stopped := by
      rw [Tally.noteHit, List.length_append]
      exact Nat.add_le_add_right h.stopped 1 }

theorem noteBytes (h : T.Nested n) (hr : r ∈ T.hits) : (T.noteBytes r).Nested n :=
  { h with
    bytes := append_subset h.bytes hr
    total := by
      rw [Tally.noteBytes, bytesOf_append_singleton]
      exact Nat.le_add_right_of_le h.total }

theorem noteRequest (h : T.Nested (n + 1)) (hlt : T.requests.length < T.hits.length) :
    (T.noteRequest r).Nested n :=
  { h with
    requests := by
      rw [Tally.noteRequest, List.length_append]
      exact hlt
    stopped := by
      rw [Tally.noteRequest, List.length_append, Nat.add_assoc, Nat.add_comm _ n]
      exact h.stopped }

theorem noteTotal (h : T.Nested n) (hle : bytesOf T.total + r.bytes.toNat ≤ bytesOf T.bytes) :
    (T.noteTotal r).Nested n :=
  { h with
    total := by
      rw [Tally.noteTotal, bytesOf_append_singleton]
      exact hle }

end Nested

section Consistent

variable {T : Tally} {b : Books} {n : Nat}

theorem Of.labelled (h : T.Of b) (p : Panel) :
    Indexed (keysOf p T.keys) (b.labels p) (perKey labelOf p T.labels) := h (.panel p .dataMap)

theorem Of.counted (h : T.Of b) (p : Panel) :
    Indexed (keysOf p T.keys) (b.hits p) (perKey hitsOf p T.hits) := h (.panel p .hits)

theorem Of.measured (h : T.Of b) (p : Panel) :
    Indexed (keysOf p T.keys) (b.bandwidths p) (perKey bandwidthOf p T.bytes) :=
  h (.panel p .bandwidth)

theorem Of.requestTotal_eq (h : T.Of b) : b.requestTotal = clampWord T.requests.length := by
  rw [requestTotal, h.stat]
  exact getD_noted T.requests

theorem Of.byteTotal_eq (h : T.Of b) : b.byteTotal = clampWord (bytesOf T.total) := by
  rw [byteTotal, h.stat]
  exact getD_noted T.total

theorem Of.byteSum_eq (h : T.Of b) :
    b.byteSum =
      slotSum T.bytes (fun p key => min (bytesOf (occurrences p key T.bytes)) wordMax) := by
  rw [byteSum, slotSum]
  congr 2
  funext p
  have hperm := ((h.measured p).slots_perm (h.bounded p)).map (fun e => e.2.toNat)
  rw [hperm.sum_eq, List.map_map]
  congr 2
  funext key
  exact toNat_clampWord _

theorem Of.hitSum_eq (h : T.Of b)
    (hopen : ∀ p id n, (b.hits p).find? id = some n → n.toInt ≠ intMax) :
    b.hitSum = T.hits.length := by
  have hcount : ∀ p, ∀ key ∈ keysOf p T.hits,
      (hitsOf key (occurrences p key T.hits)).toInt = (occurrences p key T.hits).length := by
    intro p key hkey
    have hne := hopen p _ _ ((h.counted p).find?_eq_some_iff.2 ⟨key, hkey, rfl, rfl⟩)
    have hl : intMin = -0x80000000 := rfl
    have hh : intMax = 0x7FFFFFFF := rfl
    rw [hitsOf, toInt_clampInt] at hne ⊢
    omega
  have hcast : ∀ {α : Type} (f : α → Nat) (xs : List α),
      ((xs.map f).sum : Int) = (xs.map (fun x => (f x : Int))).sum := by
    intro α f xs
    rw [Nat.cast_list_sum, List.map_map]
    rfl
  rw [hitSum, ← slotSum_length T.hits, slotSum, hcast]
  congr 2
  funext p
  have hperm := ((h.counted p).slots_perm (h.bounded p)).map (fun e => e.2.toInt)
  rw [hperm.sum_eq, List.map_map, hcast]
  congr 1
  exact List.map_congr_left (hcount p)

theorem Of.consistent (h : T.Of b) (hT : T.Nested n) : b.Consistent n where
  bandwidths p id hid := by
    obtain ⟨key, hkey, he⟩ := (h.measured p).contains_iff.1 hid
    exact (h.counted p).contains_iff.2 ⟨key, keysOf_mono hT.bytes hkey, he⟩
  hits p id hid := by
    obtain ⟨key, hkey, he⟩ := (h.counted p).contains_iff.1 hid
    exact (h.labelled p).contains_iff.2 ⟨key, keysOf_mono hT.hits hkey, he⟩
  labels p id label hid := by
    obtain ⟨key, hkey, rfl, rfl⟩ := (h.labelled p).find?_eq_some_iff.1 hid
    have hmem := keysOf_mono hT.labels hkey
    refine ⟨key, (h.numbers p).find_of_mem hmem, rfl, fun other hother => ?_⟩
    rw [(h.numbers p).find] at hother
    split at hother
    · exact (idOf_inj (h.bounded p) hmem (Option.some.inj hother).symm).symm
    · cases hother
  bytes := by
    rw [h.byteTotal_eq, toNat_clampWord, h.byteSum_eq]
    refine Nat.le_trans ?_ (min_slotSum_le _ _ _)
    rw [slotSum_bytesOf]
    have hle := hT.total
    omega
  requests hopen hne := by
    have hle := hT.requests
    have hstopped := hT.stopped
    rw [h.requestTotal_eq, toNat_clampWord] at hne ⊢
    rw [h.hitSum_eq hopen]
    omega

end Consistent

end Tally

end TrafficStore
