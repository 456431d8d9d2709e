import TrafficStore.Dump
import TrafficStore.Proofs.Format
import TrafficStore.SortedMap

namespace TrafficStore

def Item.keyPrecedes (x y : Item) : Bool :=
  Ordered.precedes (Format.int.encode x.key) (Format.int.encode y.key)

namespace SortOrder

def Fits : SortOrder → Value → Prop
  | numericDescending, .int _ => True
  | lexicographicAscending, .text _ => True
  | _, _ => False

variable {o : SortOrder}

theorem precedes_asymm : ∀ {o : SortOrder} {a b : Value}, o.precedes a b = true →
    o.precedes b a = false
  | numericDescending, .int a, .int b, h => by
      simp only [precedes, decide_eq_true_eq, decide_eq_false_iff_not] at h ⊢
      exact Int32.not_lt.2 (Int32.le_of_lt h)
  | lexicographicAscending, .text a, .text b, h =>
      Ordered.asymm (κ := Bytes) h

theorem not_precedes_trans : ∀ {o : SortOrder} {a b c : Value}, o.Fits a → o.Fits b → o.Fits c →
    o.precedes a b = false → o.precedes b c = false → o.precedes a c = false
  | numericDescending, .int a, .int b, .int c, _, _, _, h, h' => by
      simp only [precedes, decide_eq_false_iff_not, Int32.not_lt] at h h' ⊢
      exact Int32.le_trans h h'
  | lexicographicAscending, .text a, .text b, .text c, _, _, _, h, h' => by
      simp only [precedes, decide_eq_false_iff_not, List.not_lt] at h h' ⊢
      exact List.le_trans h' h

theorem precedes_of_precedes_of_not {a b c : Value} (ha : o.Fits a) (hb : o.Fits b)
    (hc : o.Fits c) (h : o.precedes a b = true) (h' : o.precedes c b = false) :
    o.precedes a c = true := by
  cases hac : o.precedes a c with
  | true => rfl
  | false => rw [not_precedes_trans ha hc hb hac h'] at h; cases h

theorem precedes_of_not_of_precedes {a b c : Value} (ha : o.Fits a) (hb : o.Fits b)
    (hc : o.Fits c) (h : o.precedes b a = false) (h' : o.precedes b c = true) :
    o.precedes a c = true := by
  cases hac : o.precedes a c with
  | true => rfl
  | false => rw [not_precedes_trans hb ha hc h hac] at h'; cases h'

def InOrder (o : SortOrder) (x y : Item) : Prop :=
  o.precedes x.value y.value = true ∨
    o.precedes y.value x.value = false ∧ y.keyPrecedes x = false

theorem InOrder.total (o : SortOrder) (x y : Item) : o.InOrder x y ∨ o.InOrder y x := by
  cases hxy : o.precedes x.value y.value with
  | true => exact .inl (.inl hxy)
  | false =>
      cases hyx : o.precedes y.value x.value with
      | true => exact .inr (.inl hyx)
      | false =>
          cases hk : y.keyPrecedes x with
          | true => exact .inr (.inr ⟨hxy, Ordered.asymm hk⟩)
          | false => exact .inl (.inr ⟨hyx, hk⟩)

theorem InOrder.key_eq {x y : Item} (h : o.InOrder x y) (h' : o.InOrder y x) : x.key = y.key := by
  rcases h with h | ⟨h, hk⟩
  · rcases h' with h' | ⟨h', _⟩
    · rw [precedes_asymm h] at h'
      cases h'
    · rw [h] at h'
      cases h'
  · rcases h' with h' | ⟨_, hk'⟩
    · rw [h] at h'
      cases h'
    · exact Format.int_encode_injective (Ordered.eq_of_neither hk' hk)

theorem InOrder.trans {x y z : Item} (hx : o.Fits x.value) (hy : o.Fits y.value)
    (hz : o.Fits z.value) (h : o.InOrder x y) (h' : o.InOrder y z) : o.InOrder x z := by
  rcases h with h | ⟨h, hk⟩
  · refine .inl ?_
    rcases h' with h' | ⟨h', _⟩
    · exact precedes_of_precedes_of_not hx hy hz h (precedes_asymm h')
    · exact precedes_of_precedes_of_not hx hy hz h h'
  · rcases h' with h' | ⟨h', hk'⟩
    · exact .inl (precedes_of_not_of_precedes hx hy hz h h')
    · exact .inr ⟨not_precedes_trans hz hy hx h' h, Ordered.not_precedes_trans hk' hk⟩

theorem inOrder_of_not_precedes {x y : Item} (h : o.precedes y.value x.value = false)
    (hk : x.keyPrecedes y = true) : o.InOrder x y :=
  .inr ⟨h, Ordered.asymm hk⟩

end SortOrder

namespace Dump

open SortOrder

variable {o : SortOrder}

theorem mem_insertBack {x y : Item} {ys : List Item} :
    y ∈ insertBack o x ys ↔ y = x ∨ y ∈ ys := by
  rw [(insertBack_perm o x ys).mem_iff, List.mem_cons]

theorem pairwise_insertBack {x : Item} {ys : List Item} (hx : o.Fits x.value)
    (hys : ∀ y ∈ ys, o.Fits y.value) (hlater : ∀ y ∈ ys, y.keyPrecedes x = true)
    (h : ys.Pairwise (fun a b => o.InOrder b a)) :
    (insertBack o x ys).Pairwise (fun a b => o.InOrder b a) := by
  induction ys with
  | nil => exact List.pairwise_singleton _ x
  | cons y ys ih =>
      obtain ⟨hy, hrest⟩ := List.pairwise_cons.1 h
      have hfy := hys y List.mem_cons_self
      have hfys : ∀ z ∈ ys, o.Fits z.value := fun z hz => hys z (List.mem_cons_of_mem y hz)
      rw [insertBack]
      cases hp : o.precedes x.value y.value with
      | true =>
          rw [if_pos rfl]
          refine List.pairwise_cons.2 ⟨fun z hz => ?_, ih hfys
            (fun z hz => hlater z (List.mem_cons_of_mem y hz)) hrest⟩
          rcases mem_insertBack.1 hz with rfl | hz
          · exact .inl hp
          · exact hy z hz
      | false =>
          rw [if_neg Bool.false_ne_true]
          have hyx := inOrder_of_not_precedes hp (hlater y List.mem_cons_self)
          refine List.pairwise_cons.2 ⟨fun z hz => ?_, h⟩
          rcases List.mem_cons.1 hz with rfl | hz
          · exact hyx
          · exact (hy z hz).trans (hfys z hz) hfy hx hyx

theorem pairwise_foldl_insertBack {xs : List Item} (hxs : ∀ x ∈ xs, o.Fits x.value)
    (h : xs.Pairwise (fun x y => x.keyPrecedes y = true)) :
    ∀ ys : List Item, (∀ y ∈ ys, o.Fits y.value) →
      (∀ y ∈ ys, ∀ x ∈ xs, y.keyPrecedes x = true) → ys.Pairwise (fun a b => o.InOrder b a) →
      (xs.foldl (fun sorted x => insertBack o x sorted) ys).Pairwise
        (fun a b => o.InOrder b a) := by
  induction xs with
  | nil => intro ys _ _ hsorted; exact hsorted
  | cons x xs ih =>
      intro ys hys hlater hsorted
      obtain ⟨hx, hrest⟩ := List.pairwise_cons.1 h
      refine ih (fun z hz => hxs z (List.mem_cons_of_mem x hz)) hrest (insertBack o x ys) ?_ ?_ ?_
      · intro y hy
        rcases mem_insertBack.1 hy with rfl | hy
        · exact hxs y List.mem_cons_self
        · exact hys y hy
      · intro y hy z hz
        rcases mem_insertBack.1 hy with rfl | hy
        · exact hx z hz
        · exact hlater y hy z (List.mem_cons_of_mem x hz)
      · exact pairwise_insertBack (hxs x List.mem_cons_self) hys
          (fun y hy => hlater y hy x List.mem_cons_self) hsorted

theorem pairwise_sortItems {xs : List Item} (hxs : ∀ x ∈ xs, o.Fits x.value)
    (h : xs.Pairwise (fun x y => x.keyPrecedes y = true)) :
    (sortItems o xs).Pairwise o.InOrder := by
  rw [sortItems, List.pairwise_reverse]
  exact pairwise_foldl_insertBack hxs h [] (by simp) (by simp) .nil

theorem sortItems_eq_mergeSort {ν : Type} {m : SortedMap Int32 ν} {item : Int32 × ν → Item}
    {le : Int32 × ν → Int32 × ν → Bool} (hkey : ∀ e, (item e).key = e.1)
    (hfits : ∀ e, o.Fits (item e).value)
    (hle : ∀ x y, le x y = true ↔ o.InOrder (item x) (item y)) {items : List Item}
    (hperm : items.Perm (m.entries.map item))
    (hkeys : items.Pairwise (fun x y => x.keyPrecedes y = true)) :
    sortItems o items = (m.entries.mergeSort le).map item := by
  have hitem : ∀ x ∈ sortItems o items, ∃ e ∈ m.entries, item e = x := fun x hx =>
    List.mem_map.1 (((sortItems_perm o items).trans hperm).mem_iff.1 hx)
  have hitem' : ∀ x ∈ (m.entries.mergeSort le).map item, ∃ e ∈ m.entries, item e = x := fun x hx =>
    List.mem_map.1 (((List.mergeSort_perm m.entries le).map item).mem_iff.1 hx)
  have hanti : ∀ x y, x ∈ sortItems o items → y ∈ (m.entries.mergeSort le).map item →
      o.InOrder x y → o.InOrder y x → x = y := by
    intro x y hx hy hxy hyx
    obtain ⟨e, he, rfl⟩ := hitem x hx
    obtain ⟨e', he', rfl⟩ := hitem' y hy
    have h1 : e.1 = e'.1 := by rw [← hkey e, ← hkey e', hxy.key_eq hyx]
    have h2 := SortedMap.find?_eq_some_iff.2 he
    rw [h1, SortedMap.find?_eq_some_iff.2 he'] at h2
    rw [show e = e' from Prod.ext h1 (Option.some.inj h2).symm]
  have hsorted : (sortItems o items).Pairwise o.InOrder := by
    refine pairwise_sortItems (fun x hx => ?_) hkeys
    obtain ⟨e, _, rfl⟩ := List.mem_map.1 (hperm.mem_iff.1 hx)
    exact hfits e
  have hsorted' : ((m.entries.mergeSort le).map item).Pairwise o.InOrder := by
    rw [List.pairwise_map]
    refine (List.pairwise_mergeSort ?_ ?_ m.entries).imp (fun h => (hle _ _).1 h)
    · intro a b c hab hbc
      exact (hle a c).2 (((hle a b).1 hab).trans (hfits a) (hfits b) (hfits c) ((hle b c).1 hbc))
    · intro a b
      rw [Bool.or_eq_true, hle, hle]
      exact InOrder.total o (item a) (item b)
  have hsame : (sortItems o items).Perm ((m.entries.mergeSort le).map item) :=
    ((sortItems_perm o items).trans hperm).trans
      ((List.mergeSort_perm m.entries le).map item).symm
  exact List.Perm.eq_of_pairwise hanti hsorted hsorted' hsame

theorem decodeItems_ok {kind : ValueKind} {rs : List (Bytes × Bytes)}
    (h : ∀ r ∈ rs, ∃ x, decodeItem kind r = .ok x ∧ Format.int.encode x.key = r.1) :
    ∃ items, decodeItems kind rs = .ok items ∧
      items.map (fun x => Format.int.encode x.key) = rs.map Prod.fst ∧
      ∀ x, x ∈ items ↔ ∃ r ∈ rs, decodeItem kind r = .ok x := by
  induction rs with
  | nil => exact ⟨[], rfl, rfl, by simp⟩
  | cons r rs ih =>
      obtain ⟨x, hx, hk⟩ := h r List.mem_cons_self
      obtain ⟨xs, hxs, hks, hmem⟩ := ih (fun r' hr' => h r' (List.mem_cons_of_mem r hr'))
      refine ⟨x :: xs, ?_, ?_, fun y => ?_⟩
      · rw [decodeItems_cons, hx, Except.bind, hxs]
        rfl
      · rw [List.map_cons, List.map_cons, hk, hks]
      · rw [List.mem_cons, hmem]
        constructor
        · rintro (rfl | ⟨r', hr', hy⟩)
          · exact ⟨r, List.mem_cons_self, hx⟩
          · exact ⟨r', List.mem_cons_of_mem r hr', hy⟩
        · rintro ⟨r', hr', hy⟩
          rcases List.mem_cons.1 hr' with rfl | hr'
          · exact .inl (Except.ok.inj (hy.symm.trans hx))
          · exact .inr ⟨r', hr', hy⟩

end Dump

end TrafficStore
