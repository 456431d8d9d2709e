namespace TrafficStore

class Ordered (κ : Type) where
  precedes : κ → κ → Bool
  irrefl : ∀ a, precedes a a = false
  trans : ∀ {a b c}, precedes a b = true → precedes b c = true → precedes a c = true
  eq_of_neither : ∀ {a b}, precedes a b = false → precedes b a = false → a = b

namespace Ordered

variable {κ : Type} [Ordered κ]

theorem asymm {a b : κ} (h : precedes a b = true) : precedes b a = false := by
  cases hb : precedes b a with
  | false => rfl
  | true => exact absurd (Ordered.trans h hb) (by simp [Ordered.irrefl])

theorem not_precedes_trans {a b c : κ} (h : precedes a b = false) (h' : precedes b c = false) :
    precedes a c = false := by
  cases hac : precedes a c with
  | false => rfl
  | true =>
      cases hcb : precedes c b with
      | true => rw [Ordered.trans hac hcb] at h; cases h
      | false => rw [eq_of_neither h' hcb, hac] at h; cases h

def same (a b : κ) : Bool := !(precedes a b || precedes b a)

theorem same_iff {a b : κ} : same a b = true ↔ a = b := by
  constructor
  · intro h
    simp only [same, Bool.not_eq_true', Bool.or_eq_false_iff] at h
    exact eq_of_neither h.1 h.2
  · intro h
    simp [same, h, Ordered.irrefl]

theorem same_eq_decide [DecidableEq κ] (a b : κ) : same a b = decide (a = b) := by
  cases h : same a b with
  | true => exact (decide_eq_true (same_iff.1 h)).symm
  | false =>
      refine (decide_eq_false (fun e => ?_)).symm
      rw [same_iff.2 e] at h
      exact Bool.noConfusion h

end Ordered

instance : Ordered String where
  precedes a b := decide (a < b)
  irrefl a := decide_eq_false (String.lt_irrefl a)
  trans h h' := decide_eq_true (String.lt_trans (of_decide_eq_true h) (of_decide_eq_true h'))
  eq_of_neither h h' :=
    String.le_antisymm (String.not_lt.1 (of_decide_eq_false h'))
      (String.not_lt.1 (of_decide_eq_false h))

instance : Ordered (List UInt8) where
  precedes a b := decide (a < b)
  irrefl a := decide_eq_false (List.lt_irrefl a)
  trans h h' := decide_eq_true (List.lt_trans (of_decide_eq_true h) (of_decide_eq_true h'))
  eq_of_neither h h' :=
    List.le_antisymm (List.not_lt.1 (of_decide_eq_false h'))
      (List.not_lt.1 (of_decide_eq_false h))

instance : Ordered Int32 where
  precedes a b := decide (a < b)
  irrefl _ := decide_eq_false Int32.lt_irrefl
  trans h h' := decide_eq_true (Int32.lt_trans (of_decide_eq_true h) (of_decide_eq_true h'))
  eq_of_neither h h' :=
    Int32.le_antisymm (Int32.not_lt.1 (of_decide_eq_false h'))
      (Int32.not_lt.1 (of_decide_eq_false h))

structure SortedMap (κ ν : Type) [Ordered κ] where
  entries : List (κ × ν)
  sorted : entries.Pairwise (fun a b => Ordered.precedes a.1 b.1 = true)

namespace SortedMap

open Ordered (precedes same same_iff)

variable {κ ν : Type} [Ordered κ]

def findEntry (k : κ) : List (κ × ν) → Option ν
  | [] => none
  | e :: es => if same k e.1 then some e.2 else findEntry k es

def insertEntry (k : κ) (v : ν) : List (κ × ν) → List (κ × ν)
  | [] => [(k, v)]
  | e :: es =>
      if precedes k e.1 then (k, v) :: e :: es
      else if precedes e.1 k then e :: insertEntry k v es
      else (k, v) :: es

theorem mem_insertEntry {k : κ} {v : ν} {e : κ × ν} :
    ∀ {es : List (κ × ν)}, e ∈ insertEntry k v es → e = (k, v) ∨ e ∈ es := by
  intro es
  induction es with
  | nil => intro h; exact Or.inl (List.mem_singleton.1 h)
  | cons x xs ih =>
      intro h
      simp only [insertEntry] at h
      split at h
      · exact List.mem_cons.1 h
      · split at h
        · rcases List.mem_cons.1 h with h | h
          · exact Or.inr (h ▸ List.mem_cons_self)
          · rcases ih h with h | h
            · exact Or.inl h
            · exact Or.inr (List.mem_cons_of_mem _ h)
        · rcases List.mem_cons.1 h with h | h
          · exact Or.inl h
          · exact Or.inr (List.mem_cons_of_mem _ h)

theorem findEntry_insertEntry (k q : κ) (v : ν) :
    ∀ es : List (κ × ν),
      findEntry q (insertEntry k v es) = if same q k then some v else findEntry q es := by
  intro es
  induction es with
  | nil => rfl
  | cons x xs ih =>
      simp only [insertEntry]
      split
      · simp only [findEntry]
      · next hk =>
          split
          · next hx =>
              simp only [findEntry, ih]
              by_cases hq : same q x.1 = true
              · have hqk : ¬ same q k = true := by
                  intro h
                  have he : x.1 = k := (same_iff.1 hq).symm.trans (same_iff.1 h)
                  rw [he] at hx
                  simp [Ordered.irrefl] at hx
                rw [if_pos hq, if_neg hqk, if_pos hq]
              · simp only [if_neg hq]
          · next hx =>
              have he : k = x.1 :=
                Ordered.eq_of_neither (Bool.eq_false_iff.2 hk) (Bool.eq_false_iff.2 hx)
              simp only [findEntry, ← he]
              split <;> rfl

theorem sorted_insertEntry (k : κ) (v : ν) :
    ∀ {es : List (κ × ν)}, es.Pairwise (fun a b => precedes a.1 b.1 = true) →
      (insertEntry k v es).Pairwise (fun a b => precedes a.1 b.1 = true) := by
  intro es
  induction es with
  | nil => intro _; simp [insertEntry]
  | cons x xs ih =>
      intro h
      obtain ⟨hx, hxs⟩ := List.pairwise_cons.1 h
      simp only [insertEntry]
      split
      · next hk =>
          refine List.pairwise_cons.2 ⟨fun e he => ?_, h⟩
          rcases List.mem_cons.1 he with he | he
          · exact he ▸ hk
          · exact Ordered.trans hk (hx e he)
      · next hk =>
          split
          · next hlt =>
              refine List.pairwise_cons.2 ⟨fun e he => ?_, ih hxs⟩
              rcases mem_insertEntry he with he | he
              · exact he ▸ hlt
              · exact hx e he
          · next hlt =>
              have he : k = x.1 :=
                Ordered.eq_of_neither (Bool.eq_false_iff.2 hk) (Bool.eq_false_iff.2 hlt)
              exact List.pairwise_cons.2 ⟨fun e h' => he ▸ hx e h', hxs⟩

theorem findEntry_eq_some_iff {k : κ} {v : ν} :
    ∀ {es : List (κ × ν)}, es.Pairwise (fun a b => precedes a.1 b.1 = true) →
      (findEntry k es = some v ↔ (k, v) ∈ es) := by
  intro es
  induction es with
  | nil => intro _; simp [findEntry]
  | cons x xs ih =>
      intro h
      obtain ⟨hx, hxs⟩ := List.pairwise_cons.1 h
      simp only [findEntry, List.mem_cons]
      split
      · next hs =>
          have he := same_iff.1 hs
          constructor
          · intro hv; exact Or.inl (by rw [he, ← Option.some.inj hv])
          · rintro (hv | hv)
            · rw [← hv]
            · have hlt := hx (k, v) hv
              rw [he] at hlt
              simp [Ordered.irrefl] at hlt
      · next hs =>
          rw [ih hxs]
          constructor
          · exact Or.inr
          · rintro (hv | hv)
            · exact absurd (same_iff.2 (congrArg Prod.fst hv)) hs
            · exact hv

theorem ext_entries {m n : SortedMap κ ν} (h : m.entries = n.entries) : m = n := by
  cases m; cases n; cases h; rfl

instance [DecidableEq κ] [DecidableEq ν] : DecidableEq (SortedMap κ ν) := fun m n =>
  decidable_of_iff (m.entries = n.entries) ⟨ext_entries, fun h => h ▸ rfl⟩

def empty : SortedMap κ ν := ⟨[], .nil⟩

instance : Inhabited (SortedMap κ ν) := ⟨empty⟩

def size (m : SortedMap κ ν) : Nat := m.entries.length

def keys (m : SortedMap κ ν) : List κ := m.entries.map Prod.fst

def find? (m : SortedMap κ ν) (k : κ) : Option ν := findEntry k m.entries

def contains (m : SortedMap κ ν) (k : κ) : Bool := (m.find? k).isSome

def insert (m : SortedMap κ ν) (k : κ) (v : ν) : SortedMap κ ν :=
  ⟨insertEntry k v m.entries, sorted_insertEntry k v m.sorted⟩

def merge (m n : SortedMap κ ν) : SortedMap κ ν :=
  n.entries.foldl (fun acc e => acc.insert e.1 e.2) m

theorem find?_empty (k : κ) : (empty : SortedMap κ ν).find? k = none := rfl

theorem find?_insert [DecidableEq κ] (m : SortedMap κ ν) (k q : κ) (v : ν) :
    (m.insert k v).find? q = if q = k then some v else m.find? q := by
  rw [find?, insert, findEntry_insertEntry, Ordered.same_eq_decide]
  simp only [decide_eq_true_eq, find?]

theorem find?_insert_same (m : SortedMap κ ν) (k q : κ) (v : ν) :
    (m.insert k v).find? q = if same q k then some v else m.find? q :=
  findEntry_insertEntry k q v m.entries

theorem findEntry_eq_none {k : κ} {es : List (κ × ν)}
    (h : ∀ e ∈ es, same k e.1 = false) : findEntry k es = none := by
  induction es with
  | nil => rfl
  | cons x xs ih =>
      rw [findEntry, h x List.mem_cons_self]
      exact ih (fun e he => h e (List.mem_cons_of_mem _ he))

theorem findEntry_of_precedes {k : κ} {e : κ × ν} {es : List (κ × ν)}
    (h : (e :: es).Pairwise (fun a b => Ordered.precedes a.1 b.1 = true))
    (hk : Ordered.precedes k e.1 = true) : findEntry k (e :: es) = none := by
  apply findEntry_eq_none
  intro x hx
  have hkx : Ordered.precedes k x.1 = true := by
    rcases List.mem_cons.1 hx with rfl | hx
    · exact hk
    · exact Ordered.trans hk ((List.pairwise_cons.1 h).1 x hx)
  simp [Ordered.same, hkx]

theorem find?_foldl_insert {es : List (κ × ν)} (q : κ) :
    es.Pairwise (fun a b => precedes a.1 b.1 = true) → ∀ m : SortedMap κ ν,
      (es.foldl (fun acc e => acc.insert e.1 e.2) m).find? q = (findEntry q es).or (m.find? q) := by
  induction es with
  | nil => intro _ m; rfl
  | cons x xs ih =>
      intro h m
      obtain ⟨hx, hxs⟩ := List.pairwise_cons.1 h
      rw [List.foldl_cons, ih hxs, find?_insert_same, findEntry]
      cases hs : same q x.1 with
      | false => rfl
      | true =>
          have hno : findEntry q xs = none := by
            apply findEntry_eq_none
            intro e he
            rw [same_iff.1 hs]
            simp [same, hx e he]
          rw [hno]
          rfl

theorem find?_merge (m n : SortedMap κ ν) (q : κ) :
    (m.merge n).find? q = (n.find? q).or (m.find? q) :=
  find?_foldl_insert q n.sorted m

theorem size_insertEntry (k : κ) (v : ν) :
    ∀ {es : List (κ × ν)}, es.Pairwise (fun a b => precedes a.1 b.1 = true) →
      (insertEntry k v es).length =
        if (findEntry k es).isSome then es.length else es.length + 1 := by
  intro es
  induction es with
  | nil => intro _; rfl
  | cons x xs ih =>
      intro h
      obtain ⟨hx, hxs⟩ := List.pairwise_cons.1 h
      simp only [insertEntry, findEntry]
      split
      · next hk =>
          have hne : ¬ same k x.1 = true := by simp [same, hk]
          have hno : findEntry k xs = none := by
            cases hf : findEntry k xs with
            | none => rfl
            | some w =>
                have hlt := Ordered.trans hk (hx _ ((findEntry_eq_some_iff hxs).1 hf))
                simp [Ordered.irrefl] at hlt
          simp [hne, hno]
      · next hk =>
          split
          · next hlt =>
              have hne : ¬ same k x.1 = true := by simp [same, hlt]
              simp only [hne, List.length_cons, ih hxs, Bool.false_eq_true, if_false]
              split <;> rfl
          · next hlt =>
              have hs : same k x.1 = true := by simp [same, hk, hlt]
              simp [hs]

theorem size_insert (m : SortedMap κ ν) (k : κ) (v : ν) :
    (m.insert k v).size = if m.contains k then m.size else m.size + 1 :=
  size_insertEntry k v m.sorted

theorem find?_eq_some_iff {m : SortedMap κ ν} {k : κ} {v : ν} :
    m.find? k = some v ↔ (k, v) ∈ m.entries :=
  findEntry_eq_some_iff m.sorted

theorem entries_eq_of_mem_iff :
    ∀ {es fs : List (κ × ν)}, es.Pairwise (fun a b => precedes a.1 b.1 = true) →
      fs.Pairwise (fun a b => precedes a.1 b.1 = true) → (∀ e, e ∈ es ↔ e ∈ fs) → es = fs := by
  intro es
  induction es with
  | nil =>
      intro fs _ _ h
      cases fs with
      | nil => rfl
      | cons y ys => exact absurd ((h y).2 List.mem_cons_self) List.not_mem_nil
  | cons x xs ih =>
      intro fs hes hfs h
      obtain ⟨hx, hxs⟩ := List.pairwise_cons.1 hes
      cases fs with
      | nil => exact absurd ((h x).1 List.mem_cons_self) List.not_mem_nil
      | cons y ys =>
          obtain ⟨hy, hys⟩ := List.pairwise_cons.1 hfs
          have no_self : ∀ {z : κ × ν}, ¬ precedes z.1 z.1 = true := by simp [Ordered.irrefl]
          have hxy : x = y := by
            rcases List.mem_cons.1 ((h x).1 List.mem_cons_self) with e | e
            · exact e
            · rcases List.mem_cons.1 ((h y).2 List.mem_cons_self) with e' | e'
              · exact e'.symm
              · exact absurd (Ordered.trans (hx y e') (hy x e)) no_self
          subst hxy
          have hrest : ∀ e, e ∈ xs ↔ e ∈ ys := by
            intro e
            constructor
            · intro he
              rcases List.mem_cons.1 ((h e).1 (List.mem_cons_of_mem _ he)) with e' | e'
              · exact absurd (e' ▸ hx e he) no_self
              · exact e'
            · intro he
              rcases List.mem_cons.1 ((h e).2 (List.mem_cons_of_mem _ he)) with e' | e'
              · exact absurd (e' ▸ hy e he) no_self
              · exact e'
          rw [ih hxs hys hrest]

theorem ext_find? {m n : SortedMap κ ν} (h : ∀ k, m.find? k = n.find? k) : m = n :=
  ext_entries (entries_eq_of_mem_iff m.sorted n.sorted (fun e => by
    rw [← find?_eq_some_iff (m := m), ← find?_eq_some_iff (m := n), h]))

theorem empty_merge (m : SortedMap κ ν) : empty.merge m = m :=
  ext_find? (fun q => by rw [find?_merge, find?_empty, Option.or_none])

theorem merge_empty (m : SortedMap κ ν) : m.merge empty = m := rfl

theorem merge_insert (m n : SortedMap κ ν) (k : κ) (v : ν) :
    m.merge (n.insert k v) = (m.merge n).insert k v := by
  apply ext_find?
  intro q
  rw [find?_merge, find?_insert_same, find?_insert_same, find?_merge]
  split <;> rfl

theorem insert_insert [DecidableEq κ] (m : SortedMap κ ν) (k : κ) (v w : ν) :
    (m.insert k v).insert k w = m.insert k w := by
  apply ext_find?
  intro q
  simp only [find?_insert]
  split <;> rfl

theorem insert_eq_self {m : SortedMap κ ν} {k : κ} {v : ν} (h : m.find? k = some v) :
    m.insert k v = m := by
  apply ext_find?
  intro q
  rw [find?_insert_same]
  split
  · next hq => rw [same_iff.1 hq, h]
  · rfl

theorem contains_iff {m : SortedMap κ ν} {k : κ} : m.contains k = true ↔ ∃ v, m.find? k = some v :=
  Option.isSome_iff_exists

theorem contains_eq_false_iff {m : SortedMap κ ν} {k : κ} :
    m.contains k = false ↔ m.find? k = none := by
  rw [contains, Option.isSome_eq_false_iff, Option.isNone_iff_eq_none]

theorem contains_insert [DecidableEq κ] (m : SortedMap κ ν) (k q : κ) (v : ν) :
    (m.insert k v).contains q = (decide (q = k) || m.contains q) := by
  rw [contains, find?_insert]
  by_cases h : q = k <;> simp [h, contains]

theorem contains_insert_of_find? [DecidableEq κ] {m : SortedMap κ ν} {k : κ} {v w : ν}
    (h : m.find? k = some v) (q : κ) : (m.insert k w).contains q = m.contains q := by
  rw [contains_insert]
  by_cases hq : q = k
  · rw [hq, contains_iff.2 ⟨v, h⟩, Bool.or_true]
  · rw [decide_eq_false hq, Bool.false_or]

theorem mem_keys_iff {m : SortedMap κ ν} {k : κ} : k ∈ m.keys ↔ m.contains k = true := by
  rw [contains_iff, keys, List.mem_map]
  constructor
  · rintro ⟨e, he, rfl⟩
    exact ⟨e.2, find?_eq_some_iff.2 he⟩
  · rintro ⟨v, hv⟩
    exact ⟨(k, v), find?_eq_some_iff.1 hv, rfl⟩

theorem nodup_keys (m : SortedMap κ ν) : m.keys.Nodup := by
  refine List.pairwise_map.2 (m.sorted.imp ?_)
  intro a b hab he
  rw [he] at hab
  simp [Ordered.irrefl] at hab

theorem nodup_entries (m : SortedMap κ ν) : m.entries.Nodup :=
  List.Pairwise.of_map Prod.fst (fun _ _ hne he => hne (congrArg Prod.fst he)) m.nodup_keys

theorem size_foldl_insert {es : List (κ × ν)} :
    es.Pairwise (fun a b => precedes a.1 b.1 = true) → ∀ m : SortedMap κ ν,
      (es.foldl (fun acc e => acc.insert e.1 e.2) m).size =
        m.size + ((es.map Prod.fst).filter (fun k => ¬ m.contains k)).length := by
  induction es with
  | nil => intro _ m; rfl
  | cons x xs ih =>
      intro h m
      obtain ⟨hx, hxs⟩ := List.pairwise_cons.1 h
      have hrest : (xs.map Prod.fst).filter (fun k => ¬ (m.insert x.1 x.2).contains k) =
          (xs.map Prod.fst).filter (fun k => ¬ m.contains k) := by
        apply List.filter_congr
        intro k hk
        obtain ⟨e, he, rfl⟩ := List.mem_map.1 hk
        have hne : same e.1 x.1 = false := by simp [same, hx e he]
        simp [contains, find?_insert_same, hne]
      rw [List.foldl_cons, ih hxs, hrest, size_insert, List.map_cons, List.filter_cons]
      cases hc : m.contains x.1 with
      | true => simp
      | false =>
          simp only [Bool.false_eq_true, not_false_eq_true, decide_true, if_true, if_false,
            List.length_cons]
          omega

theorem size_merge (m n : SortedMap κ ν) :
    (m.merge n).size = m.size + (n.keys.filter (fun k => ¬ m.contains k)).length :=
  size_foldl_insert n.sorted m

end SortedMap

end TrafficStore
