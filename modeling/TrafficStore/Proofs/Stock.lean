import TrafficStore.Proofs.Lifetime

namespace TrafficStore

open Books

namespace TableId

theorem nodup_ofPanels {ps : List Panel} (h : ps.Nodup) : (ofPanels ps).Nodup := by
  have hshared : (SharedTable.all.map shared).Nodup := by decide
  have hpanels : (ps.flatMap (fun p => Metric.all.map (panel p))).Nodup := by
    refine List.pairwise_flatMap.2 ⟨fun p _ => ?_, h.imp ?_⟩
    · have hmetrics : Metric.all.Nodup := by decide
      exact List.pairwise_map.2 (hmetrics.imp (fun hne he => hne (TableId.panel.inj he).2))
    · intro p q hne x hx y hy he
      obtain ⟨m, _, rfl⟩ := List.mem_map.1 hx
      obtain ⟨n, _, rfl⟩ := List.mem_map.1 hy
      exact hne (TableId.panel.inj he).1
  refine List.nodup_append.2 ⟨hshared, hpanels, ?_⟩
  intro x hx y hy he
  obtain ⟨t, _, rfl⟩ := List.mem_map.1 hx
  obtain ⟨p, _, hy⟩ := List.mem_flatMap.1 hy
  obtain ⟨m, _, rfl⟩ := List.mem_map.1 hy
  cases he

theorem mem_ofPanels {ps : List Panel} {t : TableId} :
    t ∈ ofPanels ps ↔ ∀ p m, t = .panel p m → p ∈ ps := by
  cases t with
  | shared t => simp [ofPanels, t.mem_all]
  | panel p m => simp [ofPanels, m.mem_all]

end TableId

theorem Catalog.ofPanels_congr {ps ps' : List Panel} (h : ∀ p, p ∈ ps ↔ p ∈ ps') :
    ofPanels ps = ofPanels ps' :=
  congrArg listing (List.filter_congr (fun p _ => by simp only [h p]))

theorem Catalog.mem_tables_ofPanels {ps : List Panel} {t : TableId} :
    t ∈ (ofPanels ps).tables ↔ ∀ p m, t = .panel p m → p ∈ ps := by
  change t ∈ TableId.ofPanels (ofPanels ps).panels ↔ _
  simp only [TableId.mem_ofPanels, mem_panels_ofPanels]

def Stocked (ts : List TableId) (c : Content) : Prop :=
  ∀ name, c.contains name = true ↔ name ∈ ts.map TableId.name

namespace Stocked

variable {ts us : List TableId} {c : Content}

theorem empty : Stocked [] .empty := by
  intro name
  exact iff_of_false Bool.false_ne_true List.not_mem_nil

theorem congr (h : Stocked ts c) (hmem : ∀ t, t ∈ ts ↔ t ∈ us) : Stocked us c := by
  intro name
  rw [h name, List.mem_map, List.mem_map]
  exact exists_congr (fun t => and_congr_left' (hmem t))

theorem withTables (h : Stocked ts c) (us : List TableId) :
    Stocked (ts ++ us) (withTables us c) := by
  intro name
  rw [List.map_append, List.mem_append, ← h name, SortedMap.contains, SortedMap.contains,
    Books.withTables, Volatile.Writer.find?_foldl_createTable, Option.isSome_or,
    Bool.or_eq_true]
  refine or_congr_right ?_
  by_cases hmem : name ∈ us.map TableId.name
  · rw [if_pos (List.contains_iff_mem.2 hmem)]
    exact ⟨fun _ => hmem, fun _ => rfl⟩
  · rw [if_neg (fun hc => hmem (List.contains_iff_mem.1 hc))]
    exact iff_of_false Bool.false_ne_true hmem

theorem size_eq (h : Stocked us c) (hnodup : us.Nodup) : c.size = us.length := by
  have hnames : (us.map TableId.name).Nodup :=
    List.pairwise_map.2 (hnodup.imp (fun hne he => hne (TableId.name_injective he)))
  have hperm : c.keys.Perm (us.map TableId.name) := by
    rw [List.perm_ext_iff_of_nodup c.nodup_keys hnames]
    intro name
    rw [SortedMap.mem_keys_iff, h name]
  have hlen := hperm.length_eq
  rw [SortedMap.keys, List.length_map, List.length_map] at hlen
  exact hlen

theorem ready {cat : Catalog} (h : Stocked cat.tables c) : Ready cat c :=
  fun t ht => (h t.name).2 (List.mem_map.2 ⟨t, ht, rfl⟩)

theorem insert (h : Stocked ts c) {t : TableId} (ht : t ∈ ts) (table : Table) :
    Stocked ts (c.insert t.name table) := by
  intro name
  have hname : t.name ∈ ts.map TableId.name := List.mem_map.2 ⟨t, ht, rfl⟩
  rw [SortedMap.contains_insert, Bool.or_eq_true, decide_eq_true_eq, h name]
  constructor
  · rintro (rfl | hn)
    · exact hname
    · exact hn
  · exact .inr

theorem size_flatMap {α : Type} {xs : List α} {panels : α → List Panel}
    (hne : xs ≠ [])
    (h : Stocked (xs.flatMap (fun x => TableId.ofPanels (panels x))) c) :
    c.size = (Catalog.ofPanels (xs.flatMap panels)).size := by
  have hnodup : (Catalog.ofPanels (xs.flatMap panels)).panels.Nodup :=
    List.Pairwise.filter _ (by decide)
  refine (h.congr (fun t => ?_)).size_eq (TableId.nodup_ofPanels hnodup)
  rw [List.mem_flatMap, Catalog.mem_tables_ofPanels]
  constructor
  · rintro ⟨x, hx, ht⟩ p m he
    exact List.mem_flatMap.2 ⟨x, hx, TableId.mem_ofPanels.1 ht p m he⟩
  · intro ht
    cases t with
    | shared t =>
        obtain ⟨x, hx⟩ := List.exists_mem_of_ne_nil xs hne
        exact ⟨x, hx, TableId.mem_ofPanels.2 (fun p m he => nomatch he)⟩
    | panel p m =>
        obtain ⟨x, hx, hp⟩ := List.mem_flatMap.1 (ht p m rfl)
        exact ⟨x, hx, TableId.mem_ofPanels.2 (fun q n he => by cases he; exact hp)⟩

end Stocked

end TrafficStore
