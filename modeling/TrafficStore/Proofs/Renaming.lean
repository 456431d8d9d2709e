import TrafficStore.Proofs.Consistency

namespace TrafficStore

open Books LogRecord Allocator

namespace Books

def keyOf? (b : Books) (p : Panel) (id : Int32) : Option String :=
  ((b.ids (.keys p)).entries.find? (fun e => e.2 = id)).map Prod.fst

def under {ν : Type} (b : Books) (p : Panel) (m : SortedMap Int32 ν) (key : String) : Option ν :=
  ((b.ids (.keys p)).find? key).bind m.find?

def named (b : Books) (d : Dump) : List (Option String × Value) :=
  d.items.map (fun x => (b.keyOf? d.panel x.key, x.value))

structure Renamed (b b' : Books) : Prop where
  requests : b.requestTotal = b'.requestTotal
  bytes : b.byteTotal = b'.byteTotal
  keys : ∀ p key, (b.ids (.keys p)).contains key = (b'.ids (.keys p)).contains key
  labels : ∀ p key, b.under p (b.labels p) key = b'.under p (b'.labels p) key
  hits : ∀ p key, b.under p (b.hits p) key = b'.under p (b'.hits p) key
  bandwidths : ∀ p key, b.under p (b.bandwidths p) key = b'.under p (b'.bandwidths p) key
  dumps : ∀ p, p ≠ .visitors → (b.named (b.dumped p)).Perm (b'.named (b'.dumped p))

variable {b : Books} {p : Panel} {keys : List String} {key : String}

theorem keyOf?_idOf (h : Numbers (b.ids (.keys p)) keys) (hkey : key ∈ keys) :
    b.keyOf? p (idOf keys key) = some key := by
  have hentry := SortedMap.find?_eq_some_iff.1 (h.find_of_mem hkey)
  rw [keyOf?]
  cases hfound : (b.ids (.keys p)).entries.find? (fun e => e.2 = idOf keys key) with
  | none => exact absurd (List.find?_eq_none.1 hfound _ hentry) (by simp)
  | some e =>
      have hid : e.2 = idOf keys key := by simpa using List.find?_some hfound
      have hfind := SortedMap.find?_eq_some_iff.2 (List.mem_of_find?_eq_some hfound)
      rw [h.find] at hfind
      split at hfind
      · have he := Option.some.inj hfind
        rw [hid] at he
        exact congrArg some (idOf_inj h.bounded hkey he.symm).symm
      · cases hfind

theorem under_eq {ν : Type} {m : SortedMap Int32 ν} {f : String → Option ν}
    (h : Numbers (b.ids (.keys p)) keys) (hm : Indexed keys m f) : b.under p m key = f key := by
  rw [under, h.find]
  by_cases hkey : key ∈ keys
  · rw [if_pos hkey]
    exact hm.find key hkey
  · rw [if_neg hkey, hm.within key hkey]
    rfl

end Books

namespace LogRecord

variable {rs rs' : List LogRecord}

theorem bytesOf_perm (h : rs.Perm rs') : bytesOf rs = bytesOf rs' := by
  rw [bytesOf_eq_sum, bytesOf_eq_sum]
  exact (h.map _).sum_eq

theorem keysOf_perm (h : rs.Perm rs') (p : Panel) : (keysOf p rs).Perm (keysOf p rs') := by
  rw [List.perm_ext_iff_of_nodup (nodup_keysOf p rs) (nodup_keysOf p rs')]
  intro key
  simp only [mem_keysOf, h.mem_iff]

theorem occurrences_perm (h : rs.Perm rs') (p : Panel) (key : String) :
    (occurrences p key rs).Perm (occurrences p key rs') := h.filter _

end LogRecord

theorem perKey_perm {ν : Type} {g : String → List LogRecord → ν} {rs rs' : List LogRecord}
    (hg : ∀ key {xs ys : List LogRecord}, xs.Perm ys → g key xs = g key ys) (h : rs.Perm rs')
    (p : Panel) (key : String) : perKey g p rs key = perKey g p rs' key := by
  have hoccurrences := occurrences_perm h p key
  have hempty : occurrences p key rs = [] ↔ occurrences p key rs' = [] := by
    rw [← List.length_eq_zero_iff, ← List.length_eq_zero_iff, hoccurrences.length_eq]
  rw [perKey, perKey, noted, noted, hg key hoccurrences]
  exact if_congr hempty rfl rfl

namespace Tally

theorem hitsOf_perm (key : String) {xs ys : List LogRecord} (h : xs.Perm ys) :
    hitsOf key xs = hitsOf key ys := by
  rw [hitsOf, hitsOf, h.length_eq]

theorem bandwidthOf_perm (key : String) {xs ys : List LogRecord} (h : xs.Perm ys) :
    bandwidthOf key xs = bandwidthOf key ys :=
  congrArg clampWord (bytesOf_perm h)

variable {rs rs' : List LogRecord} {b b' : Books}

theorem Of.named_dumped (h : (uniform rs).Of b) {p : Panel} (hp : p ≠ .visitors) :
    (b.named (b.dumped p)).Perm ((keysOf p rs).map
      (fun key => (some key, .int (hitsOf key (occurrences p key rs))))) := by
  have hdumped : b.dumped p = ⟨p, .integer, ((b.hits p).entries.mergeSort largerFirst).map
      (fun e => ⟨e.1, .int e.2⟩)⟩ := by
    cases p with
    | visitors => exact absurd rfl hp
    | _ => rfl
  have hslots := (List.mergeSort_perm (b.hits p).entries largerFirst).trans
    ((h.counted p).slots_perm (h.bounded p))
  rw [hdumped, named, List.map_map]
  refine (hslots.map _).trans ?_
  rw [List.map_map]
  refine .of_eq (List.map_congr_left (fun key hkey => ?_))
  exact congrArg (fun k => (k, Value.int _)) (keyOf?_idOf (h.numbers p) hkey)

theorem Of.renamed (h : (uniform rs).Of b) (h' : (uniform rs').Of b') (hperm : rs.Perm rs') :
    b.Renamed b' where
  requests := by
    rw [h.requestTotal_eq, h'.requestTotal_eq]
    exact congrArg clampWord hperm.length_eq
  bytes := by
    rw [h.byteTotal_eq, h'.byteTotal_eq]
    exact congrArg clampWord (bytesOf_perm hperm)
  keys p key := by
    rw [Bool.eq_iff_iff, (h.numbers p).contains_iff, (h'.numbers p).contains_iff]
    exact (keysOf_perm hperm p).mem_iff
  labels p key := by
    rw [under_eq (h.numbers p) (h.labelled p), under_eq (h'.numbers p) (h'.labelled p)]
    exact perKey_perm (fun _ _ _ _ => rfl) hperm p key
  hits p key := by
    rw [under_eq (h.numbers p) (h.counted p), under_eq (h'.numbers p) (h'.counted p)]
    exact perKey_perm hitsOf_perm hperm p key
  bandwidths p key := by
    rw [under_eq (h.numbers p) (h.measured p), under_eq (h'.numbers p) (h'.measured p)]
    exact perKey_perm bandwidthOf_perm hperm p key
  dumps p hp := by
    refine (h.named_dumped hp).trans (.trans ?_ (h'.named_dumped hp).symm)
    refine ((keysOf_perm hperm p).map _).trans (.of_eq (List.map_congr_left (fun key _ => ?_)))
    rw [hitsOf_perm key (occurrences_perm hperm p key)]

end Tally

end TrafficStore
