import TrafficStore.Ingest
import TrafficStore.Proofs.Leads
import TrafficStore.Proofs.Numbering

namespace TrafficStore

open Allocator

namespace LogRecord

def keysOf (p : Panel) (rs : List LogRecord) : List String :=
  ((rs.filter (fun r => r.panel = p)).map LogRecord.key).eraseDups

def occurrences (p : Panel) (key : String) (rs : List LogRecord) : List LogRecord :=
  rs.filter (fun r => r.panel = p ∧ r.key = key)

def bytesOf : List LogRecord → Nat
  | [] => 0
  | r :: rs => r.bytes.toNat + bytesOf rs

variable {p : Panel} {key : String} {rs : List LogRecord} {r : LogRecord}

theorem mem_keysOf : key ∈ keysOf p rs ↔ ∃ r ∈ rs, r.panel = p ∧ r.key = key := by
  simp only [keysOf, List.mem_eraseDups, List.mem_map, List.mem_filter, decide_eq_true_eq,
    and_assoc]

theorem nodup_keysOf (p : Panel) (rs : List LogRecord) : (keysOf p rs).Nodup :=
  nodup_eraseDups _

theorem keysOf_mono {more : List LogRecord} (h : rs ⊆ more) : keysOf p rs ⊆ keysOf p more := by
  intro key hkey
  obtain ⟨r, hr, hslot⟩ := mem_keysOf.1 hkey
  exact mem_keysOf.2 ⟨r, h hr, hslot⟩

theorem keysOf_append_same (rs : List LogRecord) (r : LogRecord) :
    keysOf r.panel (rs ++ [r]) = note (keysOf r.panel rs) (some r.key) := by
  rw [keysOf, List.filter_append, List.map_append, List.filter_cons_of_pos (by simp),
    List.filter_nil, List.map_singleton, eraseDups_append_singleton]
  rfl

theorem length_keysOf_le (p : Panel) (rs more : List LogRecord) :
    (keysOf p rs).length ≤ (keysOf p (rs ++ more)).length := by
  rw [keysOf, keysOf, List.filter_append, List.map_append, List.eraseDups_append,
    List.length_append]
  exact Nat.le_add_right _ _

theorem mem_keysOf_append (rs : List LogRecord) (r : LogRecord) :
    r.key ∈ keysOf r.panel (rs ++ [r]) := by
  rw [keysOf_append_same, note]
  split
  · next h => exact h
  · exact List.mem_append_right _ List.mem_cons_self

theorem keysOf_append_other (h : r.panel ≠ p) (rs : List LogRecord) :
    keysOf p (rs ++ [r]) = keysOf p rs := by
  rw [keysOf, List.filter_append, List.filter_cons_of_neg (by simpa using h), List.filter_nil,
    List.append_nil]
  rfl

theorem occurrences_append_same (rs : List LogRecord) (r : LogRecord) :
    occurrences r.panel r.key (rs ++ [r]) = occurrences r.panel r.key rs ++ [r] := by
  rw [occurrences, List.filter_append, List.filter_cons_of_pos (by simp), List.filter_nil]
  rfl

theorem occurrences_append_other (h : ¬(r.panel = p ∧ r.key = key)) (rs : List LogRecord) :
    occurrences p key (rs ++ [r]) = occurrences p key rs := by
  rw [occurrences, List.filter_append, List.filter_cons_of_neg (by simpa using h),
    List.filter_nil, List.append_nil]
  rfl

theorem occurrences_eq_nil : occurrences p key rs = [] ↔ key ∉ keysOf p rs := by
  rw [occurrences, List.filter_eq_nil_iff, keysOf, List.mem_eraseDups]
  simp only [List.mem_map, List.mem_filter, decide_eq_true_eq, not_exists, not_and]
  exact ⟨fun h r hr => h r hr.1 hr.2, fun h r hr hp => h r ⟨hr, hp⟩⟩

theorem bytesOf_append_singleton (rs : List LogRecord) (r : LogRecord) :
    bytesOf (rs ++ [r]) = bytesOf rs + r.bytes.toNat := by
  induction rs with
  | nil => exact Nat.add_comm _ _
  | cons q rs ih => rw [List.cons_append, bytesOf, bytesOf, ih, Nat.add_assoc]

end LogRecord

open LogRecord

def noted {ν : Type} (g : List LogRecord → ν) (rs : List LogRecord) : Option ν :=
  if rs = [] then none else some (g rs)

theorem noted_append_singleton {ν : Type} (g : List LogRecord → ν) (rs : List LogRecord)
    (r : LogRecord) : noted g (rs ++ [r]) = some (g (rs ++ [r])) :=
  if_neg (by simp)

theorem getD_noted {ν : Type} {g : List LogRecord → ν} (rs : List LogRecord) :
    (noted g rs).getD (g []) = g rs := by
  rw [noted]
  split
  · next h => rw [h]; rfl
  · rfl

def perKey {ν : Type} (g : String → List LogRecord → ν) (p : Panel) (rs : List LogRecord)
    (key : String) : Option ν :=
  noted (g key) (occurrences p key rs)

theorem perKey_of_mem {ν : Type} {g : String → List LogRecord → ν} {p : Panel}
    {rs : List LogRecord} {key : String} (hkey : key ∈ keysOf p rs) :
    perKey g p rs key = some (g key (occurrences p key rs)) := by
  rw [perKey, noted, if_neg (mt occurrences_eq_nil.1 (not_not_intro hkey))]

section PerKey

variable {ν : Type} {g : String → List LogRecord → ν} {p : Panel} {r : LogRecord}

theorem perKey_append_same (rs : List LogRecord) (r : LogRecord) (key : String) :
    perKey g r.panel (rs ++ [r]) key = if key = r.key
      then some (g r.key (occurrences r.panel r.key rs ++ [r]))
      else perKey g r.panel rs key := by
  rw [perKey]
  by_cases hkey : key = r.key
  · subst hkey
    rw [if_pos rfl, occurrences_append_same, noted_append_singleton]
  · rw [if_neg hkey, occurrences_append_other (fun h => hkey h.2.symm), perKey]

theorem perKey_append_other (h : r.panel ≠ p) (rs : List LogRecord) :
    perKey g p (rs ++ [r]) = perKey g p rs := by
  funext key
  rw [perKey, occurrences_append_other (fun hp => h hp.1), perKey]

end PerKey

structure Indexed {ν : Type} (keys : List String) (m : SortedMap Int32 ν)
    (f : String → Option ν) : Prop where
  find : ∀ key ∈ keys, m.find? (idOf keys key) = f key
  within : ∀ key ∉ keys, f key = none
  only : ∀ id, m.contains id = true → ∃ key ∈ keys, id = idOf keys key

namespace Indexed

variable {ν : Type} {keys : List String} {m : SortedMap Int32 ν} {f : String → Option ν}
  {g : String → List LogRecord → ν} {rs : List LogRecord} {r : LogRecord}

theorem congr (h : Indexed keys m f) {keys' : List String} {f' : String → Option ν}
    (hkeys : keys' = keys) (hf : f' = f) : Indexed keys' m f' := by
  rw [hkeys, hf]
  exact h

theorem note (h : Indexed keys m f) {key : String}
    (hbounded : (note keys (some key)).length ≤ maxId) :
    Indexed (Allocator.note keys (some key)) m f := by
  rw [Allocator.note] at hbounded ⊢
  by_cases hkey : key ∈ keys
  · rw [if_pos hkey]
    exact h
  · rw [if_neg hkey] at hbounded ⊢
    refine ⟨fun q hq => ?_, fun q hq => ?_, fun id hid => ?_⟩
    · rcases List.mem_append.1 hq with hmem | hmem
      · rw [idOf_append_of_mem hmem]
        exact h.find q hmem
      · obtain rfl := List.mem_singleton.1 hmem
        rw [h.within q hkey, ← SortedMap.contains_eq_false_iff, Bool.eq_false_iff]
        intro hid
        obtain ⟨k, hk, he⟩ := h.only _ hid
        rw [← idOf_append_of_mem hk [q]] at he
        exact hkey (idOf_inj hbounded hq he ▸ hk)
    · exact h.within q (fun hmem => hq (List.mem_append_left _ hmem))
    · obtain ⟨k, hk, rfl⟩ := h.only id hid
      exact ⟨k, List.mem_append_left _ hk, (idOf_append_of_mem hk _).symm⟩

theorem insert (h : Indexed keys m f) (hbounded : keys.length ≤ maxId) {key : String}
    (hkey : key ∈ keys) (v : ν) :
    Indexed keys (m.insert (idOf keys key) v) (fun q => if q = key then some v else f q) := by
  refine ⟨fun q hq => ?_, fun q hq => ?_, fun id hid => ?_⟩
  · rw [SortedMap.find?_insert]
    by_cases he : q = key
    · subst he
      rw [if_pos rfl, if_pos rfl]
    · rw [if_neg he, if_neg (fun hid => he (idOf_inj hbounded hq hid))]
      exact h.find q hq
  · rw [if_neg (fun he : q = key => hq (he.symm ▸ hkey))]
    exact h.within q hq
  · rw [SortedMap.contains_insert, Bool.or_eq_true, decide_eq_true_eq] at hid
    rcases hid with rfl | hid
    · exact ⟨key, hkey, rfl⟩
    · exact h.only id hid

theorem count (h : Indexed keys m (perKey g r.panel rs)) (hbounded : keys.length ≤ maxId)
    (hkey : r.key ∈ keys) :
    Indexed keys (m.insert (idOf keys r.key) (g r.key (occurrences r.panel r.key rs ++ [r])))
      (perKey g r.panel (rs ++ [r])) := by
  rw [funext (perKey_append_same rs r)]
  exact h.insert hbounded hkey _

theorem find_getD (h : Indexed keys m (perKey g r.panel rs)) (hkey : r.key ∈ keys) :
    (m.find? (idOf keys r.key)).getD (g r.key []) = g r.key (occurrences r.panel r.key rs) := by
  rw [h.find r.key hkey, perKey, getD_noted]

theorem entries_perm (h : Indexed keys m f) (hnodup : keys.Nodup) (hbounded : keys.length ≤ maxId)
    {v : String → ν} (hv : ∀ key ∈ keys, f key = some (v key)) :
    m.entries.Perm (keys.map (fun key => (idOf keys key, v key))) := by
  have hes : (keys.map (fun key => (idOf keys key, v key))).Nodup := by
    refine List.pairwise_map.2 (hnodup.imp_of_mem (fun ha _ hne he => hne ?_))
    exact idOf_inj hbounded ha (Prod.mk.inj he).1
  rw [List.perm_ext_iff_of_nodup m.nodup_entries hes]
  rintro ⟨id, w⟩
  rw [← SortedMap.find?_eq_some_iff, List.mem_map]
  constructor
  · intro hid
    obtain ⟨key, hkey, rfl⟩ := h.only id (SortedMap.contains_iff.2 ⟨w, hid⟩)
    rw [h.find key hkey, hv key hkey] at hid
    exact ⟨key, hkey, by rw [Option.some.inj hid]⟩
  · rintro ⟨key, hkey, he⟩
    obtain ⟨rfl, rfl⟩ := Prod.mk.inj he
    rw [h.find key hkey, hv key hkey]

end Indexed

namespace Books

def bandwidths (b : Books) (p : Panel) : SortedMap Int32 UInt64 := b (.panel p .bandwidth)

def stats (b : Books) : SortedMap String UInt64 := b (.shared .generalStats)

end Books

structure Tally where
  keys : List LogRecord
  labels : List LogRecord
  hits : List LogRecord
  bytes : List LogRecord
  requests : List LogRecord
  total : List LogRecord

namespace Tally

def uniform (rs : List LogRecord) : Tally := ⟨rs, rs, rs, rs, rs, rs⟩

def noteKey (T : Tally) (r : LogRecord) : Tally := { T with keys := T.keys ++ [r] }

def noteLabel (T : Tally) (r : LogRecord) : Tally := { T with labels := T.labels ++ [r] }

def noteHit (T : Tally) (r : LogRecord) : Tally := { T with hits := T.hits ++ [r] }

def noteBytes (T : Tally) (r : LogRecord) : Tally := { T with bytes := T.bytes ++ [r] }

def noteRequest (T : Tally) (r : LogRecord) : Tally := { T with requests := T.requests ++ [r] }

def noteTotal (T : Tally) (r : LogRecord) : Tally := { T with total := T.total ++ [r] }

def add (T : Tally) (r : LogRecord) : Tally :=
  (((((T.noteKey r).noteLabel r).noteHit r).noteBytes r).noteRequest r).noteTotal r

def stages (T : Tally) (r : LogRecord) : List Tally :=
  [T, T.noteKey r, (T.noteKey r).noteLabel r, ((T.noteKey r).noteLabel r).noteHit r,
    (((T.noteKey r).noteLabel r).noteHit r).noteBytes r,
    ((((T.noteKey r).noteLabel r).noteHit r).noteBytes r).noteRequest r]

theorem foldl_add_uniform (rs more : List LogRecord) :
    more.foldl add (uniform rs) = uniform (rs ++ more) := by
  induction more generalizing rs with
  | nil => rw [List.append_nil]; rfl
  | cons r more ih => rw [List.foldl_cons, List.append_cons, ← ih]; rfl

def labelOf (key : String) (_ : List LogRecord) : String := beforeNul key

def hitsOf (_ : String) (rs : List LogRecord) : Int32 := clampInt rs.length

def requestsOf (rs : List LogRecord) : UInt64 := clampWord rs.length

def totalOf (rs : List LogRecord) : UInt64 := clampWord (bytesOf rs)

def bandwidthOf (_ : String) : List LogRecord → UInt64 := totalOf

theorem addInt_hitsOf (key : String) (rs : List LogRecord) (r : LogRecord) :
    addInt (hitsOf key rs) 1 = hitsOf key (rs ++ [r]) := by
  rw [hitsOf, hitsOf, addInt_clampInt, List.length_append]
  rfl

theorem addWord_requestsOf (rs : List LogRecord) (r : LogRecord) :
    addWord (requestsOf rs) 1 = requestsOf (rs ++ [r]) := by
  rw [requestsOf, requestsOf, addWord_clampWord, List.length_append]
  rfl

theorem addWord_totalOf (rs : List LogRecord) (r : LogRecord) :
    addWord (totalOf rs) r.bytes = totalOf (rs ++ [r]) := by
  rw [totalOf, totalOf, addWord_clampWord, bytesOf_append_singleton]

def stat (T : Tally) (name : String) : Option UInt64 :=
  if name = totalRequests then noted requestsOf T.requests
  else if name = totalBytes then noted totalOf T.total
  else none

def Describes (T : Tally) : (t : TableId) → SortedMap t.Index t.Cell → Prop
  | .panel p .keyMap, m => Numbers m (keysOf p T.keys)
  | .panel p .dataMap, m => Indexed (keysOf p T.keys) m (perKey labelOf p T.labels)
  | .panel p .hits, m => Indexed (keysOf p T.keys) m (perKey hitsOf p T.hits)
  | .panel p .bandwidth, m => Indexed (keysOf p T.keys) m (perKey bandwidthOf p T.bytes)
  | .shared .generalStats, m => ∀ name, m.find? name = T.stat name
  | _, m => m = .empty

def Of (T : Tally) (b : Books) : Prop := ∀ t, T.Describes t (b t)

theorem of_empty : (uniform []).Of .empty := by
  have hindexed : ∀ {ν} {p} {g : String → List LogRecord → ν},
      Indexed (keysOf p []) .empty (perKey g p []) :=
    ⟨fun _ h => (nomatch h), fun _ _ => rfl, fun _ h => (nomatch h)⟩
  intro t
  cases t with
  | shared t =>
      cases t with
      | generalStats =>
          intro (name : String)
          change none = if name = totalRequests then none else
            if name = totalBytes then none else none
          rw [ite_self, ite_self]
      | _ => rfl
  | panel p m =>
      cases m with
      | keyMap => exact .empty
      | dataMap | hits | bandwidth => exact hindexed
      | _ => rfl

variable {T : Tally} {b : Books} {r : LogRecord}

theorem Of.numbers (h : T.Of b) (p : Panel) : Numbers (b.ids (.keys p)) (keysOf p T.keys) :=
  h (.panel p .keyMap)

theorem Of.bounded (h : T.Of b) (p : Panel) : (keysOf p T.keys).length ≤ maxId :=
  (h.numbers p).bounded

theorem Of.set {T' : Tally} (h : T.Of b) {t : TableId} {m : SortedMap t.Index t.Cell}
    (hm : T'.Describes t m) (hother : ∀ u, u ≠ t → T.Describes u (b u) → T'.Describes u (b u)) :
    T'.Of (b.set t m) := by
  intro u
  by_cases hu : u = t
  · subst hu
    rw [b.set_self]
    exact hm
  · rw [b.set_other m hu]
    exact hother u hu (h u)

theorem Describes.of_agree {T' : Tally} {u : TableId} {m : SortedMap u.Index u.Cell}
    (h : T.Describes u m) (hkeys : T'.keys = T.keys)
    (hlabels : ∀ p, u = .panel p .dataMap →
      perKey labelOf p T'.labels = perKey labelOf p T.labels)
    (hhits : ∀ p, u = .panel p .hits → perKey hitsOf p T'.hits = perKey hitsOf p T.hits)
    (hbytes : ∀ p, u = .panel p .bandwidth →
      perKey bandwidthOf p T'.bytes = perKey bandwidthOf p T.bytes)
    (hstats : u = .shared .generalStats → T'.stat = T.stat) : T'.Describes u m := by
  cases u with
  | shared t =>
      cases t with
      | generalStats =>
          intro name
          rw [hstats rfl]
          exact h name
      | _ => exact h
  | panel p metric =>
      cases metric with
      | keyMap =>
          rw [Describes, hkeys]
          exact h
      | dataMap => exact Indexed.congr h (congrArg (keysOf p) hkeys) (hlabels p rfl)
      | hits => exact Indexed.congr h (congrArg (keysOf p) hkeys) (hhits p rfl)
      | bandwidth => exact Indexed.congr h (congrArg (keysOf p) hkeys) (hbytes p rfl)
      | _ => exact h

theorem Of.key (h : T.Of b) {m : SortedMap String Int32}
    (hm : Numbers m (note (keysOf r.panel T.keys) (some r.key))) :
    (T.noteKey r).Of (b.set (.panel r.panel .keyMap) m) := by
  have hbounded := hm.bounded
  rw [← keysOf_append_same] at hm hbounded
  refine h.set hm (fun u hu hd => ?_)
  have hindexed : ∀ {ν} {q} {m : SortedMap Int32 ν} {f}, Indexed (keysOf q T.keys) m f →
      Indexed (keysOf q (T.keys ++ [r])) m f := by
    intro ν q m f hf
    by_cases hq : r.panel = q
    · subst hq
      rw [keysOf_append_same] at hbounded ⊢
      exact hf.note hbounded
    · rw [keysOf_append_other hq]
      exact hf
  cases u with
  | shared t => cases t <;> exact hd
  | panel q metric =>
      cases metric with
      | keyMap =>
          have hq : r.panel ≠ q := fun he => hu (by rw [he])
          change Numbers _ (keysOf q (T.keys ++ [r]))
          rw [keysOf_append_other hq]
          exact hd
      | dataMap | hits | bandwidth => exact hindexed hd
      | _ => exact hd

theorem Of.allocate (h : T.Of b) (r : LogRecord) {table : String} {F : StorageError → Prop}
    (hexhausted : maxId < (keysOf r.panel (T.keys ++ [r])).length → F (.idsExhausted table)) :
    ((Turn.allocate table r.key).map (fun a => some a.id)).Yields (b.ids (.keys r.panel))
      (fun id m => id = some (idOf (keysOf r.panel (T.keys ++ [r])) r.key) ∧
        (T.noteKey r).Of (b.set (.panel r.panel .keyMap) m)) F := by
  have hturn := (h.numbers r.panel).allocate table r.key
  rw [Turn.Yields, Turn.map]
  cases ha : Turn.allocate table r.key (b.ids (.keys r.panel)) with
  | error x =>
      rw [ha] at hturn
      obtain ⟨rfl, hnew, hfull⟩ := hturn
      refine hexhausted ?_
      rw [keysOf_append_same, note, if_neg hnew, List.length_append, hfull]
      exact Nat.lt_succ_self maxId
  | ok q =>
      rw [ha] at hturn
      obtain ⟨hid, hnumbers, _⟩ := hturn
      refine ⟨?_, h.key hnumbers⟩
      rw [hid, keysOf_append_same, idOf_note]
      split <;> rfl

theorem Of.label (h : T.Of b) (hkey : r.key ∈ keysOf r.panel T.keys) :
    (T.noteLabel r).Of (b.set (.panel r.panel .dataMap)
      ((b.labels r.panel).insert (idOf (keysOf r.panel T.keys) r.key) (beforeNul r.key))) := by
  have hlabels : Indexed _ (b.labels r.panel) (perKey labelOf r.panel T.labels) :=
    h (.panel r.panel .dataMap)
  refine h.set (hlabels.count (h.bounded _) hkey) (fun u hu hd => ?_)
  refine hd.of_agree rfl (fun p he => ?_) (fun _ _ => rfl) (fun _ _ => rfl) (fun _ => rfl)
  exact perKey_append_other (fun hp => hu (by rw [he, hp])) _

theorem Of.hit (h : T.Of b) (hkey : r.key ∈ keysOf r.panel T.keys) :
    (T.noteHit r).Of (b.set (.panel r.panel .hits)
      ((b.hits r.panel).insert (idOf (keysOf r.panel T.keys) r.key)
        (addInt (((b.hits r.panel).find? (idOf (keysOf r.panel T.keys) r.key)).getD 0) 1))) := by
  have hhits : Indexed _ (b.hits r.panel) (perKey hitsOf r.panel T.hits) :=
    h (.panel r.panel .hits)
  have hget : ((b.hits r.panel).find? (idOf (keysOf r.panel T.keys) r.key)).getD 0 = _ :=
    hhits.find_getD hkey
  rw [hget, addInt_hitsOf]
  refine h.set (hhits.count (h.bounded _) hkey) (fun u hu hd => ?_)
  refine hd.of_agree rfl (fun _ _ => rfl) (fun p he => ?_) (fun _ _ => rfl) (fun _ => rfl)
  exact perKey_append_other (fun hp => hu (by rw [he, hp])) _

theorem Of.bandwidth (h : T.Of b) (hkey : r.key ∈ keysOf r.panel T.keys) :
    (T.noteBytes r).Of (b.set (.panel r.panel .bandwidth)
      ((b.bandwidths r.panel).insert (idOf (keysOf r.panel T.keys) r.key)
        (addWord (((b.bandwidths r.panel).find? (idOf (keysOf r.panel T.keys) r.key)).getD 0)
          r.bytes))) := by
  have hbytes : Indexed _ (b.bandwidths r.panel) (perKey bandwidthOf r.panel T.bytes) :=
    h (.panel r.panel .bandwidth)
  have hget : ((b.bandwidths r.panel).find? (idOf (keysOf r.panel T.keys) r.key)).getD 0 = _ :=
    hbytes.find_getD hkey
  rw [hget, bandwidthOf, addWord_totalOf]
  refine h.set (hbytes.count (h.bounded _) hkey) (fun u hu hd => ?_)
  refine hd.of_agree rfl (fun _ _ => rfl) (fun _ _ => rfl) (fun p he => ?_) (fun _ => rfl)
  exact perKey_append_other (fun hp => hu (by rw [he, hp])) _

theorem Of.stat (h : T.Of b) (name : String) : b.stats.find? name = T.stat name :=
  h (.shared .generalStats) name

theorem Of.request (h : T.Of b) (r : LogRecord) : (T.noteRequest r).Of
    (b.set (.shared .generalStats) (b.stats.insert totalRequests
      (addWord ((b.stats.find? totalRequests).getD 0) 1))) := by
  have hget : (b.stats.find? totalRequests).getD 0 = requestsOf T.requests := by
    rw [h.stat]
    exact getD_noted T.requests
  rw [hget, addWord_requestsOf _ r]
  have hstats : ∀ name, (b.stats.insert totalRequests (requestsOf (T.requests ++ [r]))).find? name =
      (T.noteRequest r).stat name := by
    intro name
    rw [SortedMap.find?_insert, h.stat, Tally.stat, Tally.stat]
    by_cases hname : name = totalRequests
    · rw [if_pos hname, if_pos hname]
      exact (noted_append_singleton _ _ r).symm
    · rw [if_neg hname, if_neg hname, if_neg hname]
      rfl
  exact h.set hstats (fun u hu hd => hd.of_agree rfl (fun _ _ => rfl) (fun _ _ => rfl)
    (fun _ _ => rfl) (fun he => absurd he hu))

theorem Of.byteCount (h : T.Of b) (r : LogRecord) : (T.noteTotal r).Of
    (b.set (.shared .generalStats) (b.stats.insert totalBytes
      (addWord ((b.stats.find? totalBytes).getD 0) r.bytes))) := by
  have hget : (b.stats.find? totalBytes).getD 0 = totalOf T.total := by
    rw [h.stat]
    exact getD_noted T.total
  rw [hget, addWord_totalOf]
  have hstats : ∀ name, (b.stats.insert totalBytes (totalOf (T.total ++ [r]))).find? name =
      (T.noteTotal r).stat name := by
    intro name
    rw [SortedMap.find?_insert, h.stat, Tally.stat, Tally.stat]
    by_cases hname : name = totalBytes
    · have hother : name ≠ totalRequests := by
        rw [hname]
        decide
      rw [if_pos hname, if_neg hother, if_pos hname]
      exact (noted_append_singleton _ _ r).symm
    · rw [if_neg hname, if_neg hname, if_neg hname]
      rfl
  exact h.set hstats (fun u hu hd => hd.of_agree rfl (fun _ _ => rfl) (fun _ _ => rfl)
    (fun _ _ => rfl) (fun he => absurd he hu))

end Tally

end TrafficStore
