import TrafficStore.Engine.Volatile
import TrafficStore.Proofs.Engine.Isolation

namespace TrafficStore

namespace Volatile.Writer

theorem find?_foldl_createTable (names : List String) (q : String) :
    ∀ c : Content, (names.foldl createTable c).find? q =
      (c.find? q).or (if names.contains q then some .empty else none) := by
  induction names with
  | nil => intro c; simp
  | cons n ns ih =>
      intro c
      have hstep : (createTable c n).find? q =
          (c.find? q).or (if q = n then some .empty else none) := by
        rw [createTable]
        split
        · next h =>
            obtain ⟨t, ht⟩ := SortedMap.contains_iff.1 h
            by_cases hq : q = n
            · simp [hq, ht]
            · simp [hq]
        · next h =>
            have hn := SortedMap.contains_eq_false_iff.1 (Bool.eq_false_iff.2 h)
            rw [SortedMap.find?_insert]
            by_cases hq : q = n
            · simp [hq, hn]
            · simp [hq]
      rw [List.foldl_cons, ih, hstep, Option.or_assoc]
      by_cases hq : q = n <;> simp [hq]

theorem find?_foldl_mergeTable {ts : List (String × Table)} (q : String) :
    ts.Pairwise (fun a b => Ordered.precedes a.1 b.1 = true) → ∀ c : Content,
      (ts.foldl mergeTable c).find? q =
        match SortedMap.findEntry q ts with
        | some s => some (((c.find? q).getD .empty).merge s)
        | none => c.find? q := by
  induction ts with
  | nil => intro _ c; rfl
  | cons t ts ih =>
      intro h c
      obtain ⟨ht, hts⟩ := List.pairwise_cons.1 h
      rw [List.foldl_cons, ih hts, mergeTable, SortedMap.find?_insert, SortedMap.findEntry,
        Ordered.same_eq_decide]
      by_cases hq : q = t.1
      · have hno : SortedMap.findEntry t.1 ts = none :=
          SortedMap.findEntry_eq_none (fun e he => by simp [Ordered.same, ht e he])
        subst hq
        simp [hno]
      · simp [hq]

def Valid (w : Writer) : Prop := ∀ t, w.staged.contains t = true → w.has t = true

theorem find?_outcome {w : Writer} (hw : w.Valid) (q : String) :
    w.outcome.find? q = if w.has q then some (w.table q) else none := by
  rw [outcome, find?_foldl_mergeTable q w.staged.sorted, find?_foldl_createTable]
  change (match w.staged.find? q with | some s => _ | none => _) = _
  rw [has, SortedMap.contains, table, baseTable, stagedTable]
  cases hs : w.staged.find? q with
  | some s =>
      have hq := hw q (SortedMap.contains_iff.2 ⟨s, hs⟩)
      rw [has, SortedMap.contains] at hq
      rw [if_pos hq]
      cases hb : w.base.find? q with
      | some b => rfl
      | none =>
          rw [hb] at hq
          have hc : q ∈ w.created := by simpa using hq
          simp [hc]
  | none =>
      cases hb : w.base.find? q with
      | some b => simp [SortedMap.merge_empty]
      | none => cases w.created.contains q <;> simp [SortedMap.merge_empty]

theorem find?_outcome_of_has {w : Writer} (hw : w.Valid) {q : String} (h : w.has q = true) :
    w.outcome.find? q = some (w.table q) := by
  rw [find?_outcome hw, if_pos h]

theorem find?_outcome_of_not_has {w : Writer} (hw : w.Valid) {q : String} (h : ¬ w.has q = true) :
    w.outcome.find? q = none := by
  rw [find?_outcome hw, if_neg h]

theorem find?_eq_find?_table (w : Writer) (q : String) (key : Bytes) :
    w.find? q key = (w.table q).find? key :=
  (SortedMap.find?_merge _ _ _).symm

theorem count_eq_size_table (w : Writer) (q : String) : w.count q = (w.table q).size :=
  (SortedMap.size_merge _ _).symm

theorem valid_begin (c : Content) : ({ base := c } : Writer).Valid := by
  intro t h
  simp [SortedMap.contains, SortedMap.find?_empty] at h

theorem outcome_begin (c : Content) : ({ base := c } : Writer).outcome = c := rfl

theorem valid_noteCreated {w : Writer} (hw : w.Valid) (q : String) :
    ({ w with created := w.created ++ [q] } : Writer).Valid := by
  intro t h
  have := hw t h
  simp only [has, Bool.or_eq_true, List.contains_iff_mem, List.mem_append] at this ⊢
  rcases this with h | h
  · exact .inl h
  · exact .inr (.inl h)

theorem outcome_noteCreated {w : Writer} (hw : w.Valid) {q : String} (hq : ¬ w.has q = true) :
    ({ w with created := w.created ++ [q] } : Writer).outcome = w.outcome.insert q .empty := by
  have hno : w.staged.find? q = none := by
    rw [← SortedMap.contains_eq_false_iff, Bool.eq_false_iff]
    exact fun h => hq (hw q h)
  have hbase : w.base.find? q = none := by
    rw [← SortedMap.contains_eq_false_iff, Bool.eq_false_iff]
    intro h
    exact hq (by rw [has, h]; rfl)
  apply SortedMap.ext_find?
  intro p
  rw [find?_outcome (valid_noteCreated hw q), SortedMap.find?_insert, find?_outcome hw]
  by_cases hp : p = q
  · subst hp
    simp [has, table, baseTable, stagedTable, hno, hbase, SortedMap.merge_empty]
  · have hhas : ({ w with created := w.created ++ [q] } : Writer).has p = w.has p := by
      simp [has, List.contains_eq_mem, hp]
    rw [hhas, if_neg hp]
    rfl

theorem has_stage (w : Writer) (q : String) (key value : Bytes) (p : String) :
    (w.stage q key value).has p = w.has p := rfl

theorem valid_stage {w : Writer} (hw : w.Valid) {q : String} (hq : w.has q = true)
    (key value : Bytes) : (w.stage q key value).Valid := by
  intro t h
  rw [stage, SortedMap.contains_insert, Bool.or_eq_true, decide_eq_true_eq] at h
  rw [has_stage]
  rcases h with rfl | h
  · exact hq
  · exact hw t h

theorem table_stage (w : Writer) (q : String) (key value : Bytes) (p : String) :
    (w.stage q key value).table p =
      if p = q then (w.table q).insert key value else w.table p := by
  rw [table, stagedTable, stage, SortedMap.find?_insert]
  by_cases hp : p = q
  · subst hp
    rw [if_pos rfl, if_pos rfl, Option.getD_some, SortedMap.merge_insert]
    rfl
  · rw [if_neg hp, if_neg hp]
    rfl

theorem outcome_stage {w : Writer} (hw : w.Valid) {q : String} (hq : w.has q = true)
    (key value : Bytes) :
    (w.stage q key value).outcome = w.outcome.insert q ((w.table q).insert key value) := by
  apply SortedMap.ext_find?
  intro p
  rw [find?_outcome (valid_stage hw hq key value), SortedMap.find?_insert, find?_outcome hw,
    has_stage, table_stage]
  by_cases hp : p = q
  · subst hp
    rw [if_pos hq, if_pos rfl, if_pos rfl]
  · rw [if_neg hp, if_neg hp]

end Volatile.Writer

namespace Volatile

open ScopeViews Writer

instance : ScopeViews Volatile where
  seen c := c
  draft := outcome
  Sound _ := True
  Owns _ w := w.Valid
  Fault x := x.isFull = true
  Takes _ := True

theorem keeps_countLookup (e : Volatile) (t : String) : Keeps e (e.countLookup t) :=
  ⟨id, rfl, fun _ => id⟩

theorem readsAs_reading : ReadsAs (readers Volatile) reading where
  find {table} _ key c e _ _ := by
    cases h : c.find? table with
    | some t =>
        exact ⟨.ok (t.find? key), c, e.countLookup table, by simp only [reading, h],
          keeps_countLookup e table, .inr ⟨Copy.run_find_some h key, trivial⟩⟩
    | none =>
        exact ⟨.error (.unknownTable table), c, e, by simp only [reading, h], .refl e,
          .inr ⟨Copy.run_find_none h key, trivial⟩⟩
  count {table} _ c e _ _ := by
    cases h : c.find? table with
    | some t =>
        exact ⟨.ok t.size, c, e, by simp only [reading, h], .refl e,
          .inr ⟨Copy.run_count_some h, trivial⟩⟩
    | none =>
        exact ⟨.error (.unknownTable table), c, e, by simp only [reading, h], .refl e,
          .inr ⟨Copy.run_count_none h, trivial⟩⟩
  scan {table} _ c e _ _ := by
    cases h : c.find? table with
    | some t =>
        exact ⟨.ok t.entries, c, e, by simp only [reading, h], .refl e,
          .inr ⟨Copy.run_scan_some h, trivial⟩⟩
    | none =>
        exact ⟨.error (.unknownTable table), c, e, by simp only [reading, h], .refl e,
          .inr ⟨Copy.run_scan_none h, trivial⟩⟩

theorem readsAs_rereading : ReadsAs (writers Volatile) rereading where
  find {table} _ key w e _ hw := by
    by_cases h : w.has table = true
    · refine ⟨.ok (w.find? table key), w, e.countLookup table, by simp only [rereading, if_pos h],
        keeps_countLookup e table, .inr ⟨?_, hw⟩⟩
      rw [find?_eq_find?_table]
      exact Copy.run_find_some (find?_outcome_of_has hw h) key
    · exact ⟨.error (.unknownTable table), w, e, by simp only [rereading, if_neg h], .refl e,
        .inr ⟨Copy.run_find_none (find?_outcome_of_not_has hw h) key, hw⟩⟩
  count {table} _ w e _ hw := by
    by_cases h : w.has table = true
    · refine ⟨.ok (w.count table), w, e, by simp only [rereading, if_pos h], .refl e,
        .inr ⟨?_, hw⟩⟩
      rw [count_eq_size_table]
      exact Copy.run_count_some (find?_outcome_of_has hw h)
    · exact ⟨.error (.unknownTable table), w, e, by simp only [rereading, if_neg h], .refl e,
        .inr ⟨Copy.run_count_none (find?_outcome_of_not_has hw h), hw⟩⟩
  scan {table} _ w e _ hw := by
    by_cases h : w.has table = true
    · exact ⟨.ok (w.table table).entries, w, e, by simp only [rereading, if_pos h], .refl e,
        .inr ⟨Copy.run_scan_some (find?_outcome_of_has hw h), hw⟩⟩
    · exact ⟨.error (.unknownTable table), w, e, by simp only [rereading, if_neg h], .refl e,
        .inr ⟨Copy.run_scan_none (find?_outcome_of_not_has hw h), hw⟩⟩

theorem mirrors_create (table : String) :
    Mirrors (writers Volatile) (create table) (Copy.create table) := by
  intro w e _ hw
  by_cases h : w.has table = true
  · have hc : w.outcome.contains table = true :=
      SortedMap.contains_iff.2 ⟨_, find?_outcome_of_has hw h⟩
    refine ⟨.ok (), w, e, by simp only [create, if_pos h], .refl e, .inr ⟨?_, hw⟩⟩
    change (Except.ok (), if w.outcome.contains table then _ else _) = _
    rw [if_pos hc]
  · have hc : ¬ w.outcome.contains table = true := by
      rw [SortedMap.contains, find?_outcome_of_not_has hw h]
      exact Bool.noConfusion
    refine ⟨.ok (), { w with created := w.created ++ [table] }, e,
      by simp only [create, if_neg h], .refl e, .inr ⟨?_, valid_noteCreated hw table⟩⟩
    change (Except.ok (), if w.outcome.contains table then _ else _) = _
    rw [if_neg hc]
    exact congrArg (Prod.mk _) (outcome_noteCreated hw h).symm

theorem mirrors_put (table : String) (key value : Bytes) :
    Mirrors (writers Volatile) (put table key value) (Copy.put table key value) := by
  intro w e _ hw
  by_cases h : w.has table = true
  · by_cases hfull : e.maxSize < addWord (e.used w) (recordSize key value)
    · exact ⟨.error (.full (e.used w).toNat e.maxSize.toNat), w, e,
        by simp only [put, if_pos h, if_pos hfull], .refl e, .inl ⟨_, rfl, rfl⟩⟩
    · refine ⟨.ok (), w.stage table key value, e, by simp only [put, if_pos h, if_neg hfull],
        .refl e, .inr ⟨?_, valid_stage hw h key value⟩⟩
      change (Copy.put table key value).run w.outcome = (.ok (), (w.stage table key value).outcome)
      rw [outcome_stage hw h]
      exact Copy.run_put_some (find?_outcome_of_has hw h) key value
  · exact ⟨.error (.unknownTable table), w, e, by simp only [put, if_neg h], .refl e,
      .inr ⟨Copy.run_put_none (find?_outcome_of_not_has hw h) key value, hw⟩⟩

instance : IsolatedEngine Volatile where
  takes_of_ne_empty _ := trivial
  beginRead_eq e _ := ⟨.ok e.content, e, rfl, .refl e, .inr ⟨e.content, rfl, rfl⟩⟩
  reading_readsAs := readsAs_reading
  endRead_eq _ e := ⟨.ok (), e, rfl, .refl e, .inr rfl⟩
  beginWrite_eq e _ :=
    ⟨.ok { base := e.content }, e, rfl, .refl e,
      .inr ⟨_, rfl, outcome_begin e.content, valid_begin e.content⟩⟩
  rereading_readsAs := readsAs_rereading
  create_mirrors _ := mirrors_create _
  put_mirrors _ := mirrors_put _
  commit_eq _ _ _ _ := ⟨.ok (), _, rfl, .inr ⟨rfl, trivial, rfl⟩⟩
  sync_eq _ e _ := ⟨.ok none, e, rfl, .refl e, .inr ⟨none, rfl⟩⟩
  sound_restart _ := id
  committed_restart _ := rfl

end Volatile

end TrafficStore
