import TrafficStore.Proofs.Accesses
import TrafficStore.Proofs.Layout

namespace TrafficStore

abbrev Books : Type := (t : TableId) → SortedMap t.Index t.Cell

namespace Books

def empty : Books := fun _ => .empty

def set (b : Books) (t : TableId) (m : SortedMap t.Index t.Cell) : Books := fun u =>
  if h : u = t then h ▸ m else b u

theorem set_self (b : Books) (t : TableId) (m : SortedMap t.Index t.Cell) : b.set t m t = m := by
  rw [set, dif_pos rfl]

theorem set_other (b : Books) {t u : TableId} (m : SortedMap t.Index t.Cell) (h : u ≠ t) :
    b.set t m u = b u := by
  rw [set, dif_neg h]

theorem set_eq_self (b : Books) (t : TableId) : b.set t (b t) = b := by
  funext u
  by_cases h : u = t
  · subst h
    exact b.set_self u (b u)
  · exact b.set_other (b t) h

variable {α β : Type}

def turnOf (t : TableId) (w : Turn t.Index t.Cell α) (b : Books) :
    Except StorageError (α × Books) :=
  (w (b t)).map (fun p => (p.1, b.set t p.2))

def turn (cat : Catalog) (t : TableId) (missing : α) (w : Turn t.Index t.Cell α) (b : Books) :
    Except StorageError (α × Books) :=
  if t ∈ cat.tables then b.turnOf t w else .ok (missing, b)

def largerFirst (x y : Int32 × Int32) : Bool :=
  decide (y.2 < x.2) ||
    decide (x.2 = y.2) && !Ordered.precedes (Format.int.encode y.1) (Format.int.encode x.1)

def earlierFirst (x y : Int32 × String) : Bool :=
  decide (Text.Utf8.encode x.2 < Text.Utf8.encode y.2) ||
    decide (x.2 = y.2) && !Ordered.precedes (Format.int.encode y.1) (Format.int.encode x.1)

theorem largerFirst_iff (x y : Int32 × Int32) :
    largerFirst x y = true ↔
      SortOrder.numericDescending.InOrder (ValueKind.integer.item x)
        (ValueKind.integer.item y) := by
  simp only [largerFirst, SortOrder.InOrder, ValueKind.item, SortOrder.precedes, Item.keyPrecedes,
    Bool.or_eq_true, Bool.and_eq_true, Bool.not_eq_true', decide_eq_true_eq,
    decide_eq_false_iff_not]
  constructor
  · rintro (h | ⟨h, hk⟩)
    · exact .inl h
    · exact .inr ⟨by rw [h]; exact Int32.lt_irrefl, hk⟩
  · rintro (h | ⟨h, hk⟩)
    · exact .inl h
    · by_cases hlt : y.2 < x.2
      · exact .inl hlt
      · exact .inr ⟨Int32.le_antisymm (Int32.not_lt.1 hlt) (Int32.not_lt.1 h), hk⟩

theorem earlierFirst_iff (x y : Int32 × String) :
    earlierFirst x y = true ↔
      SortOrder.lexicographicAscending.InOrder (ValueKind.text.item x)
        (ValueKind.text.item y) := by
  simp only [earlierFirst, SortOrder.InOrder, ValueKind.item, SortOrder.precedes, Item.keyPrecedes,
    Bool.or_eq_true, Bool.and_eq_true, Bool.not_eq_true', decide_eq_true_eq,
    decide_eq_false_iff_not]
  constructor
  · rintro (h | ⟨h, hk⟩)
    · exact .inl h
    · exact .inr ⟨by rw [h]; exact List.lt_irrefl _, hk⟩
  · rintro (h | ⟨h, hk⟩)
    · exact .inl h
    · by_cases hlt : Text.Utf8.encode x.2 < Text.Utf8.encode y.2
      · exact .inl hlt
      · exact .inr ⟨Text.Utf8.encode_injective
          (List.le_antisymm (List.not_lt.1 h) (List.not_lt.1 hlt)), hk⟩

end Books

def KeyKind.index? : (k : KeyKind) → Key → Option k.Carrier
  | .name, .name s => some s
  | .id, .id n => some n
  | _, _ => none

theorem KeyKind.key_of_index? : ∀ {k : KeyKind} {key : Key} {i : k.Carrier},
    k.index? key = some i → key = k.key i
  | .name, .name _, _, h => congrArg Key.name (Option.some.inj h)
  | .id, .id _, _, h => congrArg Key.id (Option.some.inj h)

namespace Access

def turn? (table : String) (k : KeyKind) (v : CellKind) (a : Access) :
    Option (Turn k.Carrier v.Carrier Reply) :=
  match a, v, k with
  | .findInt key, .int, k => (k.index? key).map (fun i => (Turn.find i).map .maybeInt)
  | .findText key, .text, k => (k.index? key).map (fun i => (Turn.find i).map .maybeText)
  | .intOrZero key, .int, k => (k.index? key).map (fun i => (Turn.findOr (0 : Int32) i).map .int)
  | .wordOrZero key, .word, k =>
      (k.index? key).map (fun i => (Turn.findOr (0 : UInt64) i).map .word)
  | .cardinality, _, _ => some (Turn.count.map .size)
  | .putInt key n, .int, k => (k.index? key).map (fun i => (Turn.put i n).map (fun _ => .done))
  | .putWord key n, .word, k => (k.index? key).map (fun i => (Turn.put i n).map (fun _ => .done))
  | .putText key s, .text, k =>
      (k.index? key).map (fun i => (Turn.put i (beforeNul s)).map (fun _ => .done))
  | .addInt key delta, .int, k =>
      (k.index? key).map (fun i => (Turn.accumulate 0 TrafficStore.addInt i delta).map .int)
  | .addWord key delta, .word, k =>
      (k.index? key).map (fun i => (Turn.accumulate 0 TrafficStore.addWord i delta).map .word)
  | .raise key candidate, .word, k =>
      (k.index? key).map (fun i => (Turn.raise i candidate).map .flag)
  | .allocate name, .int, .name => some ((Turn.allocate table name).map .allocation)
  | .dump p .integer .numericDescending, .int, .id =>
      some ((Turn.dump p .integer Books.largerFirst).map .dump)
  | .dump p .text .lexicographicAscending, .text, .id =>
      some ((Turn.dump p .text Books.earlierFirst).map .dump)
  | _, _, _ => none

section Tracks

variable {t : TableId} {k : KeyKind} {v : CellKind} {key : Key} {a : Access}
  {turn : Turn k.Carrier v.Carrier Reply}

theorem turn_at {turnAt : k.Carrier → Turn k.Carrier v.Carrier Reply}
    (h : (k.index? key).map turnAt = some turn) : ∃ i, key = k.key i ∧ turn = turnAt i := by
  obtain ⟨i, hi, hturn⟩ := Option.map_eq_some_iff.1 h
  exact ⟨i, KeyKind.key_of_index? hi, hturn.symm⟩

theorem tracks_findOr (missing : v.Carrier) (i : k.Carrier) (reply : v.Carrier → Reply) :
    Tracks k v ((Rewrite.find v.format (k.key i)).map (fun c => reply (c.getD missing)))
      ((Turn.findOr missing i).map reply) := by
  rw [← Rewrite.map_map reply]
  exact (Tracks.findOr missing i).map reply

theorem tracks_dump (p : Panel) (kind : ValueKind) (order : SortOrder)
    {le : Int32 × kind.cell.Carrier → Int32 × kind.cell.Carrier → Bool}
    (hfits : ∀ e, order.Fits (kind.item e).value)
    (hle : ∀ x y, le x y = true ↔ order.InOrder (kind.item x) (kind.item y)) :
    Tracks .id kind.cell ((dump p kind order).rewrite t) ((Turn.dump p kind le).map .dump) := by
  rw [rewrite, ← Rewrite.map_map Reply.dump]
  exact (Tracks.dump p kind order hfits hle).map Reply.dump

theorem tracks_turn? (h : a.turn? t.name k v = some turn) : Tracks k v (a.rewrite t) turn := by
  cases a with
  | findInt key =>
      cases v with
      | int =>
          obtain ⟨i, rfl, rfl⟩ := turn_at h
          exact Tracks.map Reply.maybeInt (.find i)
      | _ => cases h
  | findText key =>
      cases v with
      | text =>
          obtain ⟨i, rfl, rfl⟩ := turn_at h
          exact Tracks.map Reply.maybeText (.find i)
      | _ => cases h
  | intOrZero key =>
      cases v with
      | int =>
          obtain ⟨i, rfl, rfl⟩ := turn_at h
          exact tracks_findOr (v := .int) 0 i .int
      | _ => cases h
  | wordOrZero key =>
      cases v with
      | word =>
          obtain ⟨i, rfl, rfl⟩ := turn_at h
          exact tracks_findOr (v := .word) 0 i .word
      | _ => cases h
  | cardinality =>
      obtain rfl := Option.some.inj h
      exact Tracks.map Reply.size .count
  | putInt key n =>
      cases v with
      | int =>
          obtain ⟨i, rfl, rfl⟩ := turn_at h
          exact Tracks.map (fun _ => Reply.done) (.put (v := .int) i n)
      | _ => cases h
  | putWord key n =>
      cases v with
      | word =>
          obtain ⟨i, rfl, rfl⟩ := turn_at h
          exact Tracks.map (fun _ => Reply.done) (.put (v := .word) i n)
      | _ => cases h
  | putText key s =>
      cases v with
      | text =>
          obtain ⟨i, rfl, rfl⟩ := turn_at h
          exact Tracks.map (fun _ => Reply.done) (.put (v := .text) i s)
      | _ => cases h
  | addInt key delta =>
      cases v with
      | int =>
          obtain ⟨i, rfl, rfl⟩ := turn_at h
          exact Tracks.map Reply.int (.accumulate (v := .int) (fun _ => rfl) i delta)
      | _ => cases h
  | addWord key delta =>
      cases v with
      | word =>
          obtain ⟨i, rfl, rfl⟩ := turn_at h
          exact Tracks.map Reply.word (.accumulate (v := .word) (fun _ => rfl) i delta)
      | _ => cases h
  | raise key candidate =>
      cases v with
      | word =>
          obtain ⟨i, rfl, rfl⟩ := turn_at h
          exact Tracks.map Reply.flag (.raise i candidate)
      | _ => cases h
  | allocate name =>
      cases v with
      | int =>
          cases k with
          | name =>
              obtain rfl := Option.some.inj h
              exact Tracks.map Reply.allocation (.allocate t.name name)
          | id => cases h
      | _ => cases h
  | dump p kind order =>
      cases k with
      | name => cases kind <;> cases order <;> cases v <;> cases h
      | id =>
          cases kind <;> cases order <;> cases v <;> cases h
          · exact tracks_dump p .integer .numericDescending (fun _ => trivial) Books.largerFirst_iff
          · exact tracks_dump p .text .lexicographicAscending (fun _ => trivial) Books.earlierFirst_iff

theorem still_turn? {table : String} (ha : a.writes = false) (h : a.turn? table k v = some turn)
    {m m' : SortedMap k.Carrier v.Carrier} {r : Reply} (hm : turn m = .ok (r, m')) : m' = m := by
  cases a with
  | findInt key | intOrZero key =>
      cases v with
      | int =>
          obtain ⟨i, rfl, rfl⟩ := turn_at h
          cases hm
          rfl
      | _ => cases h
  | findText key =>
      cases v with
      | text =>
          obtain ⟨i, rfl, rfl⟩ := turn_at h
          cases hm
          rfl
      | _ => cases h
  | wordOrZero key =>
      cases v with
      | word =>
          obtain ⟨i, rfl, rfl⟩ := turn_at h
          cases hm
          rfl
      | _ => cases h
  | cardinality =>
      obtain rfl := Option.some.inj h
      cases hm
      rfl
  | dump p kind order =>
      cases k <;> cases kind <;> cases order <;> cases v <;> cases h <;> cases hm <;> rfl
  | _ => cases ha

end Tracks

end Access

namespace Books

def labels (b : Books) (p : Panel) : SortedMap Int32 String := b (.panel p .dataMap)

def hits (b : Books) (p : Panel) : SortedMap Int32 Int32 := b (.panel p .hits)

def roots (b : Books) (p : Panel) : SortedMap Int32 Int32 := b (.panel p .root)

def rootLabels (b : Books) (p : Panel) : SortedMap Int32 String := b (.panel p .rootMap)

def dumped (b : Books) : Panel → Dump
  | .visitors =>
      { panel := .visitors
        kind := .text
        items := ((b.labels .visitors).entries.mergeSort earlierFirst).map
          (fun e => ⟨e.1, .text e.2⟩) }
  | p =>
      { panel := p
        kind := .integer
        items := ((b.hits p).entries.mergeSort largerFirst).map (fun e => ⟨e.1, .int e.2⟩) }

def rootLabel (b : Books) (p : Panel) (id : Int32) : Option String :=
  ((b.roots p).find? id).bind (fun root =>
    if root = 0 then none else (b.rootLabels p).find? root)

def answer (cat : Catalog) (b : Books) : Call → Except StorageError (Reply × Books)
  | .rootLabel p id => .ok (.maybeText (if p ∈ cat.panels then b.rootLabel p id else none), b)
  | q =>
      match q.access? with
      | some (t, a) =>
          match a.turn? t.name t.keyKind t.cellKind with
          | some w => b.turn cat t q.notFound (w.map q.answered)
          | none => .ok (q.notFound, b)
      | none => .ok (q.notFound, b)

variable {b b' : Books} {cat : Catalog} {t u : TableId} {missing r : Reply}
  {w : Turn t.Index t.Cell Reply}

theorem turn_ok (h : b.turn cat t missing w = .ok (r, b')) :
    (∃ m, t ∈ cat.tables ∧ w (b t) = .ok (r, m) ∧ b' = b.set t m) ∨ b' = b := by
  rw [turn] at h
  by_cases ht : t ∈ cat.tables
  · rw [if_pos ht, turnOf] at h
    cases hw : w (b t) with
    | error x => rw [hw] at h; cases h
    | ok p =>
        rw [hw] at h
        cases h
        exact .inl ⟨p.2, ht, rfl, rfl⟩
  · rw [if_neg ht] at h
    cases h
    exact .inr rfl

theorem turn_cases (ht : t ∈ cat.tables) (w : Turn t.Index t.Cell α) (reply : α → Reply) :
    (∃ a b', w (b t) = .ok (a, b' t) ∧
      b.turn cat t missing (w.map reply) = .ok (reply a, b')) ∨
    ∃ x, w (b t) = .error x ∧ b.turn cat t missing (w.map reply) = .error x := by
  rw [turn, if_pos ht, turnOf, Turn.map]
  cases w (b t) with
  | error x => exact .inr ⟨x, rfl, rfl⟩
  | ok p => exact .inl ⟨p.1, b.set t p.2, by rw [b.set_self], rfl⟩

theorem turn_other (h : b.turn cat t missing w = .ok (r, b'))
    (hu : u ∈ cat.tables → some t ≠ some u) : b' u = b u := by
  rcases turn_ok h with ⟨m, ht, _, rfl⟩ | rfl
  · refine b.set_other m ?_
    rintro rfl
    exact hu ht rfl
  · rfl

theorem turn_still (h : b.turn cat t missing w = .ok (r, b'))
    (hw : ∀ m a m', w m = .ok (a, m') → m' = m) : b' = b := by
  rcases turn_ok h with ⟨m, _, hm, rfl⟩ | rfl
  · rw [hw _ _ _ hm]
    exact b.set_eq_self t
  · rfl

theorem answer_of_access {q : Call} {a : Access} {w : Turn t.Index t.Cell Reply}
    (hq : q.access? = some (t, a)) (hw : a.turn? t.name t.keyKind t.cellKind = some w) :
    b.answer cat q = b.turn cat t q.notFound (w.map q.answered) := by
  cases q with
  | rootLabel p id => cases hq
  | _ => simp only [answer, hq, hw]

theorem answer_map {q : Call} {a : Access} {β : Type} (w : Turn t.Index t.Cell β)
    (reply : β → Reply) (hq : q.access? = some (t, a))
    (hw : a.turn? t.name t.keyKind t.cellKind = some (w.map reply)) :
    b.answer cat q = b.turn cat t q.notFound (w.map (fun c => q.answered (reply c))) := by
  rw [answer_of_access hq hw, Turn.map_map]

theorem turn?_of_access {q : Call} {a : Access} (hq : q.access? = some (t, a)) :
    ∃ w, a.turn? t.name t.keyKind t.cellKind = some w := by
  cases q with
  | dump p => cases p <;> cases hq <;> exact ⟨_, rfl⟩
  | _ => cases hq <;> exact ⟨_, rfl⟩

theorem answer_frame {q : Call} (h : b.answer cat q = .ok (r, b'))
    (hu : u ∈ cat.tables → q.target? ≠ some u) : b' u = b u := by
  cases hq : q.access? with
  | none =>
      rcases Call.cases_of_access_none hq with ⟨p, id, rfl⟩ | ⟨force, rfl⟩ <;> cases h <;> rfl
  | some ta =>
      obtain ⟨w, hw⟩ := turn?_of_access hq
      rw [answer_of_access hq hw] at h
      cases ha : ta.2.writes with
      | true =>
          refine turn_other h (fun ht he => hu ht ?_)
          rw [Call.target?, hq, Option.bind_some, if_pos ha]
          exact he
      | false =>
          rw [turn_still h (fun m a m' hm => ?_)]
          rw [Turn.map] at hm
          cases hrun : w m with
          | error x => rw [hrun] at hm; cases hm
          | ok p =>
              rw [hrun] at hm
              cases hm
              exact Access.still_turn? ha hw hrun

end Books

end TrafficStore
