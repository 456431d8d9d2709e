import TrafficStore.Proofs.Lifetime

namespace TrafficStore

inductive Allocator where
  | keys (p : Panel)
  | visitors (p : Panel)
  | visitorKeys
  | agents
  deriving DecidableEq, Repr

namespace Allocator

def table : Allocator → TableId
  | keys p => .panel p .keyMap
  | visitors p => .panel p .uniqMap
  | visitorKeys => .shared .uniqueKeys
  | agents => .shared .agentKeys

def inserts? : Allocator → Call → Option String
  | keys p, .assignKey q key => if q = p then some key else none
  | visitors p, .markVisitor q key => if q = p then some key else none
  | visitorKeys, .assignVisitorKey key => some key
  | agents, .assignAgentKey key => some key
  | _, _ => none

def finds? : Allocator → Call → Option String
  | keys p, .findKey q key => if q = p then some key else none
  | _, _ => none

def inserted? (al : Allocator) (a : Answered) : Option String :=
  match a.answer with
  | .reply _ => if al.table ∈ a.catalog.tables then al.inserts? a.call else none
  | _ => none

def given (al : Allocator) (as : List Answered) : List String :=
  (as.filterMap al.inserted?).eraseDups

def idOf (keys : List String) (key : String) : Int32 := Int32.ofNat (keys.idxOf key + 1)

def records (keys : List String) : List (Bytes × Bytes) :=
  keys.mapIdx (fun i key => (Format.name.encode key, Format.int.encode (Int32.ofNat (i + 1))))

def reply : Allocator → Allocation → Reply
  | visitors _, a => .flag a.isNew
  | _, a => .maybeInt (some a.id)

def insertReply (al : Allocator) (keys : List String) (key : String) : Reply :=
  al.reply (if key ∈ keys then .existing (idOf keys key) else .inserted (idOf keys key))

def findReply (keys : List String) (key : String) : Reply :=
  .maybeInt (if key ∈ keys then some (idOf keys key) else none)

structure Gives (al : Allocator) (F : StorageError → Prop) (keys : List String)
    (a : Answered) : Prop where
  insert : ∀ key, al.inserts? a.call = some key →
    a.answer = .reply (al.insertReply keys key) ∧ (key ∈ keys ∨ keys.length < maxId) ∨
      ∃ x, a.answer = .failed x ∧
        (F x ∨ x = .idsExhausted al.table.name ∧ key ∉ keys ∧ keys.length = maxId)
  find : ∀ key, al.finds? a.call = some key →
    a.answer = .reply (findReply keys key) ∨ ∃ x, a.answer = .failed x ∧ F x

structure Numbered (al : Allocator) (F : StorageError → Prop) (as : List Answered)
    (c : Content) : Prop where
  nodup : (al.given as).Nodup
  bounded : (al.given as).length ≤ maxId
  stored : ((c.find? al.table.name).getD .empty).entries.Perm (records (al.given as))
  gives : ∀ pre a post, as = pre ++ a :: post → al.table ∈ a.catalog.tables →
    al.Gives F (al.given pre) a

def note (keys : List String) : Option String → List String
  | some key => if key ∈ keys then keys else keys ++ [key]
  | none => keys

theorem nodup_eraseDups {α : Type} [DecidableEq α] (xs : List α) : xs.eraseDups.Nodup := by
  cases xs with
  | nil => exact .nil
  | cons x xs =>
      rw [List.eraseDups_cons, List.nodup_cons]
      exact ⟨by simp [List.mem_eraseDups], nodup_eraseDups (xs.filter (fun y => !y == x))⟩
termination_by xs.length
decreasing_by exact Nat.lt_succ_of_le (List.length_filter_le _ _)

theorem eraseDups_append_singleton (keys : List String) (key : String) :
    (keys ++ [key]).eraseDups = note keys.eraseDups (some key) := by
  rw [List.eraseDups_append, note]
  by_cases hkey : key ∈ keys
  · have hnone : [key].removeAll keys = [] := by simp [List.removeAll, hkey]
    rw [hnone, if_pos (List.mem_eraseDups.2 hkey), List.eraseDups_nil, List.append_nil]
  · have hone : [key].removeAll keys = [key] := by simp [List.removeAll, hkey]
    rw [hone, if_neg (fun h => hkey (List.mem_eraseDups.1 h))]
    rfl

theorem given_append_singleton (al : Allocator) (as : List Answered) (a : Answered) :
    al.given (as ++ [a]) = note (al.given as) (al.inserted? a) := by
  rw [given, List.filterMap_append, given]
  cases h : al.inserted? a with
  | none => simp [h, note]
  | some key =>
      have hone : List.filterMap al.inserted? [a] = [key] := by simp [h]
      rw [hone, eraseDups_append_singleton]

variable {keys : List String} {key other : String}

theorem idOf_inj (hbounded : keys.length ≤ maxId) (hkey : key ∈ keys)
    (h : idOf keys key = idOf keys other) : key = other := by
  -- no id wraps round to that of an earlier key
  have hmax : maxId = 2147483647 := rfl
  have hle : ∀ k, keys.idxOf k + 1 < 2 ^ 32 := fun k => by
    have hk := List.idxOf_le_length (a := k) (l := keys)
    omega
  have hnat : ∀ k, (idOf keys k).toUInt32.toNat = keys.idxOf k + 1 := fun k =>
    Nat.mod_eq_of_lt (hle k)
  have hidx : keys.idxOf key = keys.idxOf other := by
    have h := congrArg (fun n : Int32 => n.toUInt32.toNat) h
    simp only [hnat] at h
    omega
  have hlt := List.idxOf_lt_length_of_mem hkey
  have hother : other ∈ keys := List.idxOf_lt_length_iff.1 (hidx ▸ hlt)
  rw [← List.getElem_idxOf hlt, ← List.getElem_idxOf (List.idxOf_lt_length_of_mem hother)]
  simp only [hidx]

theorem idOf_append_of_mem (hkey : key ∈ keys) (more : List String) :
    idOf (keys ++ more) key = idOf keys key := by
  rw [idOf, List.idxOf_append, if_pos hkey, idOf]

theorem idOf_note (keys : List String) (key : String) :
    idOf (note keys (some key)) key = idOf keys key := by
  rw [note]
  split
  · rfl
  · next hkey =>
      rw [idOf, idOf, List.idxOf_append, if_neg hkey, List.idxOf_eq_length hkey]
      simp

end Allocator

structure Numbers (m : SortedMap String Int32) (keys : List String) : Prop where
  nodup : keys.Nodup
  bounded : keys.length ≤ maxId
  size : m.size = keys.length
  find : ∀ key, m.find? key = if key ∈ keys then some (Allocator.idOf keys key) else none

namespace Numbers

variable {m : SortedMap String Int32} {keys : List String}

theorem empty : Numbers .empty [] where
  nodup := .nil
  bounded := Nat.zero_le _
  size := rfl
  find _ := rfl

theorem find_of_mem (h : Numbers m keys) {key : String} (hkey : key ∈ keys) :
    m.find? key = some (Allocator.idOf keys key) := by
  rw [h.find, if_pos hkey]

theorem find_of_not_mem (h : Numbers m keys) {key : String} (hkey : key ∉ keys) :
    m.find? key = none := by
  rw [h.find, if_neg hkey]

theorem contains_iff (h : Numbers m keys) {key : String} :
    m.contains key = true ↔ key ∈ keys := by
  rw [SortedMap.contains_iff, h.find]
  by_cases hkey : key ∈ keys
  · rw [if_pos hkey]
    exact iff_of_true ⟨_, rfl⟩ hkey
  · rw [if_neg hkey]
    exact iff_of_false (fun ⟨_, hid⟩ => nomatch hid) hkey

theorem insert (h : Numbers m keys) {key : String} (hkey : key ∉ keys)
    (hroom : keys.length < maxId) :
    Numbers (m.insert key (Int32.ofNat (keys.length + 1))) (keys ++ [key]) where
  nodup := by
    refine List.nodup_append.2 ⟨h.nodup, by simp, fun a ha b hb he => hkey ?_⟩
    rw [← List.mem_singleton.1 hb, ← he]
    exact ha
  bounded := by
    rw [List.length_append]
    exact hroom
  size := by
    have hnew : m.contains key = false :=
      SortedMap.contains_eq_false_iff.2 (h.find_of_not_mem hkey)
    rw [SortedMap.size_insert, hnew, h.size]
    simp
  find q := by
    rw [SortedMap.find?_insert, Allocator.idOf, List.idxOf_append]
    by_cases hq : q = key
    · subst hq
      simp [hkey]
    · by_cases hmem : q ∈ keys
      · simp [hq, hmem, h.find_of_mem hmem, Allocator.idOf]
      · simp [hq, hmem, h.find_of_not_mem hmem]

theorem allocate (h : Numbers m keys) (table key : String) :
    match Turn.allocate table key m with
    | .ok (a, m') =>
        a = (if key ∈ keys then .existing (Allocator.idOf keys key)
          else .inserted (Allocator.idOf keys key)) ∧
        Numbers m' (Allocator.note keys (some key)) ∧ (key ∈ keys ∨ keys.length < maxId)
    | .error x => x = .idsExhausted table ∧ key ∉ keys ∧ keys.length = maxId := by
  rw [Turn.allocate, Allocator.note]
  by_cases hkey : key ∈ keys
  · rw [h.find_of_mem hkey, if_pos hkey, if_pos hkey]
    exact ⟨rfl, h, .inl hkey⟩
  · rw [h.find_of_not_mem hkey, h.size, if_neg hkey, if_neg hkey, Allocator.idOf,
      List.idxOf_eq_length hkey]
    by_cases hroom : keys.length < maxId
    · simp only [if_pos hroom]
      exact ⟨trivial, h.insert hkey hroom, .inr hroom⟩
    · simp only [if_neg hroom]
      exact ⟨trivial, hkey, Nat.le_antisymm h.bounded (Nat.le_of_not_lt hroom)⟩

theorem nodup_records (h : keys.Nodup) : (Allocator.records keys).Nodup := by
  have hnames : (Allocator.records keys).map Prod.fst = keys.map Format.name.encode := by
    rw [Allocator.records]
    apply List.ext_getElem <;> simp
  have hnodup : ((Allocator.records keys).map Prod.fst).Nodup := by
    rw [hnames]
    exact List.pairwise_map.2 (h.imp (fun hne he => hne (Text.Utf8.encode_injective he)))
  exact List.Pairwise.of_map Prod.fst (fun _ _ hne he => hne (congrArg Prod.fst he)) hnodup

theorem stored (h : Numbers m keys) {table : Table} (hm : Holds .name .int m table) :
    table.entries.Perm (Allocator.records keys) := by
  rw [List.perm_ext_iff_of_nodup table.nodup_entries (nodup_records h.nodup)]
  intro r
  rw [Allocator.records, List.mem_mapIdx]
  constructor
  · intro hr
    obtain ⟨key, id, hkey, hid, hd⟩ := hm.cell_of_mem hr
    have hmem : key ∈ keys := by
      by_cases hmem : key ∈ keys
      · exact hmem
      · rw [h.find_of_not_mem hmem] at hid
        cases hid
    rw [h.find_of_mem hmem] at hid
    refine ⟨keys.idxOf key, List.idxOf_lt_length_of_mem hmem, Prod.ext ?_ ?_⟩
    · simp only [List.getElem_idxOf]
      exact hkey.symm
    · rw [← Format.int_encode_of_decode hd, ← Option.some.inj hid]
      rfl
  · rintro ⟨i, hi, rfl⟩
    have hid := h.find_of_mem (List.getElem_mem hi)
    rw [Allocator.idOf, h.nodup.idxOf_getElem] at hid
    obtain ⟨bs, hbs, hd⟩ := hm.mem_of_find? hid
    rw [Format.int_encode_of_decode hd]
    exact hbs

end Numbers

namespace Books

variable {b b' : Books} {cat : Catalog} {al : Allocator} {q : Call} {r : Reply}

def ids (b : Books) : Allocator → SortedMap String Int32
  | .keys p => b (.panel p .keyMap)
  | .visitors p => b (.panel p .uniqMap)
  | .visitorKeys => b (.shared .uniqueKeys)
  | .agents => b (.shared .agentKeys)

theorem ids_congr (h : b' al.table = b al.table) : b'.ids al = b.ids al := by
  cases al <;> exact h

theorem Represents.ids {c : Content} (h : b.Represents c) (al : Allocator) :
    Holds .name .int (b.ids al) ((c.find? al.table.name).getD .empty) := by
  have h := h al.table
  cases al <;> exact h

theorem target?_ne (h : al.inserts? q = none) : q.target? ≠ some al.table := by
  cases al <;> cases q <;> simp_all [Allocator.inserts?, Allocator.table, Call.target?, Call.access?, Access.writes]

theorem ids_of_answer (h : b.answer cat q = .ok (r, b'))
    (hq : al.table ∈ cat.tables → al.inserts? q = none) : b'.ids al = b.ids al :=
  ids_congr (answer_frame h (fun ht => target?_ne (hq ht)))

theorem answer_insert {key : String} (hq : al.inserts? q = some key)
    (ht : al.table ∈ cat.tables) :
    (∃ a b', Turn.allocate al.table.name key (b.ids al) = .ok (a, b'.ids al) ∧
      b.answer cat q = .ok (al.reply a, b')) ∨
    ∃ x, Turn.allocate al.table.name key (b.ids al) = .error x ∧ b.answer cat q = .error x := by
  cases al with
  | keys p =>
      obtain rfl : q = .assignKey p key := by cases q <;> simp_all [Allocator.inserts?]
      rw [answer_map (t := .panel p .keyMap) (Turn.allocate _ key) Reply.allocation rfl rfl]
      exact turn_cases (t := .panel p .keyMap) ht (Turn.allocate _ key) (Allocator.keys p).reply
  | visitors p =>
      obtain rfl : q = .markVisitor p key := by cases q <;> simp_all [Allocator.inserts?]
      rw [answer_map (t := .panel p .uniqMap) (Turn.allocate _ key) Reply.allocation rfl rfl]
      exact turn_cases (t := .panel p .uniqMap) ht (Turn.allocate _ key)
        (Allocator.visitors p).reply
  | visitorKeys =>
      obtain rfl : q = .assignVisitorKey key := by cases q <;> simp_all [Allocator.inserts?]
      rw [answer_map (t := .shared .uniqueKeys) (Turn.allocate _ key) Reply.allocation rfl rfl]
      exact turn_cases (t := .shared .uniqueKeys) ht (Turn.allocate _ key)
        Allocator.visitorKeys.reply
  | agents =>
      obtain rfl : q = .assignAgentKey key := by cases q <;> simp_all [Allocator.inserts?]
      rw [answer_map (t := .shared .agentKeys) (Turn.allocate _ key) Reply.allocation rfl rfl]
      exact turn_cases (t := .shared .agentKeys) ht (Turn.allocate _ key) Allocator.agents.reply

theorem answer_find {key : String} (hq : al.finds? q = some key) (ht : al.table ∈ cat.tables) :
    ∃ b', b.answer cat q = .ok (.maybeInt ((b.ids al).find? key), b') := by
  cases al with
  | keys p =>
      obtain rfl : q = .findKey p key := by cases q <;> simp_all [Allocator.finds?]
      rcases turn_cases (b := b) (t := .panel p .keyMap) ht (Turn.find key) Reply.maybeInt with
        ⟨v, b', hv, h⟩ | ⟨x, hx, _⟩
      · obtain ⟨rfl, _⟩ := Prod.mk.inj (Except.ok.inj hv)
        rw [answer_map (t := .panel p .keyMap) (Turn.find key) Reply.maybeInt rfl rfl]
        exact ⟨b', h⟩
      · cases hx
  | _ => cases hq

variable {F : StorageError → Prop} {keys : List String} {a : Answered}

theorem findReply_of_answer (hn : Numbers (b.ids al) keys) (ht : al.table ∈ cat.tables)
    (h : b.answer cat q = .ok (r, b')) {key : String} (hq : al.finds? q = some key) :
    r = Allocator.findReply keys key := by
  obtain ⟨b'', h'⟩ := answer_find (b := b) hq ht
  rw [h'] at h
  obtain ⟨rfl, _⟩ := Prod.mk.inj (Except.ok.inj h)
  rw [hn.find, Allocator.findReply]

theorem insertReply_of_answer (hn : Numbers (b.ids al) keys) (ht : al.table ∈ cat.tables)
    (h : b.answer cat q = .ok (r, b')) {key : String} (hq : al.inserts? q = some key) :
    Numbers (b'.ids al) (Allocator.note keys (some key)) ∧ r = al.insertReply keys key ∧
      (key ∈ keys ∨ keys.length < maxId) := by
  have hturn := hn.allocate al.table.name key
  rcases answer_insert (b := b) hq ht with ⟨a, b'', ha, h'⟩ | ⟨x, _, h'⟩
  · rw [h'] at h
    obtain ⟨rfl, rfl⟩ := Prod.mk.inj (Except.ok.inj h)
    rw [ha] at hturn
    obtain ⟨rfl, hn', hroom⟩ := hturn
    exact ⟨hn', rfl, hroom⟩
  · rw [h'] at h
    cases h

theorem gives_of_answer (hn : Numbers (b.ids al) keys) (ht : al.table ∈ cat.tables)
    (h : b.answer cat q = .ok (r, b')) : al.Gives F keys ⟨cat, q, .reply r⟩ where
  insert key hq := by
    obtain ⟨_, rfl, hroom⟩ := insertReply_of_answer hn ht h hq
    exact .inl ⟨rfl, hroom⟩
  find key hq := by
    rw [findReply_of_answer hn ht h hq]
    exact .inl rfl

theorem gives_of_failure {x : StorageError} (hn : Numbers (b.ids al) keys)
    (ht : al.table ∈ cat.tables) (h : F x ∨ b.answer cat q = .error x) :
    al.Gives F keys ⟨cat, q, .failed x⟩ where
  insert key hq := by
    refine .inr ⟨x, rfl, h.imp_right (fun h => ?_)⟩
    have hturn := hn.allocate al.table.name key
    rcases answer_insert (b := b) hq ht with ⟨a, b', _, h'⟩ | ⟨y, hy, h'⟩
    · rw [h'] at h
      cases h
    · rw [h'] at h
      cases h
      rw [hy] at hturn
      exact hturn
  find key hq := by
    refine .inr ⟨x, rfl, h.resolve_right (fun h => ?_)⟩
    obtain ⟨b', h'⟩ := answer_find (b := b) hq ht
    rw [h'] at h
    cases h

theorem numbers_of_answer (hn : Numbers (b.ids al) keys) (h : b.answer cat q = .ok (r, b')) :
    Numbers (b'.ids al) (Allocator.note keys (al.inserted? ⟨cat, q, .reply r⟩)) := by
  rw [Allocator.inserted?]
  by_cases ht : al.table ∈ cat.tables
  · cases hq : al.inserts? q with
    | none =>
        rw [ids_of_answer h (fun _ => hq)]
        simpa only [ite_self, Allocator.note] using hn
    | some key =>
        simp only [if_pos ht]
        exact (insertReply_of_answer hn ht h hq).1
  · rw [ids_of_answer h (fun ht' => absurd ht' ht)]
    simpa only [if_neg ht, Allocator.note] using hn

theorem Allows.numbers (h : Allows F b a b') (hn : Numbers (b.ids al) keys) :
    Numbers (b'.ids al) (Allocator.note keys (al.inserted? a)) ∧
      (al.table ∈ a.catalog.tables → al.Gives F keys a) := by
  cases h with
  | replied h => exact ⟨numbers_of_answer hn h, fun ht => gives_of_answer hn ht h⟩
  | failed h => exact ⟨hn, fun ht => gives_of_failure hn ht h⟩

theorem Recorded.numbers {as : List Answered} (h : Recorded F b as b') :
    ∀ pre : List Answered, Numbers (b.ids al) (al.given pre) →
      Numbers (b'.ids al) (al.given (pre ++ as)) ∧
      ∀ as₁ a as₂, as = as₁ ++ a :: as₂ → al.table ∈ a.catalog.tables →
        al.Gives F (al.given (pre ++ as₁)) a := by
  -- The calls before the run are kept as `pre`: every step adds its call to them.
  induction h with
  | nil b =>
      intro pre hn
      rw [List.append_nil]
      refine ⟨hn, fun as₁ a as₂ he => ?_⟩
      cases as₁ <;> cases he
  | @cons b b₁ b₂ a as head tail ih =>
      intro pre hn
      obtain ⟨hn₁, hgives⟩ := head.numbers hn
      rw [← Allocator.given_append_singleton] at hn₁
      obtain ⟨hn₂, hrest⟩ := ih (pre ++ [a]) hn₁
      rw [List.append_assoc] at hn₂
      refine ⟨hn₂, fun as₁ a' as₂ he ht => ?_⟩
      cases as₁ with
      | nil =>
          cases he
          rw [List.append_nil]
          exact hgives ht
      | cons x as₁ =>
          cases he
          have h := hrest as₁ a' as₂ rfl ht
          rw [List.append_assoc] at h
          exact h

theorem Recorded.numbered {as : List Answered} {c : Content} (h : Recorded F empty as b')
    (hc : b'.Represents c) (al : Allocator) : al.Numbered F as c := by
  have hempty : Numbers (empty.ids al) [] := by cases al <;> exact .empty
  obtain ⟨hn, hgives⟩ := h.numbers [] hempty
  exact ⟨hn.nodup, hn.bounded, hn.stored (hc.ids al), fun pre a post => hgives pre a post⟩

end Books

open Books in
theorem Allocator.numbered_from_empty {δ : Type} [Database δ] [LawfulDatabase δ] {d : δ}
    (hd : Database.content d = .empty) (os : List Opening) (o : Opening) (al : Allocator) :
    al.Numbered (fun x => x.isFull = true ∨ ∃ stage reason, x = .engine stage reason ∧
      DatabaseViews.Fails δ reason) (life d os).1 (Database.content (life d os).2) ∧
    ∀ s, o.volatile = .ok s →
      al.Numbered (fun x => x.isFull = true) (s.answered o.calls).1
        (s.answered o.calls).2.environment.engine.content := by
  constructor
  · have hempty : Represents empty (Database.content d) := by
      rw [hd]
      exact represents_empty
    obtain ⟨b, hrecorded, hb, _⟩ := recorded_life hempty os
    exact hrecorded.numbered hb al
  · intro s hs
    obtain ⟨b, hrecorded, hb, _⟩ := recorded_volatile hs
    exact hrecorded.numbered hb al

def repeatedKeys : List Opening :=
  [{ settings := {}, panels := [.browsers],
      calls := [.assignKey .browsers "Opera", .assignKey .browsers "Firefox",
        .assignKey .browsers "Opera", .markVisitor .browsers "Opera"] },
    { settings := {}, panels := [.browsers],
      calls := [.findKey .browsers "Edge", .assignKey .browsers "Firefox\x00",
        .assignKey .browsers "Firefox", .markVisitor .browsers "Opera"] }]

theorem Allocator.numbered_from_empty_repeatedKeys :
    Database.content ({} : TableFile) = .empty ∧
    (Allocator.keys .browsers).Numbered (fun x => x.isFull = true ∨ ∃ stage reason,
        x = .engine stage reason ∧ DatabaseViews.Fails TableFile reason)
      (life ({} : TableFile) repeatedKeys).1
      (Database.content (life ({} : TableFile) repeatedKeys).2) ∧
    (Allocator.keys .browsers).given (life ({} : TableFile) repeatedKeys).1 =
      ["Opera", "Firefox", "Firefox\x00"] ∧
    (life ({} : TableFile) repeatedKeys).1.map Answered.answer =
      [.reply (.maybeInt (some 1)), .reply (.maybeInt (some 2)), .reply (.maybeInt (some 1)),
        .reply (.flag true), .reply (.maybeInt none), .reply (.maybeInt (some 3)),
        .reply (.maybeInt (some 2)), .reply (.flag false)] :=
  ⟨rfl, (Allocator.numbered_from_empty (d := ({} : TableFile)) rfl repeatedKeys
    { settings := {} } (.keys .browsers)).1, by decide +kernel, by decide +kernel⟩

end TrafficStore
