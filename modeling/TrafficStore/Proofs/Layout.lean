import TrafficStore.Proofs.Dump
import TrafficStore.Proofs.Format
import TrafficStore.Proofs.Records

namespace TrafficStore

inductive KeyKind where
  | name
  | id
  deriving DecidableEq, Repr

namespace KeyKind

abbrev Carrier : KeyKind → Type
  | name => String
  | id => Int32

instance (k : KeyKind) : Ordered k.Carrier :=
  match k with
  | name => inferInstanceAs (Ordered String)
  | id => inferInstanceAs (Ordered Int32)

instance (k : KeyKind) : DecidableEq k.Carrier :=
  match k with
  | name => inferInstanceAs (DecidableEq String)
  | id => inferInstanceAs (DecidableEq Int32)

def key : (k : KeyKind) → k.Carrier → Key
  | name, s => .name s
  | id, n => .id n

def bytes (k : KeyKind) (a : k.Carrier) : Bytes := (k.key a).bytes

theorem bytes_injective : ∀ {k : KeyKind} {a b : k.Carrier}, k.bytes a = k.bytes b → a = b
  | name, _, _, h => Text.Utf8.encode_injective h
  | id, _, _, h => Format.int_encode_injective h

end KeyKind

inductive CellKind where
  | int
  | word
  | text
  deriving DecidableEq, Repr

namespace CellKind

abbrev Carrier : CellKind → Type
  | int => Int32
  | word => UInt64
  | text => String

def format : (v : CellKind) → Format v.Carrier
  | int => .int
  | word => .word
  | text => .text

def kept : (v : CellKind) → v.Carrier → v.Carrier
  | int, n => n
  | word, n => n
  | text, s => beforeNul s

theorem decode_encode : ∀ (v : CellKind) (a : v.Carrier),
    v.format.decode (v.format.encode a) = .ok (v.kept a)
  | int, n => Format.decode_int_encode n
  | word, n => Format.decode_word_encode n
  | text, s => Format.decode_text_encode s

end CellKind

def Metric.keyKind : Metric → KeyKind
  | keyMap | uniqMap | metadata => .name
  | rootMap | dataMap | root | hits | visitors | bandwidth | cumulativeTime | maxTime | methods
  | protocols | agents => .id

def Metric.cellKind : Metric → CellKind
  | keyMap | uniqMap | root | hits | visitors | agents => .int
  | bandwidth | cumulativeTime | maxTime | metadata => .word
  | rootMap | dataMap | methods | protocols => .text

def SharedTable.keyKind : SharedTable → KeyKind
  | agentKeys | generalStats | hostnames | uniqueKeys => .name
  | agentValues => .id

def SharedTable.cellKind : SharedTable → CellKind
  | agentKeys | uniqueKeys => .int
  | generalStats => .word
  | agentValues | hostnames => .text

namespace TableId

def keyKind : TableId → KeyKind
  | shared t => t.keyKind
  | panel _ m => m.keyKind

def cellKind : TableId → CellKind
  | shared t => t.cellKind
  | panel _ m => m.cellKind

abbrev Index (t : TableId) : Type := t.keyKind.Carrier

abbrev Cell (t : TableId) : Type := t.cellKind.Carrier

end TableId

structure Holds (k : KeyKind) (v : CellKind) (m : SortedMap k.Carrier v.Carrier)
    (table : Table) : Prop where
  find : ∀ a, (table.find? (k.bytes a)).map v.format.decode = (m.find? a).map .ok
  keys : ∀ r ∈ table.entries, ∃ a, r.1 = k.bytes a

namespace Holds

variable {k : KeyKind} {v : CellKind} {m : SortedMap k.Carrier v.Carrier} {table : Table}

theorem empty (k : KeyKind) (v : CellKind) : Holds k v .empty .empty where
  find _ := rfl
  keys _ hr := nomatch hr

theorem insert (h : Holds k v m table) (a : k.Carrier) (c : v.Carrier) :
    Holds k v (m.insert a (v.kept c)) (table.insert (k.bytes a) (v.format.encode c)) where
  find q := by
    rw [SortedMap.find?_insert, SortedMap.find?_insert]
    by_cases hq : q = a
    · subst hq
      rw [if_pos rfl, if_pos rfl, Option.map_some, v.decode_encode]
      rfl
    · rw [if_neg hq, if_neg (fun he => hq (KeyKind.bytes_injective he))]
      exact h.find q
  keys r hr := by
    rcases SortedMap.mem_insertEntry hr with rfl | hr
    · exact ⟨a, rfl⟩
    · exact h.keys r hr

theorem field (h : Holds k v m table) (a : k.Carrier) :
    Rewrite.field v.format (k.key a) table = .ok (m.find? a) := by
  have hf := h.find a
  rw [Rewrite.field]
  change v.format.read (table.find? (k.bytes a)) = _
  cases ht : table.find? (k.bytes a) with
  | none =>
      rw [ht] at hf
      rw [Option.map_eq_none_iff.1 hf.symm]
      rfl
  | some bs =>
      rw [ht, Option.map_some] at hf
      obtain ⟨c, hc, hd⟩ := Option.map_eq_some_iff.1 hf.symm
      rw [hc, Format.read, ← hd]
      rfl

theorem cell_of_mem (h : Holds k v m table) {r : Bytes × Bytes} (hr : r ∈ table.entries) :
    ∃ a c, r.1 = k.bytes a ∧ m.find? a = some c ∧ v.format.decode r.2 = .ok c := by
  obtain ⟨a, ha⟩ := h.keys r hr
  have hf := h.find a
  rw [← ha, SortedMap.find?_eq_some_iff.2 hr, Option.map_some] at hf
  obtain ⟨c, hc, hd⟩ := Option.map_eq_some_iff.1 hf.symm
  exact ⟨a, c, ha, hc, hd.symm⟩

theorem mem_of_find? (h : Holds k v m table) {a : k.Carrier} {c : v.Carrier}
    (hc : m.find? a = some c) :
    ∃ bs, (k.bytes a, bs) ∈ table.entries ∧ v.format.decode bs = .ok c := by
  have hf := h.find a
  rw [hc, Option.map_some] at hf
  obtain ⟨bs, hbs, hd⟩ := Option.map_eq_some_iff.1 hf
  exact ⟨bs, SortedMap.find?_eq_some_iff.1 hbs, hd⟩

theorem keys_perm (h : Holds k v m table) : table.keys.Perm (m.keys.map k.bytes) := by
  have hnodup : (m.keys.map k.bytes).Nodup :=
    List.pairwise_map.2 (m.nodup_keys.imp (fun hne he => hne (KeyKind.bytes_injective he)))
  rw [List.perm_ext_iff_of_nodup table.nodup_keys hnodup]
  intro bs
  rw [List.mem_map]
  constructor
  · intro hbs
    obtain ⟨r, hr, rfl⟩ := List.mem_map.1 hbs
    obtain ⟨a, c, ha, hc, _⟩ := h.cell_of_mem hr
    exact ⟨a, SortedMap.mem_keys_iff.2 (SortedMap.contains_iff.2 ⟨c, hc⟩), ha.symm⟩
  · rintro ⟨a, ha, rfl⟩
    obtain ⟨c, hc⟩ := SortedMap.contains_iff.1 (SortedMap.mem_keys_iff.1 ha)
    obtain ⟨bs, hbs, _⟩ := h.mem_of_find? hc
    exact List.mem_map.2 ⟨_, hbs, rfl⟩

theorem size_eq (h : Holds k v m table) : table.size = m.size := by
  have hlen := h.keys_perm.length_eq
  rw [List.length_map, SortedMap.keys, SortedMap.keys, List.length_map, List.length_map] at hlen
  exact hlen

end Holds

abbrev Turn (κ ν α : Type) [Ordered κ] := SortedMap κ ν → Except StorageError (α × SortedMap κ ν)

namespace Turn

variable {κ ν α β : Type} [Ordered κ]

def map (g : α → β) (turn : Turn κ ν α) : Turn κ ν β := fun m =>
  (turn m).map (fun p => (g p.1, p.2))

theorem map_map {γ : Type} (h : β → γ) (g : α → β) (turn : Turn κ ν α) :
    (turn.map g).map h = turn.map (fun a => h (g a)) := by
  funext m
  rw [map, map, map]
  cases turn m <;> rfl

def find (a : κ) : Turn κ ν (Option ν) := fun m => .ok (m.find? a, m)

def findOr (missing : ν) (a : κ) : Turn κ ν ν := fun m => .ok ((m.find? a).getD missing, m)

def count : Turn κ ν Nat := fun m => .ok (m.size, m)

def put (a : κ) (c : ν) : Turn κ ν Unit := fun m => .ok ((), m.insert a c)

def accumulate (zero : ν) (add : ν → ν → ν) (a : κ) (delta : ν) : Turn κ ν ν := fun m =>
  .ok (add ((m.find? a).getD zero) delta, m.insert a (add ((m.find? a).getD zero) delta))

def raise (a : κ) (candidate : UInt64) : Turn κ UInt64 Bool := fun m =>
  if (m.find? a).getD 0 < candidate then .ok (true, m.insert a candidate) else .ok (false, m)

def allocate (table : String) (name : κ) : Turn κ Int32 Allocation := fun m =>
  match m.find? name with
  | some id => .ok (.existing id, m)
  | none =>
      if m.size < maxId then
        .ok (.inserted (Int32.ofNat (m.size + 1)), m.insert name (Int32.ofNat (m.size + 1)))
      else .error (.idsExhausted table)

end Turn

def Tracks (k : KeyKind) (v : CellKind) {α : Type} (w : Rewrite α)
    (turn : Turn k.Carrier v.Carrier α) : Prop :=
  ∀ m table, Holds k v m table → match turn m with
    | .ok (a, m') => ∃ table', w table = .ok (a, table') ∧ Holds k v m' table'
    | .error x => w table = .error x

namespace Tracks

variable {k : KeyKind} {v : CellKind} {α β : Type} {w : Rewrite α}
  {turn : Turn k.Carrier v.Carrier α}

theorem map (g : α → β) (h : Tracks k v w turn) : Tracks k v (w.map g) (turn.map g) := by
  intro m table hm
  have h := h m table hm
  rw [Turn.map]
  cases ht : turn m with
  | error x =>
      rw [ht] at h
      change (w table).map _ = _
      rw [h]
      rfl
  | ok p =>
      rw [ht] at h
      obtain ⟨table', hw, hm'⟩ := h
      refine ⟨table', ?_, hm'⟩
      rw [Rewrite.map, hw]
      rfl

theorem find (a : k.Carrier) : Tracks k v (.find v.format (k.key a)) (.find a) := by
  intro m table hm
  refine ⟨table, ?_, hm⟩
  rw [Rewrite.find, hm.field]
  rfl

theorem findOr (missing : v.Carrier) (a : k.Carrier) :
    Tracks k v ((Rewrite.find v.format (k.key a)).map (fun c => c.getD missing))
      (.findOr missing a) :=
  (find a).map (fun c => c.getD missing)

theorem count : Tracks k v .count .count := by
  intro m table hm
  exact ⟨table, by rw [Rewrite.count, hm.size_eq], hm⟩

theorem put (a : k.Carrier) (c : v.Carrier) :
    Tracks k v (.put v.format (k.key a) c) (.put a (v.kept c)) :=
  fun _ _ hm => ⟨_, rfl, hm.insert a c⟩

theorem accumulate {zero : v.Carrier} {add : v.Carrier → v.Carrier → v.Carrier}
    (hkept : ∀ c, v.kept c = c) (a : k.Carrier) (delta : v.Carrier) :
    Tracks k v (.accumulate v.format zero add (k.key a) delta) (.accumulate zero add a delta) := by
  intro m table hm
  have hinsert := hm.insert a (add ((m.find? a).getD zero) delta)
  rw [hkept] at hinsert
  refine ⟨_, ?_, hinsert⟩
  rw [Rewrite.accumulate, hm.field]
  rfl

theorem raise (a : k.Carrier) (candidate : UInt64) :
    Tracks k .word (.raise (k.key a) candidate) (.raise a candidate) := by
  intro m table hm
  have hfield : Rewrite.field .word (k.key a) table = .ok (m.find? a) := hm.field a
  rw [Turn.raise]
  by_cases hlt : (m.find? a).getD 0 < candidate
  · rw [if_pos hlt]
    refine ⟨_, ?_, hm.insert a candidate⟩
    rw [Rewrite.raise, hfield]
    exact congrArg Except.ok (if_pos hlt)
  · rw [if_neg hlt]
    refine ⟨table, ?_, hm⟩
    rw [Rewrite.raise, hfield]
    exact congrArg Except.ok (if_neg hlt)

theorem allocate (table : String) (name : String) :
    Tracks .name .int (.allocate table name) (.allocate table name) := by
  intro m records hm
  have hfield : Rewrite.field .int (.name name) records = .ok (m.find? name) := hm.field name
  rw [Turn.allocate]
  cases hfind : m.find? name with
  | some id =>
      refine ⟨records, ?_, hm⟩
      rw [Rewrite.allocate, hfield, hfind]
  | none =>
      have hnext : TableId.nextId? records.size =
          if m.size < maxId then some (Int32.ofNat (m.size + 1)) else none := by
        rw [TableId.nextId?, hm.size_eq]
        rfl
      by_cases hlt : m.size < maxId
      · rw [if_pos hlt] at hnext ⊢
        refine ⟨_, ?_, hm.insert name (Int32.ofNat (m.size + 1))⟩
        rw [Rewrite.allocate, hfield, hfind]
        simp only [hnext]
        rfl
      · rw [if_neg hlt] at hnext ⊢
        change Rewrite.allocate table name records = _
        rw [Rewrite.allocate, hfield, hfind]
        simp only [hnext]

end Tracks

namespace ValueKind

def cell : ValueKind → CellKind
  | integer => .int
  | text => .text

def item : (kind : ValueKind) → Int32 × kind.cell.Carrier → Item
  | integer, e => ⟨e.1, .int e.2⟩
  | text, e => ⟨e.1, .text e.2⟩

variable (kind : ValueKind)

theorem item_key (e : Int32 × kind.cell.Carrier) : (kind.item e).key = e.1 := by
  cases kind <;> rfl

theorem decodeItem_eq {a : Int32} {c : kind.cell.Carrier} {bs : Bytes}
    (h : kind.cell.format.decode bs = .ok c) :
    Dump.decodeItem kind (KeyKind.bytes .id a, bs) = .ok (kind.item (a, c)) := by
  have hkey : Format.int.decode (KeyKind.bytes .id a) = .ok a := Format.decode_int_encode a
  rw [Dump.decodeItem, hkey]
  cases kind with
  | integer =>
      change Format.int.decode bs = .ok c at h
      change (do let value ← (Format.int.decode bs).map Value.int; pure (Item.mk a value)) = _
      rw [h]
      rfl
  | text =>
      change Format.text.decode bs = .ok c at h
      change (do let value ← (Format.text.decode bs).map Value.text; pure (Item.mk a value)) = _
      rw [h]
      rfl

end ValueKind

theorem Holds.items {kind : ValueKind} {m : SortedMap Int32 kind.cell.Carrier} {table : Table}
    (h : Holds .id kind.cell m table) :
    ∃ items, Dump.decodeItems kind table.entries = .ok items ∧
      items.Perm (m.entries.map kind.item) ∧
      items.Pairwise (fun x y => x.keyPrecedes y = true) := by
  have hdecode : ∀ r ∈ table.entries, ∃ e ∈ m.entries,
      Dump.decodeItem kind r = .ok (kind.item e) ∧ Format.int.encode e.1 = r.1 := by
    rintro ⟨bs, value⟩ hr
    obtain ⟨a, c, rfl, hc, hd⟩ := h.cell_of_mem hr
    exact ⟨(a, c), SortedMap.find?_eq_some_iff.1 hc, kind.decodeItem_eq hd, rfl⟩
  have hitem : ∀ r ∈ table.entries, ∃ x, Dump.decodeItem kind r = .ok x ∧
      Format.int.encode x.key = r.1 := by
    intro r hr
    obtain ⟨e, _, hx, hk⟩ := hdecode r hr
    exact ⟨kind.item e, hx, by rw [kind.item_key, hk]⟩
  obtain ⟨items, hitems, hkeys, hmem⟩ := Dump.decodeItems_ok hitem
  have hpairwise : items.Pairwise (fun x y => x.keyPrecedes y = true) := by
    have hsorted : (table.entries.map Prod.fst).Pairwise
        (fun a b => Ordered.precedes a b = true) := List.pairwise_map.2 table.sorted
    rw [← hkeys] at hsorted
    exact List.pairwise_map.1 hsorted
  refine ⟨items, hitems, ?_, hpairwise⟩
  have hnodup : items.Nodup := hpairwise.imp (fun {x y} hxy he => by
    rw [he, Item.keyPrecedes, Ordered.irrefl] at hxy
    cases hxy)
  have hnodup' : (m.entries.map kind.item).Nodup := by
    have hkeys : ((m.entries.map kind.item).map Item.key).Nodup := by
      rw [List.map_map, show Item.key ∘ kind.item = Prod.fst from funext kind.item_key]
      exact m.nodup_keys
    exact List.Pairwise.of_map Item.key (fun _ _ hne he => hne (congrArg Item.key he)) hkeys
  rw [List.perm_ext_iff_of_nodup hnodup hnodup']
  intro x
  rw [hmem, List.mem_map]
  constructor
  · rintro ⟨r, hr, hx⟩
    obtain ⟨e, he, hx', _⟩ := hdecode r hr
    exact ⟨e, he, Except.ok.inj (hx'.symm.trans hx)⟩
  · rintro ⟨⟨a, c⟩, he, rfl⟩
    obtain ⟨bs, hbs, hd⟩ := h.mem_of_find? (SortedMap.find?_eq_some_iff.2 he)
    exact ⟨_, hbs, kind.decodeItem_eq hd⟩

def Turn.dump (panel : Panel) (kind : ValueKind)
    (le : Int32 × kind.cell.Carrier → Int32 × kind.cell.Carrier → Bool) :
    Turn Int32 kind.cell.Carrier Dump := fun m =>
  .ok (⟨panel, kind, (m.entries.mergeSort le).map kind.item⟩, m)

theorem Tracks.dump (panel : Panel) (kind : ValueKind) (order : SortOrder)
    {le : Int32 × kind.cell.Carrier → Int32 × kind.cell.Carrier → Bool}
    (hfits : ∀ e, order.Fits (kind.item e).value)
    (hle : ∀ x y, le x y = true ↔ order.InOrder (kind.item x) (kind.item y)) :
    Tracks .id kind.cell
      ((Rewrite.dump kind).map (fun items => (⟨panel, kind, items⟩ : Dump).sort order))
      (.dump panel kind le) := by
  intro m table hm
  obtain ⟨items, hitems, hperm, hkeys⟩ := hm.items
  refine ⟨table, ?_, hm⟩
  rw [Rewrite.map, Rewrite.dump, hitems]
  have hsort := Dump.sortItems_eq_mergeSort kind.item_key hfits hle hperm hkeys
  exact congrArg (fun sorted => Except.ok (Dump.mk panel kind sorted, table)) hsort

end TrafficStore
