import Mathlib.Data.List.Sort
import Mathlib.Data.Set.List
import TrafficStore.Proofs.Exactness
import TrafficStore.Proofs.Frame
import TrafficStore.Proofs.Engine.Durable
import TrafficStore.Proofs.Engine.Volatile

namespace TrafficStore

open ScopeViews

def Key.SameRecord (k k' : Key) : Prop :=
  ∀ (table : Table) (bs : Bytes), (table.insert k.bytes bs).find? k'.bytes = some bs

theorem Key.sameRecord_iff {k k' : Key} : k.SameRecord k' ↔ k.bytes = k'.bytes := by
  constructor
  · intro h
    have hfound := h .empty []
    rw [SortedMap.find?_insert] at hfound
    by_contra hne
    rw [if_neg (Ne.symm hne)] at hfound
    cases hfound
  · intro h table bs
    rw [SortedMap.find?_insert, if_pos h.symm]

namespace KeyKind

variable {k : KeyKind} {a b : k.Carrier}

theorem bytes_inj : k.bytes a = k.bytes b ↔ a = b := ⟨bytes_injective, congrArg k.bytes⟩

theorem sameRecord_iff : (k.key a).SameRecord (k.key b) ↔ a = b :=
  Key.sameRecord_iff.trans bytes_inj

end KeyKind

structure RecordPerKey (ε : Type) [Engine ε] [ScopeViews ε] : Prop where
  find : ∀ {α : Type} {k : KeyKind} {a : k.Carrier} {t : TableId} {f : Format α}
    {env : Environment ε}, Sound env.engine →
    (Engine.committed env.engine).contains t.name = true →
    Faults ε ((t.find f (k.key a)).run env).1 ∨ ((t.find f (k.key a)).run env).1 =
      f.read ((Engine.committed env.engine).record? t.name (k.bytes a))
  put : ∀ {α : Type} {k : KeyKind} {a : k.Carrier} {t : TableId} {f : Format α} {c : α}
    {env env' : Environment ε}, Sound env.engine →
    (t.put f (k.key a) c).run env = (.ok (), env') →
    ∀ b, (Engine.committed env'.engine).record? t.name (k.bytes b) =
      if b = a then some (f.encode c)
      else (Engine.committed env.engine).record? t.name (k.bytes b)
  elsewhere : ∀ {k : KeyKind} {a b : k.Carrier} {t : TableId} {x : Access} {env : Environment ε},
    Sound env.engine → x.key? = some (k.key a) → b ≠ a →
    (Engine.committed ((x.run t).run env).2.engine).record? t.name (k.bytes b) =
      (Engine.committed env.engine).record? t.name (k.bytes b)

theorem recordPerKey (ε : Type) [Engine ε] [IsolatedEngine ε] : RecordPerKey ε where
  find := by
    intro α k a t f env hs hc
    obtain ⟨table, htable⟩ := SortedMap.contains_iff.1 hc
    obtain ⟨r, env', hrun, -, -, hr⟩ := t.serves_find f (k.key a) env hs
    rw [hrun]
    refine hr.imp And.left (fun hsettle => ?_)
    have hanswer := congrArg Prod.fst hsettle
    rw [Change.settle, TableId.onRecords_some htable, Rewrite.find, Rewrite.field] at hanswer
    rw [← hanswer, Content.record?, htable]
    change _ = f.read (table.find? (k.key a).bytes)
    cases f.read (table.find? (k.key a).bytes) <;> rfl
  put := by
    intro α k a t f c env env' hs hrun b
    obtain ⟨-, -, hr⟩ := (t.serves_put f (k.key a) c).ok hs hrun
    obtain ⟨table, table', htable, hput, hc⟩ := TableId.onRecords_ok hr
    cases hput
    rw [hc, Content.record?, Content.record?, SortedMap.find?_insert, if_pos rfl, htable,
      Option.bind_some, Option.bind_some, SortedMap.find?_insert]
    simp only [show (k.key a).bytes = k.bytes a from rfl, KeyKind.bytes_inj]
  elsewhere := by
    intro k a b t x env hs hx hne
    refine ((Leaves.access t x).framed env hs).elsewhere _ _ ?_
    rintro u key hu ⟨-, hkey⟩
    rw [hx] at hu
    cases hu
    exact hne (KeyKind.bytes_injective hkey)

def ScansBefore (m n : Int32) : Prop := Format.int.encode m < Format.int.encode n

namespace ScansBefore

instance (m n : Int32) : Decidable (ScansBefore m n) :=
  inferInstanceAs (Decidable (Format.int.encode _ < Format.int.encode _))

instance : IsStrictTotalOrder Int32 ScansBefore where
  irrefl n := List.lt_irrefl (Format.int.encode n)
  trans _ _ _ h h' := List.lt_trans h h'
  trichotomous _ _ h h' := Format.int_encode_injective
    (Ordered.eq_of_neither (κ := Bytes) (decide_eq_false h) (decide_eq_false h'))

theorem byte_encode (n : Int32) {i : Nat} (h : i < (Format.int.encode n).length) :
    ((Format.int.encode n)[i].toNat : Int) = n.toInt / 256 ^ i % 256 :=
  (Format.exact_int.encode_iff.1 rfl).byte i _ (List.getElem?_eq_getElem h)

theorem iff_byte {m n : Int32} : ScansBefore m n ↔ ∃ i < 4,
    (∀ j < i, m.toInt / 256 ^ j % 256 = n.toInt / 256 ^ j % 256) ∧
      m.toInt / 256 ^ i % 256 < n.toInt / 256 ^ i % 256 := by
  have hlength : ∀ n, (Format.int.encode n).length = 4 := fun n => length_littleEndian 4 _
  rw [ScansBefore, List.lt_iff_exists]
  constructor
  · rintro (⟨-, hlt⟩ | ⟨i, hm, hn, heq, hlt⟩)
    · rw [hlength, hlength] at hlt
      exact absurd hlt (Nat.lt_irrefl 4)
    · refine ⟨i, hlength m ▸ hm, fun j hj => ?_, ?_⟩
      · rw [← byte_encode m (by omega), ← byte_encode n (by omega), heq j hj]
      · rw [← byte_encode m hm, ← byte_encode n hn]
        exact Int.ofNat_lt.2 (UInt8.lt_iff_toNat_lt.1 hlt)
  · rintro ⟨i, hi, heq, hlt⟩
    refine .inr ⟨i, by rw [hlength]; exact hi, by rw [hlength]; exact hi, fun j hj => ?_, ?_⟩
    · refine UInt8.toNat_inj.1 (Int.ofNat_inj.1 ?_)
      rw [byte_encode, byte_encode]
      exact heq j hj
    · refine UInt8.lt_iff_toNat_lt.2 (Int.ofNat_lt.1 ?_)
      rw [byte_encode, byte_encode]
      exact hlt

example : [0, -0x80000000, 0x100, 1, -1].Pairwise ScansBefore := by decide

end ScansBefore

structure ListsIds (table : Table) (ids : List Int32) : Prop where
  mem_iff : ∀ n, n ∈ ids ↔ table.contains (Format.int.encode n) = true
  ascending : ids.Pairwise ScansBefore

theorem ListsIds.unique {table : Table} {ids others : List Int32} (h : ListsIds table ids)
    (h' : ListsIds table others) : ids = others :=
  h.ascending.eq_of_mem_iff h'.ascending (fun n => (h.mem_iff n).trans (h'.mem_iff n).symm)

structure InScanOrder (table : Table) (records : List (Bytes × Bytes)) : Prop where
  mem_iff : ∀ key value, (key, value) ∈ records ↔ table.find? key = some value
  ascending : records.Pairwise (fun r s => r.1 < s.1)
  ids_iff : (∀ r ∈ records, r.1.length = 4) → ∀ ids : List Int32,
    records.map Prod.fst = ids.map Format.int.encode ↔ ListsIds table ids

theorem listsIds_of_keys {table : Table} {ids : List Int32}
    (h : table.keys = ids.map Format.int.encode) : ListsIds table ids where
  mem_iff n := by
    rw [← SortedMap.mem_keys_iff, h, List.mem_map]
    constructor
    · exact fun hn => ⟨n, hn, rfl⟩
    · rintro ⟨m, hm, he⟩
      exact Format.int_encode_injective he ▸ hm
  ascending := by
    have hkeys : table.keys.Pairwise (· < ·) :=
      List.pairwise_map.2 (table.sorted.imp of_decide_eq_true)
    rw [h, List.pairwise_map] at hkeys
    exact hkeys

theorem inScanOrder_entries (table : Table) : InScanOrder table table.entries where
  mem_iff _ _ := SortedMap.find?_eq_some_iff.symm
  ascending := table.sorted.imp of_decide_eq_true
  ids_iff hwidth ids := by
    refine ⟨listsIds_of_keys, fun h => ?_⟩
    -- keys of four bytes are those of some ids, and no others come in this order
    have hkeys : table.keys ∈ Set.range (List.map Format.int.encode) := by
      rw [Set.range_list_map]
      intro key hkey
      obtain ⟨r, hr, rfl⟩ := List.mem_map.1 hkey
      obtain ⟨n, -, hn⟩ := Format.covers_int.bijOn.surjOn (hwidth r hr)
      exact ⟨n, hn⟩
    obtain ⟨others, hothers⟩ := hkeys
    rw [h.unique (listsIds_of_keys hothers.symm)]
    exact hothers.symm

structure ScansInOrder (ε : Type) [Engine ε] [ScopeViews ε] : Prop where
  reader : ∀ {s : Engine.Reader ε} {e : ε} {name : String} {table : Table}, Sound e →
    Takes ε name → (seen s).find? name = some table →
    Faults ε ((Engine.reading.scan name).run (s, e)).1 ∨ ∃ records,
      ((Engine.reading.scan name).run (s, e)).1 = .ok records ∧ InScanOrder table records
  writer : ∀ {w : Engine.Writer ε} {e : ε} {name : String} {table : Table}, Sound e → Owns e w →
    Takes ε name → (draft w).find? name = some table →
    Faults ε ((Engine.rereading.scan name).run (w, e)).1 ∨ ∃ records,
      ((Engine.rereading.scan name).run (w, e)).1 = .ok records ∧ InScanOrder table records

theorem scan_inScanOrder {ε σ : Type} [Engine ε] [ScopeViews ε] {v : Window ε σ}
    {r : Reading ε σ} (hr : ReadsAs v r) {s : σ} {e : ε} {name : String} {table : Table}
    (hs : Sound e) (hv : v.valid e s) (htakes : Takes ε name)
    (htable : (v.view s).find? name = some table) : Faults ε ((r.scan name).run (s, e)).1 ∨
      ∃ records, ((r.scan name).run (s, e)).1 = .ok records ∧ InScanOrder table records := by
  obtain ⟨x, s', e', hrun, -, hx⟩ := hr.scan htakes s e hs hv
  rw [hrun]
  refine hx.imp_right (fun h => ?_)
  rw [Copy.run_scan_some htable] at h
  exact ⟨_, (congrArg Prod.fst h.1).symm, inScanOrder_entries table⟩

theorem scansInOrder (ε : Type) [Engine ε] [IsolatedEngine ε] : ScansInOrder ε where
  reader hs htakes htable :=
    scan_inScanOrder IsolatedEngine.reading_readsAs hs trivial htakes htable
  writer hs howns htakes htable :=
    scan_inScanOrder IsolatedEngine.rereading_readsAs hs howns htakes htable

theorem layouts_exact {δ : Type} [Database δ] [LawfulDatabase δ] :
    Format.int.Exact (fun n => LowestFirst 4 n.toInt) ∧
    Format.word.Exact (fun n => LowestFirst 8 n.toNat) ∧
    Format.name.Exact (fun s bs => s.toUTF8 = bs.toByteArray) ∧
    Format.int.Covers {bs | bs.length = 4} (fun x bs => x = .width 4 bs.length) ∧
    Format.word.Covers {bs | bs.length = 8} (fun x bs => x = .width 8 bs.length) ∧
    Format.name.Covers {bs | bs.toByteArray.IsValidUTF8}
      (fun x bs => ∃ f : Text.Utf8.Fault, x = .utf8 f ∧ f.Breaks bs) ∧
    (∀ {k : KeyKind} {a b : k.Carrier}, (k.key a).SameRecord (k.key b) ↔ a = b) ∧
    RecordPerKey Volatile ∧ RecordPerKey (DatabaseEngine δ) ∧
    IsStrictTotalOrder Int32 ScansBefore ∧
    (∀ {m n : Int32}, ScansBefore m n ↔ ∃ i < 4,
      (∀ j < i, m.toInt / 256 ^ j % 256 = n.toInt / 256 ^ j % 256) ∧
        m.toInt / 256 ^ i % 256 < n.toInt / 256 ^ i % 256) ∧
    ScansInOrder Volatile ∧ ScansInOrder (DatabaseEngine δ) :=
  ⟨Format.exact_int, Format.exact_word, Format.exact_name, Format.covers_int, Format.covers_word,
    Format.covers_name, KeyKind.sameRecord_iff, recordPerKey _, recordPerKey _, inferInstance,
    ScansBefore.iff_byte, scansInOrder _, scansInOrder _⟩

end TrafficStore
