import TrafficStore.Proofs.Layout
import TrafficStore.Proofs.Utf8

namespace TrafficStore

namespace CellKind

inductive Reads : (v : CellKind) → Bytes → Except FormatFault v.Carrier → Prop
  | int (n : Int32) : Reads int (Format.int.encode n) (.ok n)
  | notInt {bs : Bytes} : bs.length ≠ 4 → Reads int bs (.error (.width 4 bs.length))
  | word (n : UInt64) : Reads word (Format.word.encode n) (.ok n)
  | notWord {bs : Bytes} : bs.length ≠ 8 → Reads word bs (.error (.width 8 bs.length))
  | text {s : String} (rest : Bytes) : (0 : UInt8) ∉ Text.Utf8.encode s →
      Reads text (Text.Utf8.encode s ++ 0 :: rest) (.ok s)
  | endless {bs : Bytes} : (0 : UInt8) ∉ bs → Reads text bs (.error .missingTerminator)
  | garbled {bs : Bytes} {f : Text.Utf8.Fault} (rest : Bytes) : (0 : UInt8) ∉ bs →
      (∀ s, Text.Utf8.encode s ≠ bs) → Text.Utf8.decode bs = .error f →
      Reads text (bs ++ 0 :: rest) (.error (.utf8 f))

end CellKind

namespace Format

theorem decode_fixed_cases {α : Type} {width : Nat} {toNat : α → Nat} {ofNat : Nat → α}
    (bs : Bytes) : (∃ a, (fixed width toNat ofNat).decode bs = .ok a) ∨ bs.length ≠ width ∧
      (fixed width toNat ofNat).decode bs = .error (.width width bs.length) := by
  by_cases h : bs.length = width
  · exact .inl ⟨_, if_pos h⟩
  · exact .inr ⟨h, if_neg h⟩

theorem decode_int_cases (bs : Bytes) : (∃ n, int.decode bs = .ok n) ∨
    bs.length ≠ 4 ∧ int.decode bs = .error (.width 4 bs.length) := decode_fixed_cases bs

theorem decode_word_cases (bs : Bytes) : (∃ n, word.decode bs = .ok n) ∨
    bs.length ≠ 8 ∧ word.decode bs = .error (.width 8 bs.length) := decode_fixed_cases bs

theorem word_encode_of_decode {bs : Bytes} {n : UInt64} (h : word.decode bs = .ok n) :
    word.encode n = bs :=
  encode_fixed_of_decode (fun m hm => by
    have hlt : m < 2 ^ 64 := by rw [← hm]; exact Nat.mod_lt m (by decide)
    simpa using Nat.mod_eq_of_lt hlt) h

theorem takeWhile_terminated {bs rest : Bytes} (h : (0 : UInt8) ∉ bs) :
    (bs ++ 0 :: rest).takeWhile (· != 0) = bs := by
  rw [Text.Utf8.takeWhile_append_of_not_mem h]
  simp

theorem decode_text_terminated {bs : Bytes} (rest : Bytes) (h : (0 : UInt8) ∉ bs) :
    text.decode (bs ++ 0 :: rest) = (Text.Utf8.decode bs).mapError .utf8 := by
  have hmem : (0 : UInt8) ∈ bs ++ 0 :: rest := List.mem_append_right bs List.mem_cons_self
  rw [text]
  simp only [if_pos hmem, takeWhile_terminated h]

end Format

namespace CellKind

theorem decode_of_reads {v : CellKind} {bs : Bytes} {r : Except FormatFault v.Carrier}
    (h : v.Reads bs r) : v.format.decode bs = r := by
  cases h with
  | int n => exact Format.decode_int_encode n
  | notInt hw => exact if_neg hw
  | word n => exact Format.decode_word_encode n
  | notWord hw => exact if_neg hw
  | text rest hno =>
      refine (Format.decode_text_terminated rest hno).trans ?_
      rw [Text.Utf8.decode_encode]
      rfl
  | endless hno => exact if_neg hno
  | garbled rest hno _ hf =>
      refine (Format.decode_text_terminated rest hno).trans ?_
      rw [hf]
      rfl

theorem reads_decode (v : CellKind) (bs : Bytes) : v.Reads bs (v.format.decode bs) := by
  cases v with
  | int =>
      rcases Format.decode_int_cases bs with ⟨n, hn⟩ | ⟨hw, hn⟩
      · rw [show int.format.decode bs = .ok n from hn, ← Format.int_encode_of_decode hn]
        exact .int n
      · rw [show int.format.decode bs = _ from hn]
        exact .notInt hw
  | word =>
      rcases Format.decode_word_cases bs with ⟨n, hn⟩ | ⟨hw, hn⟩
      · rw [show word.format.decode bs = .ok n from hn, ← Format.word_encode_of_decode hn]
        exact .word n
      · rw [show word.format.decode bs = _ from hn]
        exact .notWord hw
  | text =>
      by_cases hmem : (0 : UInt8) ∈ bs
      · obtain ⟨start, rest, rfl, hno⟩ := List.eq_append_cons_of_mem hmem
        rw [show text.format.decode _ = _ from Format.decode_text_terminated rest hno]
        cases hd : Text.Utf8.decode start with
        | ok s =>
            rw [← Text.Utf8.encode_of_decode hd] at hno ⊢
            exact .text rest hno
        | error f =>
            refine .garbled rest hno (fun s hs => ?_) hd
            rw [← hs, Text.Utf8.decode_encode] at hd
            cases hd
      · rw [show text.format.decode bs = _ from if_neg hmem]
        exact .endless hmem

theorem reads_iff {v : CellKind} {bs : Bytes} {r : Except FormatFault v.Carrier} :
    v.Reads bs r ↔ v.format.decode bs = r :=
  ⟨decode_of_reads, fun h => h ▸ v.reads_decode bs⟩

end CellKind

theorem Format.int_read_of_width {bs : Bytes} (h : bs.length ≠ 4) :
    Format.int.read (some bs) = .error (.corrupt (.width 4 bs.length)) := by
  rw [Format.read, show Format.int.decode bs = _ from CellKind.reads_iff.1 (.notInt h)]
  rfl

namespace ValueKind

/-- How a record of a dump reads: where both fields are ill laid, its key is to blame. -/
inductive Reads (kind : ValueKind) (r : Bytes × Bytes) : Except FormatFault Item → Prop
  | item {key : Int32} {a : kind.cell.Carrier} : CellKind.int.Reads r.1 (.ok key) →
      kind.cell.Reads r.2 (.ok a) → Reads kind r (.ok (kind.item (key, a)))
  | key {f : FormatFault} : CellKind.int.Reads r.1 (.error f) → Reads kind r (.error f)
  | value {key : Int32} {f : FormatFault} : CellKind.int.Reads r.1 (.ok key) →
      kind.cell.Reads r.2 (.error f) → Reads kind r (.error f)

variable {kind : ValueKind} {r : Bytes × Bytes}

theorem decodeItem_eq_bind (kind : ValueKind) (r : Bytes × Bytes) :
    Dump.decodeItem kind r = (Format.int.decode r.1).bind (fun key =>
      (kind.cell.format.decode r.2).map (fun a => kind.item (key, a))) := by
  rw [Dump.decodeItem]
  cases Format.int.decode r.1 with
  | error f => rfl
  | ok key =>
      cases kind with
      | integer =>
          change (do let value ← (Format.int.decode r.2).map Value.int; pure (Item.mk key value)) =
            (Format.int.decode r.2).map _
          cases Format.int.decode r.2 <;> rfl
      | text =>
          change (do
            let value ← (Format.text.decode r.2).map Value.text
            pure (Item.mk key value)) = (Format.text.decode r.2).map _
          cases Format.text.decode r.2 <;> rfl

theorem reads_iff {o : Except FormatFault Item} :
    kind.Reads r o ↔ Dump.decodeItem kind r = o := by
  have hkey : ∀ {k}, CellKind.int.Reads r.1 k ↔ Format.int.decode r.1 = k := CellKind.reads_iff
  rw [decodeItem_eq_bind]
  constructor
  · rintro (⟨hk, ha⟩ | hk | ⟨hk, ha⟩)
    · rw [hkey.1 hk, Except.bind, CellKind.reads_iff.1 ha]
      rfl
    · rw [hkey.1 hk]
      rfl
    · rw [hkey.1 hk, Except.bind, CellKind.reads_iff.1 ha]
      rfl
  · rintro rfl
    cases hk : Format.int.decode r.1 with
    | error f => exact .key (hkey.2 hk)
    | ok key =>
        rw [Except.bind]
        cases ha : kind.cell.format.decode r.2 with
        | error f => exact .value (hkey.2 hk) (CellKind.reads_iff.2 ha)
        | ok a => exact .item (hkey.2 hk) (CellKind.reads_iff.2 ha)

end ValueKind

namespace Dump

variable {kind : ValueKind}

theorem decodeItems_eq_ok_iff {rs : List (Bytes × Bytes)} {xs : List Item} :
    decodeItems kind rs = .ok xs ↔ List.Forall₂ (fun r x => kind.Reads r (.ok x)) rs xs := by
  rw [decodeItems, mapM_eq_ok_iff]
  simp only [ValueKind.reads_iff]

theorem decodeItems_eq_error {r : Bytes × Bytes} {f : FormatFault} (hr : kind.Reads r (.error f))
    (later : List (Bytes × Bytes)) : ∀ {rs : List (Bytes × Bytes)},
    (∀ s ∈ rs, ∃ x, kind.Reads s (.ok x)) → decodeItems kind (rs ++ r :: later) = .error f := by
  intro rs
  induction rs with
  | nil =>
      intro _
      rw [List.nil_append, decodeItems_cons, ValueKind.reads_iff.1 hr]
      rfl
  | cons s rs ih =>
      intro h
      obtain ⟨x, hx⟩ := h s List.mem_cons_self
      rw [List.cons_append, decodeItems_cons, ValueKind.reads_iff.1 hx, Except.bind,
        ih (fun s' hs' => h s' (List.mem_cons_of_mem s hs'))]
      rfl

theorem decodeItems_cases (kind : ValueKind) (rs : List (Bytes × Bytes)) :
    (∃ xs, decodeItems kind rs = .ok xs) ∨ ∃ before r later f, rs = before ++ r :: later ∧
      (∀ s ∈ before, ∃ x, kind.Reads s (.ok x)) ∧ kind.Reads r (.error f) := by
  induction rs with
  | nil => exact .inl ⟨[], rfl⟩
  | cons r rs ih =>
      cases hr : decodeItem kind r with
      | error f => exact .inr ⟨[], r, rs, f, rfl, by simp, ValueKind.reads_iff.2 hr⟩
      | ok x =>
          rcases ih with ⟨xs, hxs⟩ | ⟨before, s, later, f, rfl, hbefore, hs⟩
          · exact .inl ⟨x :: xs, by rw [decodeItems_cons, hr, Except.bind, hxs]; rfl⟩
          · refine .inr ⟨r :: before, s, later, f, rfl, fun s' hs' => ?_, hs⟩
            rcases List.mem_cons.1 hs' with rfl | hs'
            · exact ⟨x, ValueKind.reads_iff.2 hr⟩
            · exact hbefore s' hs'

end Dump

end TrafficStore
