import Mathlib.Algebra.Group.Int.Defs
import Mathlib.Data.Set.Function
import TrafficStore.Proofs.Decoding
import TrafficStore.Proofs.Terminated

namespace TrafficStore

structure LowestFirst (width : Nat) (z : Int) (bs : Bytes) : Prop where
  length : bs.length = width
  byte : ∀ i b, bs[i]? = some b → (b.toNat : Int) = z / 256 ^ i % 256

namespace LowestFirst

variable {width : Nat} {z : Int} {b : UInt8} {bs : Bytes}

theorem ediv_pow_succ (z : Int) (i : Nat) : z / 256 ^ (i + 1) = z / 256 / 256 ^ i := by
  rw [Int.pow_succ', Int.ediv_ediv_of_nonneg (by decide)]

theorem nil_iff : LowestFirst 0 z bs ↔ bs = [] := by
  constructor
  · exact fun h => List.eq_nil_of_length_eq_zero h.length
  · rintro rfl
    exact ⟨rfl, fun i b h => nomatch h⟩

theorem not_nil : ¬ LowestFirst (width + 1) z [] := fun h => nomatch h.length

theorem cons_iff : LowestFirst (width + 1) z (b :: bs) ↔
    (b.toNat : Int) = z % 256 ∧ LowestFirst width (z / 256) bs := by
  constructor
  · intro h
    refine ⟨?_, Nat.succ.inj h.length, fun i a ha => ?_⟩
    · rw [h.byte 0 b rfl, Int.pow_zero, Int.ediv_one]
    · rw [h.byte (i + 1) a ha, ediv_pow_succ]
  · rintro ⟨hb, hbs⟩
    refine ⟨congrArg Nat.succ hbs.length, fun i a ha => ?_⟩
    cases i with
    | zero =>
        cases ha
        rw [hb, Int.pow_zero, Int.ediv_one]
    | succ i => rw [hbs.byte i a ha, ediv_pow_succ]

theorem emod_pow_succ (width : Nat) (z : Int) :
    z % 256 ^ (width + 1) = z % 256 + 256 * (z / 256 % 256 ^ width) := by
  rw [Int.pow_succ', Int.emod_def, Int.emod_def (z / 256), Int.emod_def z 256,
    Int.ediv_ediv_of_nonneg (by decide), Int.mul_assoc]
  omega

theorem toNat_emod_pow_succ (width : Nat) (z : Int) :
    (z % 256 ^ (width + 1)).toNat = (z % 256).toNat + 256 * (z / 256 % 256 ^ width).toNat := by
  have hrest : 0 ≤ z / 256 % 256 ^ width :=
    Int.emod_nonneg _ (Int.pow_ne_zero (by decide))
  rw [emod_pow_succ]
  omega

theorem byte_iff : (b.toNat : Int) = z % 256 ↔ UInt8.ofNat (z % 256).toNat = b := by
  have hb := b.toNat_lt
  rw [← UInt8.toNat_inj, Text.Utf8.toNat_byte (by omega)]
  omega

theorem iff_littleEndian : LowestFirst width z bs ↔
    littleEndian width (z % 256 ^ width).toNat = bs := by
  induction width generalizing z bs with
  | zero => rw [nil_iff, littleEndian, eq_comm]
  | succ width ih =>
      have hlow : (z % 256 ^ (width + 1)).toNat % 256 = (z % 256).toNat := by
        rw [toNat_emod_pow_succ]
        omega
      have hrest : (z % 256 ^ (width + 1)).toNat / 256 = (z / 256 % 256 ^ width).toNat := by
        rw [toNat_emod_pow_succ]
        omega
      rw [littleEndian, hlow, hrest]
      cases bs with
      | nil => exact iff_of_false not_nil (List.cons_ne_nil _ _)
      | cons b bs => rw [cons_iff, ih, byte_iff, List.cons.injEq]

instance (width : Nat) (z : Int) (bs : Bytes) : Decidable (LowestFirst width z bs) :=
  decidable_of_iff _ iff_littleEndian.symm

example : LowestFirst 4 (-2) [0xFE, 0xFF, 0xFF, 0xFF] := by decide

end LowestFirst

namespace Format

structure Exact {α : Type} (f : Format α) (Layout : α → Bytes → Prop) : Prop where
  encode_iff : ∀ {a bs}, f.encode a = bs ↔ Layout a bs
  decode_iff : ∀ {bs a}, f.decode bs = .ok a ↔ Layout a bs

structure Covers {α : Type} (f : Format α) (legal : Set Bytes)
    (Blames : FormatFault → Bytes → Prop) : Prop where
  bijOn : Set.BijOn f.encode Set.univ legal
  reads : ∀ bs ∈ legal, ∃ a, f.decode bs = .ok a
  refuses : ∀ bs ∉ legal, ∃ x, f.decode bs = .error x ∧ Blames x bs

namespace Exact

variable {α : Type} {f : Format α} {Layout : α → Bytes → Prop}

theorem of_encode (hencode : ∀ {a bs}, f.encode a = bs ↔ Layout a bs)
    (hround : ∀ a, f.decode (f.encode a) = .ok a)
    (hback : ∀ {bs a}, f.decode bs = .ok a → f.encode a = bs) : f.Exact Layout where
  encode_iff := hencode
  decode_iff {bs a} := by
    rw [← hencode]
    exact ⟨hback, fun h => h ▸ hround a⟩

theorem decode_iff_encode (h : f.Exact Layout) {bs : Bytes} {a : α} :
    f.decode bs = .ok a ↔ f.encode a = bs :=
  h.decode_iff.trans h.encode_iff.symm

theorem encode_inj (h : f.Exact Layout) {a b : α} : f.encode a = f.encode b ↔ a = b :=
  ⟨encode_injective (fun _ => h.decode_iff_encode.2 rfl), congrArg f.encode⟩

theorem covers {legal : Set Bytes} {Blames : FormatFault → Bytes → Prop} (h : f.Exact Layout)
    (hlegal : ∀ a, f.encode a ∈ legal) (hcases : ∀ bs, (∃ a, f.decode bs = .ok a) ∨
      bs ∉ legal ∧ ∃ x, f.decode bs = .error x ∧ Blames x bs) : f.Covers legal Blames := by
  have hreads : ∀ bs ∈ legal, ∃ a, f.decode bs = .ok a := fun bs hbs =>
    (hcases bs).resolve_right (fun hno => hno.1 hbs)
  refine ⟨⟨fun a _ => hlegal a, fun a _ b _ he => h.encode_inj.1 he, fun bs hbs => ?_⟩, hreads,
    fun bs hbs => ?_⟩
  · obtain ⟨a, ha⟩ := hreads bs hbs
    exact ⟨a, trivial, h.decode_iff_encode.1 ha⟩
  · rcases hcases bs with ⟨a, ha⟩ | hno
    · rw [h.decode_iff_encode] at ha
      exact absurd (ha ▸ hlegal a) hbs
    · exact hno.2

end Exact

theorem encode_fixed_iff {α : Type} {width : Nat} {toNat : α → Nat} {ofNat : Nat → α}
    (value : α → Int) (hvalue : ∀ a, (toNat a : Int) = value a % 256 ^ width) {a : α}
    {bs : Bytes} : (fixed width toNat ofNat).encode a = bs ↔ LowestFirst width (value a) bs := by
  rw [LowestFirst.iff_littleEndian, ← hvalue, Int.toNat_natCast]
  rfl

theorem toNat_toUInt32 (n : Int32) : (n.toUInt32.toNat : Int) = n.toInt % 256 ^ 4 := by
  have hmod : (n.toInt : Int) % 256 ^ 4 = (n.toBitVec.toNat : Int) % 256 ^ 4 := by
    rw [← Int32.toInt_toBitVec, BitVec.toInt_eq_toNat_bmod]
    exact Int.bmod_emod
  have hlt := n.toBitVec.isLt
  rw [hmod, Int.emod_eq_of_lt (by omega) (by omega)]
  rfl

theorem exact_int : int.Exact (fun n => LowestFirst 4 n.toInt) :=
  .of_encode (encode_fixed_iff Int32.toInt toNat_toUInt32) decode_int_encode int_encode_of_decode

theorem exact_word : word.Exact (fun n => LowestFirst 8 n.toNat) := by
  have hvalue : ∀ n : UInt64, (n.toNat : Int) = (n.toNat : Int) % 256 ^ 8 := fun n =>
    (Int.emod_eq_of_lt (Int.natCast_nonneg _) (by have hlt := n.toNat_lt; omega)).symm
  exact .of_encode (encode_fixed_iff (fun n : UInt64 => (n.toNat : Int)) hvalue)
    decode_word_encode word_encode_of_decode

theorem covers_int : int.Covers {bs | bs.length = 4} (fun x bs => x = .width 4 bs.length) :=
  exact_int.covers (fun _ => length_littleEndian 4 _)
    (fun bs => (decode_int_cases bs).imp_right (fun h => ⟨h.1, _, h.2, rfl⟩))

theorem covers_word : word.Covers {bs | bs.length = 8} (fun x bs => x = .width 8 bs.length) :=
  exact_word.covers (fun _ => length_littleEndian 8 _)
    (fun bs => (decode_word_cases bs).imp_right (fun h => ⟨h.1, _, h.2, rfl⟩))

theorem encode_name_iff {s : String} {bs : Bytes} :
    name.encode s = bs ↔ s.toUTF8 = bs.toByteArray := by
  have hutf8 : s.toUTF8 = (name.encode s).toByteArray := by
    rw [String.toUTF8_eq_toByteArray, ← String.ofList_toList (s := s), String.toByteArray_ofList,
      String.ofList_toList]
    rfl
  rw [hutf8]
  refine ⟨congrArg List.toByteArray, fun h => ?_⟩
  rw [← List.toList_data_toByteArray (l := bs), ← h, List.toList_data_toByteArray]

theorem decode_name_cases (bs : Bytes) :
    (∃ s, Text.Utf8.decode bs = .ok s ∧ name.decode bs = .ok s) ∨
      ∃ f, Text.Utf8.decode bs = .error f ∧ name.decode bs = .error (.utf8 f) := by
  cases hd : Text.Utf8.decode bs with
  | ok s => exact .inl ⟨s, rfl, congrArg (Except.mapError FormatFault.utf8) hd⟩
  | error f => exact .inr ⟨f, rfl, congrArg (Except.mapError FormatFault.utf8) hd⟩

theorem exact_name : name.Exact (fun s bs => s.toUTF8 = bs.toByteArray) := by
  refine .of_encode encode_name_iff (fun s => ?_) (fun {bs s} h => ?_)
  · exact congrArg (Except.mapError FormatFault.utf8) (Text.Utf8.decode_encode s)
  · rcases decode_name_cases bs with ⟨t, ht, hname⟩ | ⟨f, -, hname⟩ <;> rw [h] at hname
    · cases hname
      exact Text.Utf8.encode_of_decode ht
    · cases hname

theorem isValidUTF8_iff {bs : Bytes} :
    bs.toByteArray.IsValidUTF8 ↔ ∃ s : String, name.encode s = bs := by
  constructor
  · rintro ⟨cs, hcs⟩
    refine ⟨String.ofList cs, encode_name_iff.2 ?_⟩
    rw [hcs, String.toUTF8_eq_toByteArray, String.toByteArray_ofList]
  · rintro ⟨s, hs⟩
    rw [← encode_name_iff.1 hs]
    exact s.isValidUTF8

theorem covers_name : name.Covers {bs | bs.toByteArray.IsValidUTF8}
    (fun x bs => ∃ f : Text.Utf8.Fault, x = .utf8 f ∧ f.Breaks bs) := by
  refine exact_name.covers (fun s => isValidUTF8_iff.2 ⟨s, rfl⟩) (fun bs => ?_)
  rcases decode_name_cases bs with ⟨s, -, hname⟩ | ⟨f, hf, hname⟩
  · exact .inl ⟨s, hname⟩
  · refine .inr ⟨fun hvalid => ?_, _, hname, f, rfl, Text.Utf8.breaks_of_decode hf⟩
    obtain ⟨s, hs⟩ := isValidUTF8_iff.1 hvalid
    rw [exact_name.decode_iff_encode.2 hs] at hname
    cases hname

end Format

end TrafficStore
