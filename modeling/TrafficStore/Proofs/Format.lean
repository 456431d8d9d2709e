import TrafficStore.Format

namespace TrafficStore

def beforeNul (s : String) : String := String.ofList (s.toList.takeWhile (· ≠ '\x00'))

namespace Text.Utf8

theorem encode_injective {s t : String} (h : encode s = encode t) : s = t := by
  have hs := decode_encode s
  rw [h, decode_encode t] at hs
  exact (Except.ok.inj hs).symm

theorem toNat_of_mem_utf8EncodeChar {b : UInt8} {c : Char} (hb : b.toNat < 0x80)
    (h : b ∈ String.utf8EncodeChar c) : c.toNat = b.toNat := by
  have hofNat : ∀ n, b = UInt8.ofNat n → b.toNat = n % 256 := fun n hn => by
    rw [hn, UInt8.toNat_ofNat']
  have hv : c.val.toNat = c.toNat := rfl
  simp only [String.utf8EncodeChar] at h
  split at h
  · have hn := hofNat _ (List.mem_singleton.1 h)
    omega
  · split at h
    · simp only [List.mem_cons, List.not_mem_nil, or_false] at h
      rcases h with h | h <;> have hn := hofNat _ h <;> omega
    · split at h
      · simp only [List.mem_cons, List.not_mem_nil, or_false] at h
        rcases h with h | h | h <;> have hn := hofNat _ h <;> omega
      · simp only [List.mem_cons, List.not_mem_nil, or_false] at h
        rcases h with h | h | h | h <;> have hn := hofNat _ h <;> omega

theorem not_mem_utf8EncodeChar {b : UInt8} {c : Char} (hb : b.toNat < 0x80)
    (hc : c ≠ Char.ofNat b.toNat) : b ∉ String.utf8EncodeChar c := by
  intro h
  rw [← toNat_of_mem_utf8EncodeChar hb h, Char.ofNat_toNat] at hc
  exact hc rfl

theorem takeWhile_append_of_not_mem {bs rest : Bytes} (h : (0 : UInt8) ∉ bs) :
    (bs ++ rest).takeWhile (· != 0) = bs ++ rest.takeWhile (· != 0) := by
  refine List.takeWhile_append_of_pos (fun b hb => ?_)
  rw [bne_iff_ne]
  rintro rfl
  exact h hb

theorem takeWhile_encode (cs : List Char) :
    (cs.flatMap String.utf8EncodeChar ++ [0]).takeWhile (· != 0) =
      (cs.takeWhile (· ≠ '\x00')).flatMap String.utf8EncodeChar := by
  induction cs with
  | nil => rfl
  | cons c cs ih =>
      rw [List.flatMap_cons, List.append_assoc]
      by_cases hc : c = '\x00'
      · subst hc
        rfl
      · rw [takeWhile_append_of_not_mem (not_mem_utf8EncodeChar (by decide) hc), ih,
          List.takeWhile_cons_of_pos (by simpa using hc), List.flatMap_cons]

end Text.Utf8

namespace Format

theorem decode_fixed_encode {α : Type} {width : Nat} {toNat : α → Nat} {ofNat : Nat → α}
    (hlt : ∀ a, toNat a < Nat.pow 256 width) (hof : ∀ a, ofNat (toNat a) = a) (a : α) :
    (fixed width toNat ofNat).decode ((fixed width toNat ofNat).encode a) = .ok a := by
  rw [fixed]
  simp only [length_littleEndian, if_true, ofLittleEndian_littleEndian, Nat.mod_eq_of_lt (hlt a),
    hof]

theorem decode_int_encode (n : Int32) : int.decode (int.encode n) = .ok n :=
  decode_fixed_encode (fun n => n.toUInt32.toNat_lt) (fun n => by simp) n

theorem decode_word_encode (n : UInt64) : word.decode (word.encode n) = .ok n :=
  decode_fixed_encode (fun n => n.toNat_lt) (fun n => by simp) n

theorem decode_text_encode (s : String) : text.decode (text.encode s) = .ok (beforeNul s) := by
  have hmem : (0 : UInt8) ∈ text.encode s := List.mem_append_right _ List.mem_cons_self
  have hcut : (text.encode s).takeWhile (· != 0) = Text.Utf8.encode (beforeNul s) := by
    refine (Text.Utf8.takeWhile_encode s.toList).trans ?_
    rw [Text.Utf8.encode, beforeNul, String.toList_ofList]
  rw [text] at hmem hcut ⊢
  simp only [if_pos hmem, hcut, Text.Utf8.decode_encode]
  rfl

theorem ofLittleEndian_mod (bs : Bytes) :
    ofLittleEndian bs % Nat.pow 256 bs.length = ofLittleEndian bs := by
  rw [← ofLittleEndian_littleEndian, littleEndian_ofLittleEndian]

theorem encode_fixed_of_decode {α : Type} {width : Nat} {toNat : α → Nat} {ofNat : Nat → α}
    (hof : ∀ n, n % Nat.pow 256 width = n → toNat (ofNat n) = n) {bs : Bytes} {a : α}
    (h : (fixed width toNat ofNat).decode bs = .ok a) :
    (fixed width toNat ofNat).encode a = bs := by
  simp only [fixed] at h ⊢
  by_cases hw : bs.length = width
  · rw [if_pos hw] at h
    cases h
    subst hw
    rw [hof _ (ofLittleEndian_mod bs), littleEndian_ofLittleEndian]
  · rw [if_neg hw] at h
    cases h

theorem int_encode_of_decode {bs : Bytes} {n : Int32} (h : int.decode bs = .ok n) :
    int.encode n = bs :=
  encode_fixed_of_decode (fun m hm => by
    have hlt : m < 2 ^ 32 := by rw [← hm]; exact Nat.mod_lt m (by decide)
    simpa using Nat.mod_eq_of_lt hlt) h

theorem encode_injective {α : Type} {f : Format α} (hf : ∀ a, f.decode (f.encode a) = .ok a)
    {a b : α} (h : f.encode a = f.encode b) : a = b := by
  have ha := hf a
  rw [h, hf b] at ha
  exact (Except.ok.inj ha).symm

theorem int_encode_injective {m n : Int32} (h : int.encode m = int.encode n) : m = n :=
  encode_injective decode_int_encode h

end Format

end TrafficStore
